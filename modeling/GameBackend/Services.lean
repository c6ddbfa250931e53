import GameBackend.Repositories

/-!
# Services

`LoginService`, `PlayerService` and `DungeonService`, and the session check of
the gateway, as programs over the repositories. `serve` dispatches a request to
its service.
-/

namespace GameBackend

namespace LoginService

def refuse (code : ErrorCode) (message : String) : LoginResponse :=
  ⟨false, code, message, none, 0⟩

def login (env : Env) (request : LoginRequest) : Program LoginResponse := do
  match ← MySqlAccountRepository.findByName request.accountName with
  | none => return refuse .accountNotFound "account not found"
  | some account =>
    if !account.enabled then
      return refuse .accountDisabled "account disabled"
    if !env.verifyPassword request.password account.passwordHash then
      return refuse .invalidPassword "invalid password"
    let session ← RedisSessionRepository.create env account.accountId account.defaultPlayerId
    return ⟨true, .ok, "", some session, account.defaultPlayerId⟩

end LoginService

namespace PlayerService

def refuse (code : ErrorCode) (message : String) : LoadPlayerResponse :=
  ⟨false, code, message, none, false⟩

def loadPlayer (env : Env) (request : LoadPlayerRequest) : Program LoadPlayerResponse := do
  let session ← RedisSessionRepository.findById request.sessionId
  if session.map Session.playerId ≠ some request.playerId then
    return refuse .sessionInvalid "session invalid"
  match ← RedisPlayerCacheRepository.findByPlayerId request.playerId with
  | some cachedState => return ⟨true, .ok, "", some cachedState, true⟩
  | none =>
    match ← MySqlPlayerRepository.loadPlayerState request.playerId with
    | none => return refuse .playerNotFound "player not found"
    | some playerState =>
      let _ ← RedisPlayerCacheRepository.save env playerState
      return ⟨true, .ok, "", some playerState, false⟩

end PlayerService

namespace DungeonService

def refuseEnter (code : ErrorCode) (message : String) : EnterDungeonResponse :=
  ⟨false, code, message, "", 0⟩

def refuseSettle (code : ErrorCode) (message : String) : SettleDungeonResponse :=
  ⟨false, code, message, false, []⟩

/-- `battle-<player>-<dungeon>-<sequence>` -/
def battleIdText (playerId dungeonId : ℤ) (sequence : UInt64) : String :=
  "battle-" ++ toString playerId ++ "-" ++ toString dungeonId ++ "-" ++ toString sequence.toNat

/-- A battle id tells the player, the dungeon and the number. -/
theorem battleIdText_inj {p q d e : ℤ} {m n : UInt64}
    (h : battleIdText p d m = battleIdText q e n) : p = q ∧ d = e ∧ m = n := by
  obtain ⟨hp, hd, hn⟩ := idText_inj h
  exact ⟨hp, hd, UInt64.toNat_inj.mp hn⟩

def generateBattleId (playerId dungeonId : ℤ) : Program String := do
  let sequence ← fetchAddSequence
  return battleIdText playerId dungeonId sequence

def acquirePlayerLock (env : Env) (playerId : ℤ) : Program Bool :=
  RedisPlayerLockRepository.acquire env playerId

def releasePlayerLock (playerId : ℤ) : Program Unit :=
  RedisPlayerLockRepository.release playerId

/-- The error code of a failed `MySqlDungeonRepository::EnterDungeon`. -/
def enterErrorCode (message : String) : ErrorCode :=
  if message = "stamina not enough" then .staminaNotEnough
  else if message = "unfinished battle exists" then .playerBusy
  else .storageError

/-- The error code of a failed `MySqlDungeonRepository::SettleDungeon`. -/
def settleErrorCode (message : String) : ErrorCode :=
  if message = "battle already settled" then .battleAlreadySettled else .storageError

/-- `EnterDungeon` between acquiring and releasing the player lock. -/
def enterLocked (env : Env) (config : DungeonConfig) (request : EnterDungeonRequest) :
    Program EnterDungeonResponse := do
  match ← MySqlPlayerRepository.loadPlayerState request.playerId with
  | none => return refuseEnter .playerNotFound "player not found"
  | some playerState =>
    if playerState.profile.level < config.requiredLevel then
      return refuseEnter .dungeonLocked "player level not enough"
    if playerState.profile.stamina < config.costStamina then
      return refuseEnter .staminaNotEnough "stamina not enough"
    let battleId ← generateBattleId request.playerId request.dungeonId
    let result ← MySqlDungeonRepository.enterDungeon playerState config battleId
    if !result.success then
      return refuseEnter (enterErrorCode result.errorMessage) result.errorMessage
    let _ ← RedisBattleContextRepository.save env result.battleContext
    let _ ← RedisPlayerCacheRepository.invalidate request.playerId
    return ⟨true, .ok, "", battleId, result.remainStamina⟩

def enterDungeon (env : Env) (request : EnterDungeonRequest) :
    Program EnterDungeonResponse := do
  let session ← RedisSessionRepository.findById request.sessionId
  if session.map Session.playerId ≠ some request.playerId then
    return refuseEnter .sessionInvalid "session invalid"
  match InMemoryDungeonConfigRepository.findByDungeonId env request.dungeonId with
  | none => return refuseEnter .dungeonNotFound "dungeon config not found"
  | some config =>
    if !(← acquirePlayerLock env request.playerId) then
      return refuseEnter .playerBusy "player is busy"
    -- every exit below releases the lock as its last command
    let response ← enterLocked env config request
    releasePlayerLock request.playerId
    return response

/-- The battle a settlement is about: from Redis, else from MySQL. -/
def findBattle (battleId : String) : Program (Option BattleContext) := do
  match ← RedisBattleContextRepository.findByBattleId battleId with
  | some battleContext => return some battleContext
  | none => MySqlDungeonRepository.findBattleById battleId

/-- `SettleDungeon` between acquiring and releasing the player lock. -/
def settleLocked (config : DungeonConfig) (request : SettleDungeonRequest) :
    Program SettleDungeonResponse := do
  match ← findBattle request.battleId with
  | none => return refuseSettle .battleNotFound "battle not found"
  | some battleContext =>
    if battleContext.playerId ≠ request.playerId ∨
        battleContext.dungeonId ≠ request.dungeonId then
      return refuseSettle .battleMismatch "battle context mismatch"
    if battleContext.settled then
      return refuseSettle .battleAlreadySettled "battle already settled"
    let result ← MySqlDungeonRepository.settleDungeon battleContext config request.star
    if !result.success then
      return refuseSettle (settleErrorCode result.errorMessage) result.errorMessage
    let _ ← RedisBattleContextRepository.delete request.battleId
    let _ ← RedisPlayerCacheRepository.invalidate request.playerId
    return ⟨true, .ok, "", result.firstClear, result.rewards⟩

def settleDungeon (env : Env) (request : SettleDungeonRequest) :
    Program SettleDungeonResponse := do
  if !request.result then
    return refuseSettle .storageError "only success settlement is supported in demo"
  let session ← RedisSessionRepository.findById request.sessionId
  if session.map Session.playerId ≠ some request.playerId then
    return refuseSettle .sessionInvalid "session invalid"
  match InMemoryDungeonConfigRepository.findByDungeonId env request.dungeonId with
  | none => return refuseSettle .dungeonNotFound "dungeon config not found"
  | some config =>
    if request.star ≤ 0 ∨ request.star > config.maxStar then
      return refuseSettle .invalidStar "star is out of range"
    if !(← acquirePlayerLock env request.playerId) then
      return refuseSettle .playerBusy "player is busy"
    let response ← settleLocked config request
    releasePlayerLock request.playerId
    return response

end DungeonService

namespace SessionBindingAuthorizer

/-- `RestoreBindingFromSession`: the session and player a connection may be
bound to. -/
def restoreBindingFromSession (sessionId : String) (playerId : ℤ) :
    Program (Option (String × ℤ)) := do
  if sessionId = "" ∨ playerId = 0 then
    return none
  let session ← RedisSessionRepository.findById sessionId
  if session.map Session.playerId ≠ some playerId then
    return none
  return session.map fun s => (s.sessionId, s.playerId)

end SessionBindingAuthorizer

/-! ## Dispatch -/

/-- A request to one of the servers. -/
inductive Request where
  | login (request : LoginRequest)
  | loadPlayer (request : LoadPlayerRequest)
  | enterDungeon (request : EnterDungeonRequest)
  | settleDungeon (request : SettleDungeonRequest)
  /-- a gateway checks the session of a connection that is not bound yet -/
  | restoreBinding (sessionId : String) (playerId : ℤ)
  deriving DecidableEq, Repr

/-- Its response. -/
inductive Response where
  | login (response : LoginResponse)
  | loadPlayer (response : LoadPlayerResponse)
  | enterDungeon (response : EnterDungeonResponse)
  | settleDungeon (response : SettleDungeonResponse)
  | restoreBinding (binding : Option (String × ℤ))
  deriving DecidableEq, Repr

/-- Serve a request. -/
def serve (env : Env) : Request → Program Response
  | .login request => Response.login <$> LoginService.login env request
  | .loadPlayer request => Response.loadPlayer <$> PlayerService.loadPlayer env request
  | .enterDungeon request => Response.enterDungeon <$> DungeonService.enterDungeon env request
  | .settleDungeon request => Response.settleDungeon <$> DungeonService.settleDungeon env request
  | .restoreBinding sessionId playerId =>
    Response.restoreBinding <$>
      SessionBindingAuthorizer.restoreBindingFromSession sessionId playerId

end GameBackend
