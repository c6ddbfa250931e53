import GameBackend.Clients
import Mathlib.Data.List.Sort

/-!
# Repositories

The classes between the services and the two stores, method by method. A hash is
read back by `decode` functions; `none` there is the exception that
`values->at(..)` or `std::stoll` throws, which no caller catches.
-/

namespace GameBackend

/-! ## Sessions -/

namespace RedisSessionRepository

/-- `sess-<account>-<player>-<sequence>` -/
def sessionIdText (accountId playerId : ℤ) (sequence : UInt64) : String :=
  "sess-" ++ toString accountId ++ "-" ++ toString playerId ++ "-" ++ toString sequence.toNat

/-- A session id tells the account, the player and the number. -/
theorem sessionIdText_inj {a b p q : ℤ} {m n : UInt64}
    (h : sessionIdText a p m = sessionIdText b q n) : a = b ∧ p = q ∧ m = n := by
  obtain ⟨ha, hp, hn⟩ := idText_inj h
  exact ⟨ha, hp, UInt64.toNat_inj.mp hn⟩

/-- The fields `Create` stores. -/
def fields (session : Session) : List (String × String) :=
  [("account_id", toString session.accountId),
   ("player_id", toString session.playerId),
   ("created_at_epoch_seconds", toString session.createdAtEpochSeconds)]

/-- The fields `FindById` reads. -/
def decode (sessionId : String) (values : List (String × String)) : Option Session := do
  let accountId ← stoll (← fieldOf values "account_id")
  let playerId ← stoll (← fieldOf values "player_id")
  let createdAt ← stoll (← fieldOf values "created_at_epoch_seconds")
  return ⟨sessionId, accountId, playerId, createdAt⟩

/-- A hash within the fields of a session decodes to this session or not at all. -/
theorem decode_of_subHash {session found : Session} {values : List (String × String)}
    (h : SubHash values (fields session)) (hdecode : decode session.sessionId values = some found) :
    found = session := by
  simp only [decode, Option.bind_eq_bind, Option.bind_eq_some_iff, Option.pure_def,
    Option.some.injEq] at hdecode
  obtain ⟨_, h₁, _, h₁', _, h₂, _, h₂', _, h₃, _, h₃', rfl⟩ := hdecode
  obtain rfl := Option.some.inj (h _ _ h₁)
  obtain rfl := Option.some.inj (h _ _ h₂)
  obtain rfl := Option.some.inj (h _ _ h₃)
  rw [stoll_toString, Option.some.injEq] at h₁' h₂' h₃'
  subst h₁' h₂' h₃'
  rfl

def create (env : Env) (accountId playerId : ℤ) : Program Session := do
  let createdAt ← epochSeconds
  let sequence ← fetchAddSequence
  let session : Session :=
    ⟨sessionIdText accountId playerId sequence, accountId, playerId, createdAt⟩
  if let some oldSession ← RedisClient.get (.accountSession accountId) then
    let _ ← RedisClient.del (.session oldSession)
  let _ ← RedisClient.hSet env (.session session.sessionId) (fields session) env.sessionTtl
  let _ ← RedisClient.set (.accountSession accountId) session.sessionId env.sessionTtl
  return session

def findById (sessionId : String) : Program (Option Session) := do
  match ← RedisClient.hGetAll (.session sessionId) with
  | none => return none
  | some values => return some (← orThrow (decode sessionId values))

end RedisSessionRepository

/-! ## Accounts -/

namespace MySqlAccountRepository

def findByName (accountName : String) : Program (Option Account) :=
  MySqlClient.queryOne (.account accountName)

end MySqlAccountRepository

/-! ## Players -/

namespace MySqlPlayerRepository

/-- A `player_dungeon` row as the profile shows it. -/
def progressOf (r : ProgressRow) : PlayerDungeonProgress :=
  ⟨r.dungeonId, r.bestStar, r.isFirstClear = 1⟩

/-- `std::sort` by dungeon. -/
def sortProgress (rows : List PlayerDungeonProgress) : List PlayerDungeonProgress :=
  rows.insertionSort fun left right => left.dungeonId ≤ right.dungeonId

def loadPlayerState (playerId : ℤ) : Program (Option PlayerState) := do
  match ← MySqlClient.queryOne (.profile playerId) with
  | none => return none
  | some profile =>
    let progressRows ← MySqlClient.query (.progress playerId)
    return some ⟨profile, sortProgress (progressRows.map progressOf)⟩

end MySqlPlayerRepository

namespace RedisPlayerCacheRepository

/-- `Split`: the non-empty parts between separators. -/
def split (input : String) (separator : Char) : List String :=
  ((input.toList.splitOn separator).filter fun part => !part.isEmpty).map String.ofList

/-- One entry of the serialized progress. -/
def progressToken (p : PlayerDungeonProgress) : String :=
  toString p.dungeonId ++ ":" ++ toString p.bestStar ++ ":" ++ (if p.isFirstClear then "1" else "0")

def serializeProgress (playerState : PlayerState) : String :=
  String.intercalate ";" (playerState.dungeonProgress.map progressToken)

/-- The loop of `ParseProgress`: tokens without three parts are skipped. -/
def parseTokens : List String → Option (List PlayerDungeonProgress)
  | [] => some []
  | token :: rest =>
    match split token ':' with
    | [d, b, c] => do
      let dungeonId ← stoll d
      let bestStar ← stoll b
      let tail ← parseTokens rest
      return ⟨dungeonId, bestStar, c = "1"⟩ :: tail
    | _ => parseTokens rest

def parseProgress (rawValue : String) : Option (List PlayerDungeonProgress) :=
  parseTokens (split rawValue ';')

/-- The fields `Save` stores. -/
def fields (playerState : PlayerState) : List (String × String) :=
  [("player_id", toString playerState.profile.playerId),
   ("account_id", toString playerState.profile.accountId),
   ("player_name", playerState.profile.playerName),
   ("level", toString playerState.profile.level),
   ("stamina", toString playerState.profile.stamina),
   ("gold", toString playerState.profile.gold),
   ("diamond", toString playerState.profile.diamond),
   ("dungeon_progress", serializeProgress playerState)]

/-- The fields `FindByPlayerId` reads. -/
def decode (values : List (String × String)) : Option PlayerState := do
  let playerId ← stoll (← fieldOf values "player_id")
  let accountId ← stoll (← fieldOf values "account_id")
  let playerName ← fieldOf values "player_name"
  let level ← stoll (← fieldOf values "level")
  let stamina ← stoll (← fieldOf values "stamina")
  let gold ← stoll (← fieldOf values "gold")
  let diamond ← stoll (← fieldOf values "diamond")
  let dungeonProgress ← parseProgress (← fieldOf values "dungeon_progress")
  return ⟨⟨playerId, accountId, playerName, level, stamina, gold, diamond⟩, dungeonProgress⟩

def save (env : Env) (playerState : PlayerState) : Program Bool :=
  RedisClient.hSet env (.playerSnapshot playerState.profile.playerId) (fields playerState)
    env.snapshotTtl

def findByPlayerId (playerId : ℤ) : Program (Option PlayerState) := do
  match ← RedisClient.hGetAll (.playerSnapshot playerId) with
  | none => return none
  | some values => return some (← orThrow (decode values))

def invalidate (playerId : ℤ) : Program Bool := RedisClient.del (.playerSnapshot playerId)

end RedisPlayerCacheRepository

/-! ## Dungeons -/

namespace InMemoryDungeonConfigRepository

def findByDungeonId (env : Env) (dungeonId : ℤ) : Option DungeonConfig :=
  if dungeonId ≠ env.dungeonConfig.dungeonId then none else some env.dungeonConfig

end InMemoryDungeonConfigRepository

namespace RedisPlayerLockRepository

/-- The constructor's default for a lifetime that is not positive. -/
def ttlSeconds (env : Env) : ℤ := if 0 < env.playerLockTtl then env.playerLockTtl else 10

def acquire (env : Env) (playerId : ℤ) : Program Bool := do
  return (← RedisClient.setNxWithExpire (.playerLock playerId) "1" (ttlSeconds env)) = some true

def release (playerId : ℤ) : Program Unit := do
  let _ ← RedisClient.del (.playerLock playerId)

end RedisPlayerLockRepository

namespace RedisBattleContextRepository

/-- The fields `Save` stores. -/
def fields (battleContext : BattleContext) : List (String × String) :=
  [("player_id", toString battleContext.playerId),
   ("dungeon_id", toString battleContext.dungeonId),
   ("cost_stamina", toString battleContext.costStamina),
   ("max_star", toString battleContext.maxStar),
   ("settled", if battleContext.settled then "1" else "0")]

/-- The fields `FindByBattleId` reads. -/
def decode (battleId : String) (values : List (String × String)) : Option BattleContext := do
  let playerId ← stoll (← fieldOf values "player_id")
  let dungeonId ← stoll (← fieldOf values "dungeon_id")
  let costStamina ← stoll (← fieldOf values "cost_stamina")
  let maxStar ← stoll (← fieldOf values "max_star")
  let settled ← fieldOf values "settled"
  return ⟨battleId, playerId, dungeonId, costStamina, maxStar, settled = "1"⟩

theorem fields_nodup (battleContext : BattleContext) :
    ((fields battleContext).map Prod.fst).Nodup := by
  simp [fields]

/-- A hash within the fields of a context decodes to this context or not at
all. -/
theorem decode_of_subHash {battleContext context : BattleContext}
    {values : List (String × String)} (h : SubHash values (fields battleContext))
    (hdecode : decode battleContext.battleId values = some context) :
    context = battleContext := by
  simp only [decode, Option.bind_eq_bind, Option.bind_eq_some_iff, Option.pure_def,
    Option.some.injEq] at hdecode
  obtain ⟨_, h₁, _, h₁', _, h₂, _, h₂', _, h₃, _, h₃', _, h₄, _, h₄', _, h₅, rfl⟩ := hdecode
  obtain rfl := Option.some.inj (h _ _ h₁)
  obtain rfl := Option.some.inj (h _ _ h₂)
  obtain rfl := Option.some.inj (h _ _ h₃)
  obtain rfl := Option.some.inj (h _ _ h₄)
  obtain rfl := Option.some.inj (h _ _ h₅)
  rw [stoll_toString, Option.some.injEq] at h₁' h₂' h₃' h₄'
  subst h₁' h₂' h₃' h₄'
  cases hs : battleContext.settled <;> simp [← hs]

theorem battleId_decode {battleId : String} {values : List (String × String)}
    {context : BattleContext} (h : decode battleId values = some context) :
    context.battleId = battleId := by
  simp only [decode, Option.bind_eq_bind, Option.bind_eq_some_iff, Option.pure_def,
    Option.some.injEq] at h
  obtain ⟨_, _, _, _, _, _, _, _, _, _, _, _, _, _, _, _, _, _, rfl⟩ := h
  rfl

def save (env : Env) (battleContext : BattleContext) : Program Bool :=
  RedisClient.hSet env (.battleCtx battleContext.battleId) (fields battleContext)
    env.battleContextTtl

def findByBattleId (battleId : String) : Program (Option BattleContext) := do
  match ← RedisClient.hGetAll (.battleCtx battleId) with
  | none => return none
  | some values => return some (← orThrow (decode battleId values))

def delete (battleId : String) : Program Bool := RedisClient.del (.battleCtx battleId)

end RedisBattleContextRepository

namespace MySqlDungeonRepository

/-- A `dungeon_battle` row as `FindBattleById` returns it. -/
def contextOf (row : BattleRow) : BattleContext :=
  { battleId := row.battleId
    playerId := row.playerId
    dungeonId := row.dungeonId
    costStamina := row.costStamina
    settled := row.status = 1 }

def findBattleById (battleId : String) : Program (Option BattleContext) := do
  return (← MySqlClient.queryOne (.battle battleId)).map contextOf

/-- `!Execute(..) || affected_rows != 1`: the message when it holds.
`affected_rows` keeps its initial 0 when `Execute` fails. -/
def affectedOne (none' : String) : Except String ℕ → Except String Unit
  | .error _ => .error none'
  | .ok 0 => .error none'
  | .ok 1 => .ok ()
  | .ok _ => .error ""

/-- Commit when the statements went through, else roll back; the error message
of the failure, if any. -/
def finishTransaction (transaction : Except String Unit) : Program (Except String Unit) := do
  match transaction with
  | .error message =>
    let _ ← MySqlClient.rollback
    return .error message
  | .ok () =>
    match ← MySqlClient.commit with
    | .error message =>
      let _ ← MySqlClient.rollback
      return .error message
    | .ok () => return .ok ()

/-- The body of `EnterDungeon`'s transaction; an error is a `break` with that
message. -/
def enterStatements (profile : PlayerProfile) (config : DungeonConfig) (battleId : String) :
    Program (Except String Unit) := do
  if (← MySqlClient.queryOne (.pendingBattle profile.playerId)).isSome then
    return .error "unfinished battle exists"
  match affectedOne "stamina not enough"
      (← MySqlClient.execute (.updateAssetStamina profile.playerId config.costStamina)) with
  | .error message => return .error message
  | .ok () =>
    match ← MySqlClient.execute (.insertBattle
        ⟨battleId, profile.playerId, config.dungeonId, 0, config.costStamina⟩) with
    | .error message => return .error message
    | .ok _ => return .ok ()

def enterDungeon (playerState : PlayerState) (config : DungeonConfig) (battleId : String) :
    Program EnterDungeonResult := do
  let battleContext : BattleContext :=
    { battleId := battleId
      playerId := playerState.profile.playerId
      dungeonId := config.dungeonId
      costStamina := config.costStamina
      maxStar := config.maxStar }
  match ← MySqlClient.beginTransaction with
  | .error message => return { errorMessage := message, battleContext := battleContext }
  | .ok () =>
    let transaction ← enterStatements playerState.profile config battleId
    match ← finishTransaction transaction with
    | .error message => return { errorMessage := message, battleContext := battleContext }
    | .ok () =>
      return {
        success := true
        remainStamina := playerState.profile.stamina - config.costStamina
        battleContext := battleContext }

/-- The body of `SettleDungeon`'s transaction; an error is a `break` with that
message. -/
def settleStatements (context : BattleContext) (config : DungeonConfig) (star : ℤ)
    (firstClear : Bool) : Program (Except String Unit) := do
  match affectedOne "battle already settled"
      (← MySqlClient.execute (.updateBattle context.battleId)) with
  | .error message => return .error message
  | .ok () =>
  match ← MySqlClient.execute (.updateAssetReward context.playerId config.normalGoldReward
      (if firstClear then some config.firstClearDiamondReward else none)) with
  | .error message => return .error message
  | .ok _ =>
  match ← MySqlClient.execute
      (.upsertProgress context.playerId config.dungeonId star firstClear) with
  | .error message => return .error message
  | .ok _ =>
  match ← MySqlClient.execute (.insertRewardLog
      ⟨context.playerId, context.battleId, "gold", config.normalGoldReward⟩) with
  | .error message => return .error message
  | .ok _ =>
  if firstClear then
    match ← MySqlClient.execute (.insertRewardLog
        ⟨context.playerId, context.battleId, "diamond", config.firstClearDiamondReward⟩) with
    | .error message => return .error message
    | .ok _ => return .ok ()
  else return .ok ()

def settleDungeon (context : BattleContext) (config : DungeonConfig) (star : ℤ) :
    Program SettleDungeonResult := do
  let firstClear :=
    (← MySqlClient.queryOne (.firstClear context.playerId config.dungeonId)).isNone
  let rewards : List Reward :=
    ⟨"gold", config.normalGoldReward⟩ ::
      (if firstClear then [⟨"diamond", config.firstClearDiamondReward⟩] else [])
  match ← MySqlClient.beginTransaction with
  | .error message =>
    return { firstClear := firstClear, errorMessage := message, rewards := rewards }
  | .ok () =>
    let transaction ← settleStatements context config star firstClear
    match ← finishTransaction transaction with
    | .error message =>
      return { firstClear := firstClear, errorMessage := message, rewards := rewards }
    | .ok () => return { success := true, firstClear := firstClear, rewards := rewards }

end MySqlDungeonRepository

end GameBackend
