import GameBackend.Protocol

/-!
# Footprints

Which commands a request may send, as far as it matters whose request it is: only a
dungeon request acquires a player lock, the one of the player it names; only a
`LoadPlayer` request looks up a snapshot, that of its player; only a login writes a key
of the login server, a session with the fields that its id tells; only logins and
`EnterDungeon` draw numbers, `EnterDungeon` for the dungeon that is configured.
`serve_sends` reads this off the service code; all other commands are `common`.
-/

namespace GameBackend

variable {env : Env}

/-- The player lock a request may acquire. -/
def Request.locks : Request → Option ℤ
  | .enterDungeon request => some request.playerId
  | .settleDungeon request => some request.playerId
  | _ => none

/-- The session and the player that a request names. -/
def Request.claims : Request → Option (String × ℤ)
  | .login _ => none
  | .loadPlayer request => some (request.sessionId, request.playerId)
  | .enterDungeon request => some (request.sessionId, request.playerId)
  | .settleDungeon request => some (request.sessionId, request.playerId)
  | .restoreBinding sessionId playerId => some (sessionId, playerId)

/-- The field is one that `Create` stores under this session id. -/
def SessionField (sessionId f v : String) : Prop :=
  ∃ session n, sessionId = session.sessionId ∧
    session.sessionId =
      RedisSessionRepository.sessionIdText session.accountId session.playerId n ∧
    (f, v) ∈ RedisSessionRepository.fields session

/-- The command leaves the keys of the login server alone. -/
def RedisCmd.sparesLogins (c : RedisCmd) : Bool := c.reads || !c.key.ofLogin

/-- The commands that every request may send. -/
def Cmd.common : Cmd → Bool
  | .redis (.setNx _ _ _) => false
  | .redis (.hset (.session _) _ _) => false
  | .redis (.hgetall (.playerSnapshot _)) => false
  | .redis c => c.sparesLogins
  | .fetchAddSequence => false
  | _ => true

/-- The command is one the request may send. -/
def Request.Sends (env : Env) (request : Request) : Cmd → Prop
  | .redis (.setNx k _ _) => ∃ p, k = .playerLock p ∧ request.locks = some p
  | .redis (.hset (.session sessionId) f v) =>
    (∃ r, request = .login r) ∧ SessionField sessionId f v
  | .redis (.hgetall (.playerSnapshot p)) => ∃ r, request = .loadPlayer r ∧ r.playerId = p
  | .redis c => (∃ r, request = .login r) ∨ c.sparesLogins = true
  | .fetchAddSequence => (∃ r, request = .login r) ∨
      ∃ r, request = .enterDungeon r ∧ r.dungeonId = env.dungeonConfig.dungeonId
  | _ => True

/-- A common command may be sent by every request. -/
theorem Request.sends_of_common {request : Request} {c : Cmd} (h : c.common = true) :
    request.Sends env c := by
  cases c with
  | redis c =>
    cases c with
    | setNx k v ttl => cases h
    | hset k f v => cases k <;> first | exact .inr h | cases h
    | hgetall k => cases k <;> first | exact .inr h | cases h
    | _ => exact .inr h
  | fetchAddSequence => cases h
  | _ => trivial

/-- Only logins write keys of the login server. -/
theorem Request.Sends.spares {request : Request} {c : RedisCmd}
    (h : request.Sends env (.redis c)) (hlogin : ∀ r, request ≠ .login r) :
    c.reads = true ∨ c.key.ofLogin = false := by
  have hspares : c.sparesLogins = true → c.reads = true ∨ c.key.ofLogin = false := by
    simp [RedisCmd.sparesLogins]
  cases c with
  | setNx k v ttl =>
    obtain ⟨p, rfl, -⟩ := h
    exact .inr rfl
  | hset k f v =>
    cases k with
    | session sessionId =>
      obtain ⟨⟨r, hr⟩, -⟩ := h
      exact absurd hr (hlogin r)
    | _ => exact h.elim (fun ⟨r, hr⟩ => absurd hr (hlogin r)) hspares
  | hgetall k => exact .inl rfl
  | _ => exact h.elim (fun ⟨r, hr⟩ => absurd hr (hlogin r)) hspares

/-- The routine sends common commands only. -/
abbrev Common {α : Type} (m : Program α) : Prop := m.Uses fun c => c.common = true

theorem Common.sends {α : Type} {m : Program α} {request : Request} (h : Common m) :
    m.Uses (request.Sends env) := h.mono fun _ hc => Request.sends_of_common hc

/-! ## Clients -/

section Clients

theorem common_query (q : Query) : Common (MySqlClient.query q) :=
  Prog.Uses.bind (.send rfl) fun r => by cases r <;> trivial

theorem common_queryOne (q : Query) : Common (MySqlClient.queryOne q) :=
  Prog.Uses.bind (common_query q) fun _ => trivial

theorem common_execute (w : SqlWrite) : Common (MySqlClient.execute w) := .send rfl

theorem common_get (k : RedisKey) : Common (RedisClient.get k) :=
  Prog.Uses.bind (.send rfl) fun r => by cases r <;> trivial

theorem uses_hSetFields {P : Cmd → Prop} {k : RedisKey} :
    ∀ {values : List (String × String)}, (∀ f v, (f, v) ∈ values → P (.redis (.hset k f v))) →
      (RedisClient.hSetFields k values).Uses P
  | [], _ => trivial
  | (f, v) :: rest, h => by
    refine Prog.Uses.bind (.send (h f v List.mem_cons_self)) fun r => ?_
    cases r with
    | false => trivial
    | true => exact uses_hSetFields fun f' v' hmem => h f' v' (List.mem_cons_of_mem _ hmem)

theorem uses_hSet {P : Cmd → Prop} {k : RedisKey} {values : List (String × String)} {ttl : ℤ}
    (hset : ∀ f v, (f, v) ∈ values → P (.redis (.hset k f v)))
    (hexpire : ∀ s, P (.redis (.expire k s))) : (RedisClient.hSet env k values ttl).Uses P := by
  refine Prog.Uses.bind (uses_hSetFields fun f v hmem =>
    hset f v ((env.fieldOrder_perm values).mem_iff.mp hmem)) fun r => ?_
  cases r with
  | false => trivial
  | true =>
    rw [if_pos rfl]
    split
    · exact .send (hexpire _)
    · trivial

theorem uses_hGetAll {P : Cmd → Prop} {k : RedisKey} (h : P (.redis (.hgetall k))) :
    (RedisClient.hGetAll k).Uses P := by
  refine Prog.Uses.bind (.send h) fun r => ?_
  rcases r with _ | _ | _ <;> trivial

end Clients

/-! ## Repositories -/

section Repositories

theorem common_findById (sessionId : String) :
    Common (RedisSessionRepository.findById sessionId) := by
  refine Prog.Uses.bind (uses_hGetAll rfl) fun r => ?_
  cases r with
  | none => trivial
  | some values => exact Prog.Uses.bind (.ofOption _) fun _ => trivial

theorem sends_findByPlayerId (request : LoadPlayerRequest) :
    (RedisPlayerCacheRepository.findByPlayerId request.playerId).Uses
      ((Request.loadPlayer request).Sends env) := by
  refine Prog.Uses.bind (uses_hGetAll ⟨request, rfl, rfl⟩) fun r => ?_
  cases r with
  | none => trivial
  | some values => exact Prog.Uses.bind (.ofOption _) fun _ => trivial

theorem common_findByBattleId (b : String) :
    Common (RedisBattleContextRepository.findByBattleId b) := by
  refine Prog.Uses.bind (uses_hGetAll rfl) fun r => ?_
  cases r with
  | none => trivial
  | some values => exact Prog.Uses.bind (.ofOption _) fun _ => trivial

theorem common_loadPlayerState (p : ℤ) : Common (MySqlPlayerRepository.loadPlayerState p) := by
  refine Prog.Uses.bind (common_queryOne _) fun r => ?_
  cases r with
  | none => trivial
  | some profile => exact Prog.Uses.bind (common_query _) fun _ => trivial

theorem common_finishTransaction (transaction : Except String Unit) :
    Common (MySqlDungeonRepository.finishTransaction transaction) := by
  cases transaction with
  | error message => exact Prog.Uses.bind (.send rfl) fun _ => trivial
  | ok _ =>
    refine Prog.Uses.bind (.send rfl) fun r => ?_
    cases r with
    | error message => exact Prog.Uses.bind (.send rfl) fun _ => trivial
    | ok _ => trivial

theorem common_enterStatements (profile : PlayerProfile) (config : DungeonConfig) (b : String) :
    Common (MySqlDungeonRepository.enterStatements profile config b) := by
  refine Prog.Uses.bind (common_queryOne _) fun pending => ?_
  split
  · trivial
  refine Prog.Uses.bind (common_execute _) fun r => ?_
  split
  · trivial
  refine Prog.Uses.bind (common_execute _) fun r => ?_
  split <;> trivial

theorem common_enterDungeon (playerState : PlayerState) (config : DungeonConfig) (b : String) :
    Common (MySqlDungeonRepository.enterDungeon playerState config b) := by
  refine Prog.Uses.bind (.send rfl) fun r => ?_
  split
  · trivial
  refine Prog.Uses.bind (common_enterStatements _ _ _) fun transaction => ?_
  refine Prog.Uses.bind (common_finishTransaction _) fun r => ?_
  split <;> trivial

theorem common_settleStatements (context : BattleContext) (config : DungeonConfig) (star : ℤ)
    (firstClear : Bool) :
    Common (MySqlDungeonRepository.settleStatements context config star firstClear) := by
  refine Prog.Uses.bind (common_execute _) fun r => ?_
  split
  · trivial
  refine Prog.Uses.bind (common_execute _) fun r => ?_
  split
  · trivial
  refine Prog.Uses.bind (common_execute _) fun r => ?_
  split
  · trivial
  refine Prog.Uses.bind (common_execute _) fun r => ?_
  split
  · trivial
  split
  · refine Prog.Uses.bind (common_execute _) fun r => ?_
    split <;> trivial
  · trivial

theorem common_settleDungeon (context : BattleContext) (config : DungeonConfig) (star : ℤ) :
    Common (MySqlDungeonRepository.settleDungeon context config star) := by
  refine Prog.Uses.bind (common_queryOne _) fun first => ?_
  refine Prog.Uses.bind (.send rfl) fun r => ?_
  split
  · trivial
  refine Prog.Uses.bind (common_settleStatements _ _ _ _) fun transaction => ?_
  refine Prog.Uses.bind (common_finishTransaction _) fun r => ?_
  split <;> trivial

theorem sends_acquire {request : Request} {p : ℤ} (h : request.locks = some p) :
    (RedisPlayerLockRepository.acquire env p).Uses (request.Sends env) :=
  Prog.Uses.bind (.send ⟨p, rfl, h⟩) fun _ => trivial

theorem sends_create {request : LoginRequest} (accountId playerId : ℤ) :
    (RedisSessionRepository.create env accountId playerId).Uses
      ((Request.login request).Sends env) := by
  refine Prog.Uses.bind (.send trivial) fun createdAt => ?_
  refine Prog.Uses.bind (.send (.inl ⟨_, rfl⟩)) fun sequence => ?_
  refine Prog.Uses.bind (common_get _).sends fun old => ?_
  have hstore : ((do
      let session : Session := ⟨RedisSessionRepository.sessionIdText accountId playerId sequence,
        accountId, playerId, createdAt⟩
      let _ ← RedisClient.hSet env (.session session.sessionId)
        (RedisSessionRepository.fields session) env.sessionTtl
      let _ ← RedisClient.set (.accountSession accountId) session.sessionId env.sessionTtl
      return session) : Program Session).Uses ((Request.login request).Sends env) :=
    Prog.Uses.bind (uses_hSet (fun f v hmem => ⟨⟨_, rfl⟩, _, _, rfl, rfl, hmem⟩)
      fun _ => .inl ⟨_, rfl⟩) fun _ => Prog.Uses.bind (.send (.inl ⟨_, rfl⟩)) fun _ => trivial
  cases old with
  | none => exact hstore
  | some old => exact Prog.Uses.bind (.send (.inl ⟨_, rfl⟩)) fun _ => hstore

end Repositories

/-! ## Services -/

section Services

theorem sends_login (request : LoginRequest) :
    (LoginService.login env request).Uses ((Request.login request).Sends env) := by
  refine Prog.Uses.bind (common_queryOne _).sends fun account => ?_
  split
  · trivial
  split
  · trivial
  split
  · trivial
  exact Prog.Uses.bind (sends_create _ _) fun _ => trivial

theorem sends_loadPlayer (request : LoadPlayerRequest) :
    (PlayerService.loadPlayer env request).Uses ((Request.loadPlayer request).Sends env) := by
  refine Prog.Uses.bind (common_findById _).sends fun session => ?_
  split
  · trivial
  refine Prog.Uses.bind (sends_findByPlayerId request) fun cached => ?_
  split
  · trivial
  refine Prog.Uses.bind (common_loadPlayerState _).sends fun playerState => ?_
  split
  · trivial
  exact Prog.Uses.bind (uses_hSet (fun _ _ _ => .inr rfl) fun _ => .inr rfl) fun _ => trivial

theorem sends_enterLocked (config : DungeonConfig) (request : EnterDungeonRequest)
    (hdungeon : request.dungeonId = env.dungeonConfig.dungeonId) :
    (DungeonService.enterLocked env config request).Uses
      ((Request.enterDungeon request).Sends env) := by
  refine Prog.Uses.bind (common_loadPlayerState _).sends fun playerState => ?_
  split
  · trivial
  split
  · trivial
  split
  · trivial
  have hnumber : (DungeonService.generateBattleId request.playerId request.dungeonId).Uses
      ((Request.enterDungeon request).Sends env) :=
    Prog.Uses.bind (.send (.inr ⟨_, rfl, hdungeon⟩)) fun _ => trivial
  refine Prog.Uses.bind hnumber fun battleId => ?_
  refine Prog.Uses.bind (common_enterDungeon _ _ _).sends fun result => ?_
  split
  · trivial
  refine Prog.Uses.bind (uses_hSet (fun _ _ _ => .inr rfl) fun _ => .inr rfl) fun _ => ?_
  exact Prog.Uses.bind (.send (.inr rfl)) fun _ => trivial

theorem sends_enterDungeon (request : EnterDungeonRequest) :
    (DungeonService.enterDungeon env request).Uses ((Request.enterDungeon request).Sends env) := by
  refine Prog.Uses.bind (common_findById _).sends fun session => ?_
  split
  · trivial
  split
  · trivial
  rename_i config hconfig
  have hdungeon : request.dungeonId = env.dungeonConfig.dungeonId := by
    rw [InMemoryDungeonConfigRepository.findByDungeonId] at hconfig
    split at hconfig
    · cases hconfig
    · rename_i heq
      exact not_not.mp heq
  refine Prog.Uses.bind (sends_acquire rfl) fun acquired => ?_
  split
  · trivial
  refine Prog.Uses.bind (sends_enterLocked _ _ hdungeon) fun response => ?_
  exact Prog.Uses.bind (Prog.Uses.bind (.send (.inr rfl)) fun _ => trivial) fun _ => trivial

theorem common_settleLocked (config : DungeonConfig) (request : SettleDungeonRequest) :
    Common (DungeonService.settleLocked config request) := by
  have hfind : Common (DungeonService.findBattle request.battleId) := by
    refine Prog.Uses.bind (common_findByBattleId _) fun context => ?_
    split
    · trivial
    · exact Prog.Uses.bind (common_queryOne _) fun _ => trivial
  refine Prog.Uses.bind hfind fun battleContext => ?_
  split
  · trivial
  split
  · trivial
  split
  · trivial
  refine Prog.Uses.bind (common_settleDungeon _ _ _) fun result => ?_
  split
  · trivial
  exact Prog.Uses.bind (.send rfl) fun _ => Prog.Uses.bind (.send rfl) fun _ => trivial

theorem sends_settleDungeon (request : SettleDungeonRequest) :
    (DungeonService.settleDungeon env request).Uses
      ((Request.settleDungeon request).Sends env) := by
  unfold DungeonService.settleDungeon
  split
  · trivial
  refine Prog.Uses.bind (common_findById _).sends fun session => ?_
  split
  · trivial
  split
  · trivial
  split
  · trivial
  refine Prog.Uses.bind (sends_acquire rfl) fun acquired => ?_
  split
  · trivial
  refine Prog.Uses.bind (common_settleLocked _ _).sends fun response => ?_
  exact Prog.Uses.bind (Prog.Uses.bind (.send (.inr rfl)) fun _ => trivial) fun _ => trivial

theorem common_restoreBinding (sessionId : String) (playerId : ℤ) :
    Common (SessionBindingAuthorizer.restoreBindingFromSession sessionId playerId) := by
  unfold SessionBindingAuthorizer.restoreBindingFromSession
  split
  · trivial
  refine Prog.Uses.bind (common_findById _) fun session => ?_
  split <;> trivial

/-- Every request only sends commands that are in its scope. -/
theorem serve_sends (env : Env) (request : Request) :
    (serve env request).Uses (request.Sends env) := by
  cases request with
  | login request => exact Prog.Uses.bind (sends_login request) fun _ => trivial
  | loadPlayer request => exact Prog.Uses.bind (sends_loadPlayer request) fun _ => trivial
  | enterDungeon request => exact Prog.Uses.bind (sends_enterDungeon request) fun _ => trivial
  | settleDungeon request => exact Prog.Uses.bind (sends_settleDungeon request) fun _ => trivial
  | restoreBinding sessionId playerId =>
    exact Prog.Uses.bind (common_restoreBinding sessionId playerId).sends fun _ => trivial

end Services

end GameBackend
