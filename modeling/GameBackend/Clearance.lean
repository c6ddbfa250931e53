import GameBackend.Revocation
import GameBackend.Scope

/-!
# The session check

Every request that names a session and a player looks the session up before anything
else, and goes on only if the session is one of this player (`serve_clears`). What a
session hash says about its player is what its id says, whoever wrote it and in
whatever order its fields were written (`SessionFor`). So a request that does anything
at all names a session id of the player it acts for.
-/

namespace GameBackend

variable {env : Env} {cfg : DungeonConfig}

/-! ## Clearance -/

/-- How far a request has got with its session check. -/
inductive Clearance where
  /-- the session was not looked up yet -/
  | unchecked
  /-- it is not one of the player -/
  | refused
  /-- it is; and the profile of the player that was read last -/
  | cleared (profile : Option PlayerProfile)

/-- What a request that names a session and a player may do, and what it shows. -/
inductive Clears : Option (String × ℤ) → Clearance → (c : Cmd) → c.Reply → Clearance → Prop where
  /-- a request that names no session -/
  | unnamed {φ : Clearance} {c : Cmd} {r : c.Reply} : Clears none φ c r φ
  | accept {sessionId : String} {p : ℤ} {values : List (String × String)} {session : Session}
      (decoded : RedisSessionRepository.decode sessionId values = some session)
      (player : session.playerId = p) :
      Clears (some (sessionId, p)) .unchecked (.redis (.hgetall (.session sessionId)))
        (some values) (.cleared none)
  | refuse {sessionId : String} {p : ℤ} {r : Option (List (String × String))} :
      Clears (some (sessionId, p)) .unchecked (.redis (.hgetall (.session sessionId))) r .refused
  | act {sessionId : String} {p : ℤ} {profile : Option PlayerProfile} {c : Cmd} {r : c.Reply} :
      Clears (some (sessionId, p)) (.cleared profile) c r (.cleared profile)
  | read {sessionId : String} {p : ℤ} {old : Option PlayerProfile} {profile : PlayerProfile}
      {rows : List PlayerProfile} :
      Clears (some (sessionId, p)) (.cleared old) (.sql (.select (.profile p)))
        (some (profile :: rows)) (.cleared (some profile))

/-- A session id of the player. -/
def SessionFor (p : ℤ) (sessionId : String) : Prop :=
  ∃ accountId n, sessionId = RedisSessionRepository.sessionIdText accountId p n

/-- A session id tells its player. -/
theorem SessionFor.unique {p q : ℤ} {sessionId : String} (hp : SessionFor p sessionId)
    (hq : SessionFor q sessionId) : p = q := by
  obtain ⟨a, n, rfl⟩ := hp
  obtain ⟨b, m, h⟩ := hq
  exact (RedisSessionRepository.sessionIdText_inj h).2.1

/-- What a reward row pays. -/
def RewardRow.reward (row : RewardRow) : Reward := ⟨row.rewardType, row.amount⟩

/-- What a response says about the clearance of its request. -/
def Certifies (cfg : DungeonConfig) : Request → Response → Clearance → Prop
  | .login _, .login response, _ => response.success = true →
      ∃ session, response.session = some session ∧ SessionFor session.playerId session.sessionId
  | .loadPlayer _, .loadPlayer response, φ => response.success = true →
      ∃ profile, φ = .cleared profile
  | .enterDungeon _, .enterDungeon response, φ => response.success = true →
      ∃ profile, φ = .cleared (some profile) ∧
        response.remainStamina = profile.stamina - cfg.costStamina
  | .settleDungeon request, .settleDungeon response, φ => response.success = true →
      (∃ profile, φ = .cleared profile) ∧
        response.rewards = (Settlement.rewardRows cfg ⟨request.battleId, request.playerId,
          request.dungeonId, request.star, response.firstClear⟩).map RewardRow.reward
  | .restoreBinding sessionId p, .restoreBinding binding, φ => ∀ b ∈ binding,
      b = (sessionId, p) ∧ ∃ profile, φ = .cleared profile
  | _, _, _ => False

/-- `Clearing claims Q m φ`: from clearance `φ` on the routine `m` goes through the
session check. -/
abbrev Clearing {α : Type} (claims : Option (String × ℤ)) (Q : α → Clearance → Prop)
    (m : Program α) (φ : Clearance) : Prop :=
  Follows Cmd.Plausible (Clears claims) (fun _ => True) Q m φ

section Services

variable {sessionId : String} {p : ℤ} {profile : Option PlayerProfile}

theorem sessionId_decode {values : List (String × String)} {session : Session}
    (h : RedisSessionRepository.decode sessionId values = some session) :
    session.sessionId = sessionId := by
  simp only [RedisSessionRepository.decode, Option.bind_eq_bind, Option.bind_eq_some_iff,
    Option.pure_def, Option.some.injEq] at h
  obtain ⟨_, _, _, _, _, _, _, _, _, _, _, _, rfl⟩ := h
  rfl

/-- What the session check found out. -/
def Checked (sessionId : String) (p : ℤ) (session : Option Session) (φ : Clearance) : Prop :=
  (session.map Session.playerId = some p ∧ (∀ s ∈ session, s.sessionId = sessionId) ∧
      φ = .cleared none) ∨
    (session.map Session.playerId ≠ some p ∧ φ = .refused)

/-- The session check. -/
theorem clears_findById : Clearing (some (sessionId, p)) (Checked sessionId p)
    (RedisSessionRepository.findById sessionId) .unchecked := by
  have hmiss : (none : Option Session).map Session.playerId ≠ some p := nofun
  rintro (_ | _ | ⟨field, rest⟩) -
  · exact ⟨_, .refuse, .inr ⟨hmiss, rfl⟩⟩
  · exact ⟨_, .refuse, .inr ⟨hmiss, rfl⟩⟩
  · rcases hdecode : RedisSessionRepository.decode sessionId (field :: rest) with _ | session
    · refine ⟨_, .refuse, ?_⟩
      change Clearing _ _ (orThrow (RedisSessionRepository.decode sessionId (field :: rest)) >>=
        fun session => Prog.ret (some session)) _
      rw [hdecode]
      trivial
    · have hfound : ∀ φ, Checked sessionId p (some session) φ →
          Clearing (some (sessionId, p)) (Checked sessionId p)
            (orThrow (RedisSessionRepository.decode sessionId (field :: rest)) >>=
              fun session => Prog.ret (some session)) φ := by
        rw [hdecode]
        exact fun _ h => h
      by_cases hp : session.playerId = p
      · refine ⟨_, .accept hdecode hp, hfound _ (.inl ⟨congrArg some hp, fun s hs => ?_, rfl⟩)⟩
        exact Option.some.inj hs ▸ sessionId_decode hdecode
      · exact ⟨_, .refuse, hfound _ (.inr ⟨fun h => hp (Option.some.inj h), rfl⟩)⟩

/-- Once the session is checked, everything is allowed. -/
theorem clears_rest {α : Type} {m : Program α} :
    Clearing (some (sessionId, p))
      (fun a φ => m.Returns Cmd.Plausible a ∧ φ = .cleared profile) m (.cleared profile) :=
  Follows.stays (fun _ _ => .act) trivial

/-- Reading the state of the player shows the profile. -/
theorem clears_loadPlayerState : Clearing (some (sessionId, p)) (fun state φ =>
      ∃ profile, φ = .cleared profile ∧ ∀ s ∈ state, profile = some s.profile)
    (MySqlPlayerRepository.loadPlayerState p) (.cleared profile) := by
  refine Follows.bind (P := fun found φ => ∃ profile, φ = .cleared profile ∧
    ∀ x ∈ found, profile = some x) ?_ ?_
  · rintro (_ | _ | ⟨x, rows⟩) -
    · exact ⟨_, .act, profile, rfl, nofun⟩
    · exact ⟨_, .act, profile, rfl, nofun⟩
    · exact ⟨_, .read, some x, rfl, fun y hy => by rw [Option.some.inj hy]⟩
  · rintro (_ | x) φ ⟨profile, rfl, hprofile⟩
    · exact ⟨profile, rfl, nofun⟩
    · refine clears_rest.mono ?_
      rintro state φ ⟨hreturns, rfl⟩
      simp only [Prog.returns_bind, Prog.returns_pure] at hreturns
      obtain ⟨rows, -, rfl⟩ := hreturns
      refine ⟨profile, rfl, fun s hs => ?_⟩
      rw [hprofile x rfl, ← Option.some.inj hs]

/-- The stamina that `EnterDungeon` reports is the one of the profile it was given. -/
theorem remainStamina_enterDungeon {playerState : PlayerState} {config : DungeonConfig}
    {battleId : String} {result : EnterDungeonResult}
    (h : (MySqlDungeonRepository.enterDungeon playerState config battleId).Returns
      Cmd.Plausible result) (hsuccess : result.success = true) :
    result.remainStamina = playerState.profile.stamina - config.costStamina := by
  rw [MySqlDungeonRepository.enterDungeon, Prog.returns_bind] at h
  obtain ⟨begun, -, h⟩ := h
  rcases begun with message | _
  · cases h
    cases hsuccess
  · simp only [Prog.returns_bind] at h
    obtain ⟨transaction, -, finished, -, h⟩ := h
    rcases finished with message | _
    · cases h
      cases hsuccess
    · cases h
      rfl

/-- The rewards that `SettleDungeon` reports. -/
theorem rewards_settleDungeon {context : BattleContext} {config : DungeonConfig} {star : ℤ}
    {result : SettleDungeonResult}
    (h : (MySqlDungeonRepository.settleDungeon context config star).Returns Cmd.Plausible result) :
    result.rewards = ⟨"gold", config.normalGoldReward⟩ ::
      (if result.firstClear then [⟨"diamond", config.firstClearDiamondReward⟩] else []) := by
  simp only [MySqlDungeonRepository.settleDungeon, Prog.returns_bind] at h
  obtain ⟨first, -, begun, -, h⟩ := h
  rcases begun with message | _
  · cases h
    rfl
  · simp only [Prog.returns_bind] at h
    obtain ⟨transaction, -, finished, -, h⟩ := h
    rcases finished with message | _
    · cases h
      rfl
    · cases h
      rfl

theorem clears_enterLocked {config : DungeonConfig} {request : EnterDungeonRequest} :
    Clearing (some (request.sessionId, request.playerId)) (fun response φ =>
        ∃ read, φ = .cleared read ∧ (response.success = true → ∃ profile, read = some profile ∧
          response.remainStamina = profile.stamina - config.costStamina))
      (DungeonService.enterLocked env config request) (.cleared none) := by
  refine Follows.bind clears_loadPlayerState ?_
  rintro (_ | playerState) φ ⟨read, rfl, hread⟩
  · exact ⟨read, rfl, nofun⟩
  · refine clears_rest.mono ?_
    rintro response φ ⟨h, rfl⟩
    refine ⟨read, rfl, fun hsuccess => ⟨playerState.profile, hread playerState rfl, ?_⟩⟩
    dsimp only at h
    split at h
    · cases h
      cases hsuccess
    split at h
    · cases h
      cases hsuccess
    simp only [Prog.returns_bind] at h
    obtain ⟨battleId, -, result, hresult, h⟩ := h
    split at h
    · cases h
      cases hsuccess
    rename_i hdone
    simp only [Prog.returns_bind] at h
    obtain ⟨_, -, _, -, h⟩ := h
    cases h
    exact remainStamina_enterDungeon hresult (by simpa using hdone)

/-- The rewards of a settlement are those of its reward rows. -/
theorem rewards_settleLocked {config : DungeonConfig} {request : SettleDungeonRequest}
    {response : SettleDungeonResponse}
    (h : (DungeonService.settleLocked config request).Returns Cmd.Plausible response)
    (hsuccess : response.success = true) :
    response.rewards = (Settlement.rewardRows config ⟨request.battleId, request.playerId,
      request.dungeonId, request.star, response.firstClear⟩).map RewardRow.reward := by
  rw [DungeonService.settleLocked, Prog.returns_bind] at h
  obtain ⟨found, -, h⟩ := h
  rcases found with _ | context
  · cases h
    cases hsuccess
  dsimp only at h
  split at h
  · cases h
    cases hsuccess
  split at h
  · cases h
    cases hsuccess
  rw [Prog.returns_bind] at h
  obtain ⟨result, hresult, h⟩ := h
  split at h
  · cases h
    cases hsuccess
  simp only [Prog.returns_bind] at h
  obtain ⟨_, -, _, -, h⟩ := h
  cases h
  rw [rewards_settleDungeon hresult, Settlement.rewardRows]
  cases result.firstClear <;> rfl

theorem enterDungeon_clears (request : EnterDungeonRequest) :
    Clearing (some (request.sessionId, request.playerId))
      (fun response => Certifies env.dungeonConfig (.enterDungeon request) (.enterDungeon response))
      (DungeonService.enterDungeon env request) .unchecked := by
  refine Follows.bind clears_findById ?_
  rintro session φ (⟨hp, -, rfl⟩ | ⟨hp, rfl⟩)
  · rw [if_neg (not_not.mpr hp)]
    split
    · exact nofun
    rename_i config hconfig
    obtain ⟨rfl, -⟩ := dungeonId_of_find hconfig
    refine Follows.bind clears_rest ?_
    rintro acquired φ ⟨-, rfl⟩
    split
    · exact nofun
    refine Follows.bind clears_enterLocked ?_
    rintro response φ ⟨read, rfl, hresponse⟩
    refine Follows.bind clears_rest ?_
    rintro _ φ ⟨-, rfl⟩ hsuccess
    obtain ⟨profile, rfl, hremain⟩ := hresponse hsuccess
    exact ⟨profile, rfl, hremain⟩
  · rw [if_pos hp]
    exact nofun

theorem settleDungeon_clears (request : SettleDungeonRequest) :
    Clearing (some (request.sessionId, request.playerId))
      (fun response =>
        Certifies env.dungeonConfig (.settleDungeon request) (.settleDungeon response))
      (DungeonService.settleDungeon env request) .unchecked := by
  rw [DungeonService.settleDungeon]
  split
  · exact fun h => absurd h Bool.false_ne_true
  refine Follows.bind clears_findById ?_
  rintro session φ (⟨hp, -, rfl⟩ | ⟨hp, rfl⟩)
  · rw [if_neg (not_not.mpr hp)]
    split
    · exact fun h => absurd h Bool.false_ne_true
    rename_i config hconfig
    obtain ⟨rfl, -⟩ := dungeonId_of_find hconfig
    split
    · exact fun h => absurd h Bool.false_ne_true
    refine Follows.bind clears_rest ?_
    rintro acquired φ ⟨-, rfl⟩
    split
    · exact fun h => absurd h Bool.false_ne_true
    refine Follows.bind clears_rest ?_
    rintro response φ ⟨hresponse, rfl⟩
    refine Follows.bind clears_rest ?_
    rintro _ φ ⟨-, rfl⟩ hsuccess
    exact ⟨⟨none, rfl⟩, rewards_settleLocked hresponse hsuccess⟩
  · rw [if_pos hp]
    exact fun h => absurd h Bool.false_ne_true

theorem loadPlayer_clears (request : LoadPlayerRequest) :
    Clearing (some (request.sessionId, request.playerId))
      (fun response => Certifies cfg (.loadPlayer request) (.loadPlayer response))
      (PlayerService.loadPlayer env request) .unchecked := by
  refine Follows.bind clears_findById ?_
  rintro session φ (⟨hp, -, rfl⟩ | ⟨hp, rfl⟩)
  · rw [if_neg (not_not.mpr hp)]
    refine clears_rest.mono ?_
    rintro response φ ⟨-, rfl⟩ -
    exact ⟨none, rfl⟩
  · rw [if_pos hp]
    exact nofun

theorem restoreBinding_clears (sessionId : String) (p : ℤ) :
    Clearing (some (sessionId, p))
      (fun binding => Certifies cfg (.restoreBinding sessionId p) (.restoreBinding binding))
      (SessionBindingAuthorizer.restoreBindingFromSession sessionId p) .unchecked := by
  rw [SessionBindingAuthorizer.restoreBindingFromSession]
  split
  · exact fun b hb => by cases hb
  refine Follows.bind clears_findById ?_
  rintro session φ (⟨hp, hid, rfl⟩ | ⟨hp, rfl⟩)
  · rw [if_neg (not_not.mpr hp)]
    intro b hb
    obtain ⟨s, rfl, rfl⟩ := Option.map_eq_some_iff.mp hb
    exact ⟨Prod.ext (hid s rfl) (Option.some.inj hp), none, rfl⟩
  · rw [if_pos hp]
    exact fun b hb => by cases hb

/-- A login tells a session id of the player. -/
theorem login_clears (request : LoginRequest) (φ : Clearance) :
    Clearing none (fun response => Certifies cfg (.login request) (.login response))
      (LoginService.login env request) φ := by
  have hstays : Clearing none (fun response φ' => (LoginService.login env request).Returns
      Cmd.Plausible response ∧ φ' = φ) (LoginService.login env request) φ :=
    Follows.stays (fun _ _ => .unnamed) trivial
  refine hstays.mono ?_
  rintro response φ ⟨h, -⟩ hsuccess
  rw [LoginService.login, Prog.returns_bind] at h
  obtain ⟨account, -, h⟩ := h
  rcases account with _ | account
  · cases h
    cases hsuccess
  dsimp only at h
  split at h
  · cases h
    cases hsuccess
  split at h
  · cases h
    cases hsuccess
  rw [Prog.returns_bind] at h
  obtain ⟨session, hcreated, h⟩ := h
  cases h
  refine ⟨session, rfl, ?_⟩
  simp only [RedisSessionRepository.create, Prog.returns_bind] at hcreated
  obtain ⟨createdAt, -, sequence, -, old, -, h⟩ := hcreated
  rcases old with _ | old
  · simp only [Prog.returns_bind] at h
    obtain ⟨_, -, _, -, rfl⟩ := h
    exact ⟨_, _, rfl⟩
  · simp only [Prog.returns_bind] at h
    obtain ⟨_, -, _, -, _, -, rfl⟩ := h
    exact ⟨_, _, rfl⟩

/-- Every request goes through the check of the session that it names. -/
theorem serve_clears (env : Env) (request : Request) :
    Clearing request.claims (Certifies env.dungeonConfig request) (serve env request)
      .unchecked := by
  cases request with
  | login request => exact Follows.bind (login_clears request _) fun _ _ h => h
  | loadPlayer request => exact Follows.bind (loadPlayer_clears request) fun _ _ h => h
  | enterDungeon request => exact Follows.bind (enterDungeon_clears request) fun _ _ h => h
  | settleDungeon request => exact Follows.bind (settleDungeon_clears request) fun _ _ h => h
  | restoreBinding sessionId playerId =>
    exact Follows.bind (restoreBinding_clears sessionId playerId) fun _ _ h => h

end Services

/-! ## What session hashes say -/

/-- The hash names the player that its session id names, if it names one. -/
def NamesPlayer (sessionId : String) (values : List (String × String)) : Prop :=
  ∀ v, fieldOf values "player_id" = some v → ∃ p, v = toString p ∧ SessionFor p sessionId

theorem NamesPlayer.nil (sessionId : String) : NamesPlayer sessionId [] := nofun

/-- Writing a field of a session with this id. -/
theorem NamesPlayer.setField {sessionId f v : String} {values : List (String × String)}
    (h : NamesPlayer sessionId values) (hfield : SessionField sessionId f v) :
    NamesPlayer sessionId (setField f v values) := by
  intro u hu
  rw [fieldOf, lookup_setField] at hu
  split at hu
  · rename_i hf
    obtain ⟨session, n, rfl, hid, hmem⟩ := hfield
    obtain rfl := Option.some.inj hu
    subst hf
    have hplayer : v = toString session.playerId := by
      simpa [RedisSessionRepository.fields] using hmem
    exact ⟨session.playerId, hplayer, _, _, hid⟩
  · exact h u hu

/-- A session that is decoded is one of the player its id names. -/
theorem NamesPlayer.decode {sessionId : String} {values : List (String × String)}
    {session : Session} (h : NamesPlayer sessionId values)
    (hdecode : RedisSessionRepository.decode sessionId values = some session) :
    SessionFor session.playerId sessionId := by
  simp only [RedisSessionRepository.decode, Option.bind_eq_bind, Option.bind_eq_some_iff,
    Option.pure_def, Option.some.injEq] at hdecode
  obtain ⟨_, _, _, _, v, hv, q, hq, _, _, _, _, rfl⟩ := hdecode
  obtain ⟨p, rfl, hp⟩ := h v hv
  rw [stoll_toString, Option.some.injEq] at hq
  exact hq ▸ hp

variable {ι : Type} [DecidableEq ι] {s s' : Store ι} {i : ι} {fault : Option String} {c : Cmd}
  {r : c.Reply} {request : Request}

/-- Every session in Redis names the player that its id names. -/
def Redis.NamesPlayers (d : Redis) : Prop :=
  ∀ sessionId e, d.live (.session sessionId) = some e → NamesPlayer sessionId e.fields

/-- Every command keeps the sessions true. -/
theorem Redis.NamesPlayers.performed (h : s.redis.NamesPlayers) (hsends : request.Sends env c)
    (hp : s.Performed i fault c r s') : s'.redis.NamesPlayers := by
  cases c with
  | redis d =>
    obtain ⟨message, -, -, rfl⟩ | ⟨-, -, rfl⟩ := hp.redis_cases
    · exact h
    intro sessionId e he
    rcases Redis.live_execute he with ⟨e', he', hvalue⟩ | ⟨v, hvalue⟩ |
      ⟨f, v, fields, rfl, hvalue, hbefore⟩
    · have hfields : e.fields = e'.fields := by rw [RedisEntry.fields, RedisEntry.fields, hvalue]
      exact hfields ▸ h sessionId e' he'
    · have hfields : e.fields = [] := by simp only [RedisEntry.fields, hvalue]
      exact hfields ▸ .nil sessionId
    · have hfields : e.fields = setField f v fields := by simp only [RedisEntry.fields, hvalue]
      rw [hfields]
      refine NamesPlayer.setField ?_ hsends.2
      rcases hbefore with rfl | ⟨expires, hlive⟩
      · exact .nil sessionId
      · exact h sessionId _ hlive
  | _ => rwa [hp.redis_eq (by intro d hd; cases hd)]

theorem Redis.NamesPlayers.tick {d : Redis} (h : d.NamesPlayers) (ms : ℕ) :
    (d.tick ms).NamesPlayers :=
  fun sessionId e he => h sessionId e (Redis.live_of_tick he)

theorem Redis.NamesPlayers.evict {d : Redis} (h : d.NamesPlayers) (k : RedisKey) :
    (d.put k none).NamesPlayers := by
  intro sessionId e he
  by_cases hk : RedisKey.session sessionId = k
  · subst hk
    exact absurd (Redis.entries_of_live he) (by simp)
  · exact h sessionId e (by rwa [Redis.live_put_ne hk] at he)

/-! ## Along runs -/

variable {w w' w₀ : World ι} {l : Label ι} {ok : World ι → Label ι → Prop}

/-- The sessions in Redis, and those that running requests have looked up, name the
players that their ids name. -/
structure Told (w : World ι) : Prop where
  redis : w.store.redis.NamesPlayers
  trails : ∀ i task sessionId values, w.tasks i = some task →
    (⟨.redis (.hgetall (.session sessionId)), some values⟩ : Exchange) ∈ task.trail →
    NamesPlayer sessionId values

/-- The requests only send what is in their footprint. -/
theorem World.Run.sends (hrest : ∀ i, w₀.tasks i = none) (h : World.Run env ok w₀ w) {i : ι}
    {task : Task} (hi : w.tasks i = some task) :
    (∀ x ∈ task.trail, task.request.Sends env x.1) ∧ task.rest.Uses (task.request.Sends env) := by
  refine World.Run.each (T := fun task => (∀ x ∈ task.trail, task.request.Sends env x.1) ∧
    task.rest.Uses (task.request.Sends env)) (fun _ request => ⟨nofun, serve_sends env request⟩) ?_
    hrest h i task hi
  rintro id request trail c k r - ⟨htrail, hc, hk⟩
  exact ⟨List.forall_mem_cons.mpr ⟨hc, htrail⟩, hk r⟩

/-- The fields `HGETALL` returns are those of a hash that is present, if there are any. -/
theorem Redis.NamesPlayers.hgetall (h : s.redis.NamesPlayers) {sessionId : String}
    {values : List (String × String)}
    (hp : s.Performed i fault (.redis (.hgetall (.session sessionId))) (some values) s') :
    NamesPlayer sessionId values := by
  by_cases hne : values = []
  · exact hne ▸ .nil sessionId
  · obtain ⟨e, hlive, hvalue⟩ := hp.hgetall_values hne
    have hfields : e.fields = values := by simp only [RedisEntry.fields, hvalue]
    exact hfields ▸ h sessionId e hlive

theorem Told.step (h : Told w) (hsends : ∀ i task, w.tasks i = some task →
    task.rest.Uses (task.request.Sends env)) (hs : w.step env l = some w') : Told w' := by
  have hidle : ∀ {store : Store ι} {history : List Event} {i : ι}, store.redis.NamesPlayers →
      Told ⟨store, Function.update w.tasks i none, history⟩ := by
    refine fun hredis => ⟨hredis, fun j task sessionId values hj hmem => ?_⟩
    rcases some_of_update hj with ⟨-, hj⟩ | ⟨-, hj⟩
    · cases hj
    · exact h.trails j task sessionId values hj hmem
  cases does_of_step hs with
  | start idle =>
    refine ⟨h.redis, fun j task sessionId values hj hmem => ?_⟩
    rcases some_of_update hj with ⟨-, hj⟩ | ⟨-, hj⟩
    · obtain rfl := Option.some.inj hj
      cases hmem
    · exact h.trails j task sessionId values hj hmem
  | exec task performed =>
    have hp := Store.performed_of_perform performed
    refine ⟨h.redis.performed (hsends _ _ task).1 hp, fun j task' sessionId values hj hmem => ?_⟩
    rcases some_of_update hj with ⟨-, hj⟩ | ⟨-, hj⟩
    · obtain rfl := Option.some.inj hj
      rcases List.mem_cons.mp hmem with heq | hmem
      · cases heq
        exact h.redis.hgetall hp
      · exact h.trails _ _ sessionId values task hmem
    · exact h.trails j task' sessionId values hj hmem
  | finish task => exact hidle h.redis
  | stop running => exact hidle h.redis
  | restart idle => exact hidle h.redis
  | tick => exact ⟨h.redis.tick _, h.trails⟩
  | evict => exact ⟨h.redis.evict _, h.trails⟩

theorem World.Run.told (hrest : ∀ i, w₀.tasks i = none)
    (hsessions : ∀ sessionId, w₀.store.redis.live (.session sessionId) = none)
    (h : World.Run env ok w₀ w) : Told w := by
  refine h.invariant ⟨fun sessionId e he => ?_, fun i task _ _ hi => ?_⟩ fun _ _ _ hr hI _ hs =>
    hI.step (fun i task hi => (World.Run.sends hrest hr hi).2) hs
  · rw [hsessions sessionId] at he
    cases he
  · rw [hrest i] at hi
    cases hi

/-- A request that is cleared has shown a session of its player. -/
theorem accepted_of_path {sessionId : String} {p : ℤ} {trail : List Exchange} {φ : Clearance}
    {profile : Option PlayerProfile}
    (h : Path (Clears (some (sessionId, p))) .unchecked trail φ) (hφ : φ = .cleared profile) :
    ∃ values session,
      (⟨.redis (.hgetall (.session sessionId)), some values⟩ : Exchange) ∈ trail ∧
      RedisSessionRepository.decode sessionId values = some session ∧ session.playerId = p := by
  induction h generalizing profile with
  | nil => cases hφ
  | cons path advance ih =>
    cases advance with
    | accept decoded player => exact ⟨_, _, List.mem_cons_self, decoded, player⟩
    | refuse => cases hφ
    | act | read =>
      obtain ⟨values, session, hmem, hfound⟩ := ih rfl
      exact ⟨values, session, List.mem_cons_of_mem _ hmem, hfound⟩

/-- **The session check.** In every run, a running request goes through the check of the
session it names, and once it is cleared this is a session id of its player. -/
theorem World.Run.clears (hrest : ∀ i, w₀.tasks i = none)
    (hsessions : ∀ sessionId, w₀.store.redis.live (.session sessionId) = none)
    (h : World.Run env ok w₀ w) {i : ι} {task : Task} (hi : w.tasks i = some task) :
    ∃ φ, Path (Clears task.request.claims) .unchecked task.trail φ ∧
      Clearing task.request.claims (Certifies env.dungeonConfig task.request) task.rest φ ∧
      ∀ sessionId p profile, task.request.claims = some (sessionId, p) → φ = .cleared profile →
        SessionFor p sessionId := by
  obtain ⟨φ, hpath, hclears⟩ := World.Run.each (T := fun task => ∃ φ,
    Path (Clears task.request.claims) .unchecked task.trail φ ∧
      Clearing task.request.claims (Certifies env.dungeonConfig task.request) task.rest φ)
    (fun _ request => ⟨.unchecked, .nil, serve_clears env request⟩) (by
      rintro id request trail c k r hr ⟨φ, hpath, hrest⟩
      obtain ⟨φ', hadv, hk⟩ := hrest r hr
      exact ⟨φ', .cons hpath hadv, hk⟩) hrest h i task hi
  refine ⟨φ, hpath, hclears, fun sessionId p profile hclaims hφ => ?_⟩
  rw [hclaims] at hpath
  obtain ⟨values, session, hmem, hdecode, hp⟩ := accepted_of_path hpath hφ
  have hnames := (World.Run.told hrest hsessions h).trails i task sessionId values hi hmem
  exact hp ▸ hnames.decode hdecode

end GameBackend
