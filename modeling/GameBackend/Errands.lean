import GameBackend.Clearance
import GameBackend.Ownership

/-!
# The errand of a request

What a request that takes the player lock does inside of it, apart from the order of its
commands, which is the matter of `Advance`: it reads the profile of its player, begins a
transaction only if this profile affords what it asks for, writes nothing but the deed it asks
for, and answers what it has read.

`serve_goes` proves this of the services. The profile can be read off the trail of a request
(`shownProfile`), and so can the deed once it is written (`Request.asks_of_plan`).
-/

namespace GameBackend

/-! ## A rule for programs -/

/-- In a phase that allows the commands it uses a program stays until it returns. -/
theorem Follows.stays_of_uses {C Φ : Type} {R : C → Type} {α : Type} {P : C → Prop}
    {Ok : (c : C) → R c → Prop} {Adv : Φ → (c : C) → R c → Φ → Prop} {E : Φ → Prop} {φ : Φ}
    (hstay : ∀ c r, P c → Adv φ c r φ) (hE : E φ) :
    ∀ {m : Prog C R α}, m.Uses P → Follows Ok Adv E (fun a φ' => m.Returns Ok a ∧ φ' = φ) m φ
  | .ret _, _ => ⟨rfl, rfl⟩
  | .throw, _ => hE
  | .call c _, h => fun r hr => ⟨φ, hstay c r h.1,
      (Follows.stays_of_uses hstay hE (h.2 r)).mono fun _ _ ⟨ha, hφ⟩ => ⟨⟨r, hr, ha⟩, hφ⟩⟩

variable {env : Env} {cfg : DungeonConfig} {request : Request}

/-! ## What requests ask for -/

/-- A deed that the request asks for. -/
inductive Request.Asks (cfg : DungeonConfig) : Request → Deed → Prop where
  | enter {request : EnterDungeonRequest} {battleId : String}
      (dungeon : request.dungeonId = cfg.dungeonId) :
      Asks cfg (.enterDungeon request)
        (.enter ⟨battleId, request.playerId, request.dungeonId, 0, cfg.costStamina⟩)
  | settle {request : SettleDungeonRequest} {firstClear : Bool} (result : request.result = true)
      (dungeon : request.dungeonId = cfg.dungeonId)
      (star : 0 < request.star ∧ request.star ≤ cfg.maxStar) :
      Asks cfg (.settleDungeon request) (.settle
        ⟨request.battleId, request.playerId, request.dungeonId, request.star, firstClear⟩)

/-- A statement of such a deed. -/
def Request.Writes (cfg : DungeonConfig) (request : Request) (w : SqlWrite) : Prop :=
  ∃ deed, request.Asks cfg deed ∧ w ∈ deed.plan cfg

/-- The profile that was read lets the request go on. -/
def Request.Affords (cfg : DungeonConfig) : Request → Option PlayerProfile → Prop
  | .enterDungeon _, read => ∃ profile, read = some profile ∧
      cfg.requiredLevel ≤ profile.level ∧ cfg.costStamina ≤ profile.stamina
  | _, _ => True

/-- Only a request that takes the player lock asks for a deed. -/
theorem Request.Asks.locks {deed : Deed} (h : request.Asks cfg deed) : request.locks ≠ none := by
  cases h with
  | enter => exact Option.some_ne_none _
  | settle => exact Option.some_ne_none _

section Plans

variable {deed : Deed} {row : BattleRow} {s : Settlement}

/-- A battle row is only inserted to enter it. -/
theorem Deed.eq_of_insertBattle (h : .insertBattle row ∈ deed.plan cfg) : deed = .enter row := by
  cases deed with
  | enter row' =>
    have heq : row = row' := by simpa [Deed.plan] using h
    rw [heq]
  | settle s => simp [Deed.plan] at h

/-- A battle is only finished by its settlement. -/
theorem Deed.settle_of_updateBattle {b : String} (h : .updateBattle b ∈ deed.plan cfg) :
    ∃ s, deed = .settle s ∧ s.battleId = b := by
  cases deed with
  | enter row => simp [Deed.plan] at h
  | settle s =>
    have heq : b = s.battleId := by simpa [Deed.plan] using h
    exact ⟨s, rfl, heq.symm⟩

/-- The progress is only written by a settlement, which says all but its battle. -/
theorem Deed.settle_of_upsertProgress {p d star : ℤ} {first : Bool}
    (h : .upsertProgress p d star first ∈ deed.plan cfg) :
    ∃ b, deed = .settle ⟨b, p, d, star, first⟩ := by
  cases deed with
  | enter row => simp [Deed.plan] at h
  | settle s =>
    obtain ⟨rfl, rfl, rfl, rfl⟩ :
        p = s.playerId ∧ d = s.dungeonId ∧ star = s.star ∧ first = s.firstClear := by
      simpa [Deed.plan] using h
    exact ⟨s.battleId, rfl⟩

/-- A request asks for the settlement of one battle. -/
theorem Request.Asks.battleId {s s' : Settlement} (h : request.Asks cfg (.settle s))
    (h' : request.Asks cfg (.settle s')) : s.battleId = s'.battleId := by
  cases h
  cases h'
  rfl

/-- Who writes a whole plan asks for its deed. -/
theorem Request.asks_of_plan (h : ∀ w ∈ deed.plan cfg, request.Writes cfg w) :
    request.Asks cfg deed := by
  cases deed with
  | enter row =>
    obtain ⟨deed, hasks, hmem⟩ := h (.insertBattle row) (by simp [Deed.plan])
    exact Deed.eq_of_insertBattle hmem ▸ hasks
  | settle s =>
    obtain ⟨deed, hasks, hmem⟩ := h (.updateBattle s.battleId) (by simp [Deed.plan])
    obtain ⟨deed', hasks', hmem'⟩ := h (.upsertProgress s.playerId s.dungeonId s.star s.firstClear)
      (by simp [Deed.plan])
    obtain ⟨s₁, rfl, hbattle⟩ := Deed.settle_of_updateBattle hmem
    obtain ⟨b, rfl⟩ := Deed.settle_of_upsertProgress hmem'
    obtain rfl : b = s.battleId := (hasks'.battleId hasks).trans hbattle
    exact hasks'

end Plans

/-! ## Errands -/

/-- Where a request is. -/
inductive Errand where
  /-- the player lock is not acquired -/
  | outside
  /-- it is; and the profile that was read -/
  | inside (read : Option PlayerProfile)
  /-- a transaction began, with this profile -/
  | begun (read : Option PlayerProfile)

/-- The commands that neither acquire a lock nor read a profile nor write into MySQL. -/
def Cmd.idle : Cmd → Bool
  | .sql (.select (.profile _)) => false
  | .sql .startTransaction => false
  | .sql (.write _) => false
  | .redis (.setNx _ _ _) => false
  | _ => true

/-- What a request may do where it is. -/
inductive Goes (cfg : DungeonConfig) (request : Request) :
    Errand → (c : Cmd) → c.Reply → Errand → Prop where
  /-- a request that takes no player lock -/
  | free {φ : Errand} {c : Cmd} {r : c.Reply} (unlocked : request.locks = none) :
      Goes cfg request φ c r φ
  | stay {φ : Errand} {c : Cmd} {r : c.Reply} (idle : c.idle = true) : Goes cfg request φ c r φ
  | busy {p : ℤ} {v : String} {ttl : ℕ} {r : Option Bool} (refused : r ≠ some true) :
      Goes cfg request .outside (.redis (.setNx (.playerLock p) v ttl)) r .outside
  | lock {p : ℤ} {v : String} {ttl : ℕ} :
      Goes cfg request .outside (.redis (.setNx (.playerLock p) v ttl)) (some true) (.inside none)
  | read {p : ℤ} {old : Option PlayerProfile} {profile : PlayerProfile}
      {rows : List PlayerProfile} (player : request.locks = some p) :
      Goes cfg request (.inside old) (.sql (.select (.profile p))) (some (profile :: rows))
        (.inside (some profile))
  | miss {p : ℤ} {read : Option PlayerProfile} {r : Option (List PlayerProfile)}
      (empty : emptyReply r) :
      Goes cfg request (.inside read) (.sql (.select (.profile p))) r (.inside read)
  | begin {read : Option PlayerProfile} {r : Except String Unit}
      (affords : request.Affords cfg read) :
      Goes cfg request (.inside read) (.sql .startTransaction) r (.begun read)
  | write {read : Option PlayerProfile} {w : SqlWrite} {r : Except String ℕ}
      (asked : request.Writes cfg w) :
      Goes cfg request (.begun read) (.sql (.write w)) r (.begun read)

/-- What a granted request is answered. -/
def Answered (cfg : DungeonConfig) : Request → Response → Errand → Prop
  | .enterDungeon _, .enterDungeon response, φ => response.success = true →
      ∃ profile, φ = .begun (some profile) ∧
        response = ⟨true, .ok, "", response.battleId, profile.stamina - cfg.costStamina⟩
  | .settleDungeon request, .settleDungeon response, _ => response.success = true →
      response = ⟨true, .ok, "", response.firstClear, (Settlement.rewardRows cfg
        ⟨request.battleId, request.playerId, request.dungeonId, request.star,
          response.firstClear⟩).map RewardRow.reward⟩
  | _, _, _ => True

/-- `Going cfg request Q m φ`: from `φ` on the routine `m` goes on the errand of the request. -/
abbrev Going {α : Type} (cfg : DungeonConfig) (request : Request) (Q : α → Errand → Prop)
    (m : Program α) (φ : Errand) : Prop :=
  Follows Cmd.Plausible (Goes cfg request) (fun _ => True) Q m φ

/-- The routine only sends idle commands. -/
abbrev Idle {α : Type} (m : Program α) : Prop := m.Uses fun c => c.idle = true

/-- An idle routine goes nowhere. -/
theorem going_idle {α : Type} {m : Program α} {φ : Errand} (h : Idle m) :
    Going cfg request (fun a φ' => m.Returns Cmd.Plausible a ∧ φ' = φ) m φ :=
  Follows.stays_of_uses (fun _ _ => .stay) trivial h

/-! ## Idle routines -/

section Idle

theorem idle_query {q : Query} (h : (Cmd.sql (.select q)).idle = true) :
    Idle (MySqlClient.query q) := by
  refine Prog.Uses.bind (.send h) fun r => ?_
  cases r with
  | none => trivial
  | some rows => trivial

theorem idle_queryOne {q : Query} (h : (Cmd.sql (.select q)).idle = true) :
    Idle (MySqlClient.queryOne q) := Prog.Uses.bind (idle_query h) fun _ => trivial

theorem idle_findById (sessionId : String) : Idle (RedisSessionRepository.findById sessionId) := by
  refine Prog.Uses.bind (uses_hGetAll rfl) fun r => ?_
  cases r with
  | none => trivial
  | some values => exact Prog.Uses.bind (.ofOption _) fun _ => trivial

theorem idle_findBattle (b : String) : Idle (DungeonService.findBattle b) := by
  refine Prog.Uses.bind ?_ fun found => ?_
  · refine Prog.Uses.bind (uses_hGetAll rfl) fun r => ?_
    cases r with
    | none => trivial
    | some values => exact Prog.Uses.bind (.ofOption _) fun _ => trivial
  · cases found with
    | none => exact Prog.Uses.bind (idle_queryOne rfl) fun _ => trivial
    | some context => trivial

theorem idle_save (context : BattleContext) :
    Idle (RedisBattleContextRepository.save env context) :=
  uses_hSet (fun _ _ _ => rfl) fun _ => rfl

theorem idle_finishTransaction (transaction : Except String Unit) :
    Idle (MySqlDungeonRepository.finishTransaction transaction) := by
  have hrollback : ∀ message : String, Idle (do
      let _ ← MySqlClient.rollback
      return (.error message : Except String Unit)) :=
    fun _ => Prog.Uses.bind (.send rfl) fun _ => trivial
  cases transaction with
  | error message => exact hrollback message
  | ok _ =>
    refine Prog.Uses.bind (.send rfl) fun r => ?_
    cases r with
    | error message => exact hrollback message
    | ok _ => trivial

end Idle

/-! ## Transactions -/

section Transactions

/-- What a request may send in its transaction. -/
def Request.Permits (cfg : DungeonConfig) (request : Request) (c : Cmd) : Prop :=
  c.idle = true ∨ ∃ w, c = .sql (.write w) ∧ request.Writes cfg w

theorem Idle.permits {α : Type} {m : Program α} (h : Idle m) : m.Uses (request.Permits cfg) :=
  h.mono fun _ => .inl

theorem permits_execute {w : SqlWrite} {deed : Deed} (hasks : request.Asks cfg deed)
    (hw : w ∈ deed.plan cfg) : (MySqlClient.execute w).Uses (request.Permits cfg) :=
  .send (.inr ⟨w, rfl, deed, hasks, hw⟩)

/-- In its transaction a request stays. -/
theorem going_begun {α : Type} {m : Program α} {read : Option PlayerProfile}
    (h : m.Uses (request.Permits cfg)) :
    Going cfg request (fun a φ' => m.Returns Cmd.Plausible a ∧ φ' = .begun read) m
      (.begun read) := by
  refine Follows.stays_of_uses ?_ trivial h
  rintro c r (hidle | ⟨w, rfl, hw⟩)
  · exact .stay hidle
  · exact .write hw

theorem permits_enterStatements {profile : PlayerProfile} {row : BattleRow}
    (hp : profile.playerId = row.playerId) (hd : row.dungeonId = cfg.dungeonId)
    (hs : row.status = 0) (hc : row.costStamina = cfg.costStamina)
    (hasks : request.Asks cfg (.enter row)) :
    (MySqlDungeonRepository.enterStatements profile cfg row.battleId).Uses
      (request.Permits cfg) := by
  have hrow : (⟨row.battleId, profile.playerId, cfg.dungeonId, 0, cfg.costStamina⟩ : BattleRow) =
      row := by
    rw [hp, ← hd, ← hs, ← hc]
  rw [MySqlDungeonRepository.enterStatements, hrow, hp, ← hc]
  refine Prog.Uses.bind (idle_queryOne rfl).permits fun pending => ?_
  split
  · trivial
  refine Prog.Uses.bind (permits_execute hasks (by simp [Deed.plan])) fun r => ?_
  split
  · trivial
  refine Prog.Uses.bind (permits_execute hasks (by simp [Deed.plan])) fun r => ?_
  cases r with
  | error message => trivial
  | ok n => trivial

theorem permits_settleStatements {context : BattleContext} {star : ℤ} {firstClear : Bool}
    (hasks : request.Asks cfg (.settle
      ⟨context.battleId, context.playerId, cfg.dungeonId, star, firstClear⟩)) :
    (MySqlDungeonRepository.settleStatements context cfg star firstClear).Uses
      (request.Permits cfg) := by
  rw [MySqlDungeonRepository.settleStatements]
  refine Prog.Uses.bind (permits_execute hasks (by simp [Deed.plan])) fun r => ?_
  split
  · trivial
  refine Prog.Uses.bind (permits_execute hasks
    (by simp [Deed.plan, Settlement.diamond])) fun r => ?_
  cases r with
  | error message => trivial
  | ok n =>
  refine Prog.Uses.bind (permits_execute hasks (by simp [Deed.plan])) fun r => ?_
  cases r with
  | error message => trivial
  | ok n =>
  refine Prog.Uses.bind (permits_execute hasks
    (by simp [Deed.plan, Settlement.rewardRows])) fun r => ?_
  cases r with
  | error message => trivial
  | ok n =>
  -- only a first clear has a second reward row
  cases firstClear with
  | false => trivial
  | true =>
    refine Prog.Uses.bind (permits_execute hasks
      (by simp [Deed.plan, Settlement.rewardRows])) fun r => ?_
    cases r with
    | error message => trivial
    | ok n => trivial

theorem going_beginTransaction {read : Option PlayerProfile}
    (haffords : request.Affords cfg read) :
    Going cfg request (fun _ φ => φ = .begun read) MySqlClient.beginTransaction (.inside read) :=
  fun _ _ => ⟨_, .begin haffords, rfl⟩

/-- The transaction of `EnterDungeon` begins with the profile that it was given. -/
theorem going_enterDungeon {state : PlayerState} {row : BattleRow}
    (hp : state.profile.playerId = row.playerId) (hd : row.dungeonId = cfg.dungeonId)
    (hs : row.status = 0) (hc : row.costStamina = cfg.costStamina)
    (hasks : request.Asks cfg (.enter row)) (haffords : request.Affords cfg (some state.profile)) :
    Going cfg request (fun result φ =>
        (MySqlDungeonRepository.enterDungeon state cfg row.battleId).Returns Cmd.Plausible result ∧
          φ = .begun (some state.profile))
      (MySqlDungeonRepository.enterDungeon state cfg row.battleId)
      (.inside (some state.profile)) := by
  refine Follows.bind (going_beginTransaction haffords) ?_
  rintro begun φ rfl
  refine Follows.mono (fun result φ h => ?_) (going_begun ?_)
  · exact ⟨Prog.returns_bind.mpr ⟨begun, ⟨begun, trivial, rfl⟩, h.1⟩, h.2⟩
  cases begun with
  | error message => trivial
  | ok _ =>
    refine Prog.Uses.bind (permits_enterStatements hp hd hs hc hasks) fun transaction => ?_
    refine Prog.Uses.bind (idle_finishTransaction _).permits fun r => ?_
    cases r with
    | error message => trivial
    | ok _ => trivial

/-- So does that of `SettleDungeon`. -/
theorem going_settleDungeon {context : BattleContext} {star : ℤ} {read : Option PlayerProfile}
    (hasks : ∀ firstClear, request.Asks cfg (.settle
      ⟨context.battleId, context.playerId, cfg.dungeonId, star, firstClear⟩))
    (haffords : request.Affords cfg read) :
    Going cfg request (fun result φ =>
        (MySqlDungeonRepository.settleDungeon context cfg star).Returns Cmd.Plausible result ∧
          φ = .begun read)
      (MySqlDungeonRepository.settleDungeon context cfg star) (.inside read) := by
  have hfirst : Going cfg request _ _ (.inside read) :=
    going_idle (idle_queryOne (q := .firstClear context.playerId cfg.dungeonId) rfl)
  refine Follows.bind hfirst ?_
  rintro first φ ⟨hreply, rfl⟩
  refine Follows.bind (going_beginTransaction haffords) ?_
  rintro begun φ rfl
  refine Follows.mono (fun result φ h => ?_) (going_begun ?_)
  · refine ⟨Prog.returns_bind.mpr ⟨first, hreply, ?_⟩, h.2⟩
    exact Prog.returns_bind.mpr ⟨begun, ⟨begun, trivial, rfl⟩, h.1⟩
  cases begun with
  | error message => trivial
  | ok _ =>
    refine Prog.Uses.bind (permits_settleStatements (hasks _)) fun transaction => ?_
    refine Prog.Uses.bind (idle_finishTransaction _).permits fun r => ?_
    cases r with
    | error message => trivial
    | ok _ => trivial

end Transactions

/-! ## Services -/

section Services

/-- Reading the state of the player. -/
theorem going_loadPlayerState {p : ℤ} {old : Option PlayerProfile}
    (hlocks : request.locks = some p) :
    Going cfg request (fun state φ => ∃ read, φ = .inside read ∧
        ∀ s ∈ state, read = some s.profile ∧ s.profile.playerId = p)
      (MySqlPlayerRepository.loadPlayerState p) (.inside old) := by
  refine Follows.bind (P := fun found φ => ∃ read, φ = .inside read ∧
    ∀ x ∈ found, read = some x ∧ x.playerId = p) ?_ ?_
  · rintro (_ | _ | ⟨x, rows⟩) hplausible
    · exact ⟨_, .miss rfl, old, rfl, nofun⟩
    · exact ⟨_, .miss rfl, old, rfl, nofun⟩
    · refine ⟨_, .read hlocks, some x, rfl, fun y hy => ?_⟩
      obtain rfl := Option.some.inj hy
      exact ⟨rfl, hplausible _ rfl _ List.mem_cons_self⟩
  · rintro (_ | x) φ ⟨read, rfl, hread⟩
    · exact ⟨read, rfl, nofun⟩
    · refine Follows.bind (going_idle (idle_query (q := .progress p) rfl)) ?_
      rintro rows φ ⟨-, rfl⟩
      refine ⟨read, rfl, fun s hs => ?_⟩
      obtain rfl := Option.some.inj hs
      exact hread x rfl

/-- Acquiring the player lock. -/
theorem going_acquire {p : ℤ} :
    Going cfg request (fun acquired φ => (acquired = true ∧ φ = .inside none) ∨
        (acquired = false ∧ φ = .outside))
      (DungeonService.acquirePlayerLock env p) .outside := by
  rintro (_ | _ | _) -
  · exact ⟨_, .busy (by simp), .inr ⟨rfl, rfl⟩⟩
  · exact ⟨_, .busy (by simp), .inr ⟨rfl, rfl⟩⟩
  · exact ⟨_, .lock, .inl ⟨rfl, rfl⟩⟩

/-- Giving it back. -/
theorem going_release {α : Type} {p : ℤ} {response : α} {Q : α → Errand → Prop} {φ : Errand}
    (h : Q response φ) :
    Going cfg request Q (do
      DungeonService.releasePlayerLock p
      return response) φ := by
  have hidle : Idle (DungeonService.releasePlayerLock p) :=
    Prog.Uses.bind (.send rfl) fun _ => trivial
  refine Follows.bind (going_idle hidle) ?_
  rintro _ φ' ⟨-, rfl⟩
  exact h

theorem going_enterLocked {request : EnterDungeonRequest}
    (hd : request.dungeonId = env.dungeonConfig.dungeonId) :
    Going env.dungeonConfig (.enterDungeon request)
      (fun response => Answered env.dungeonConfig (.enterDungeon request) (.enterDungeon response))
      (DungeonService.enterLocked env env.dungeonConfig request) (.inside none) := by
  refine Follows.bind (going_loadPlayerState (p := request.playerId) rfl) ?_
  rintro (_ | state) φ ⟨read, rfl, hread⟩
  · exact nofun
  obtain ⟨rfl, hp⟩ := hread state rfl
  dsimp only
  split
  · exact nofun
  rename_i hlevel
  split
  · exact nofun
  rename_i hstamina
  rw [hd]
  have hnumber : Idle (DungeonService.generateBattleId request.playerId
      env.dungeonConfig.dungeonId) := Prog.Uses.bind (.send rfl) fun _ => trivial
  refine Follows.bind (going_idle hnumber) ?_
  rintro battleId φ ⟨-, rfl⟩
  have hasks : (Request.enterDungeon request).Asks env.dungeonConfig (.enter
      ⟨battleId, request.playerId, env.dungeonConfig.dungeonId, 0,
        env.dungeonConfig.costStamina⟩) := hd ▸ .enter hd
  refine Follows.bind (going_enterDungeon hp rfl rfl rfl hasks
    ⟨_, rfl, not_lt.mp hlevel, not_lt.mp hstamina⟩) ?_
  rintro result φ ⟨hresult, rfl⟩
  split
  · exact nofun
  rename_i hsuccess
  have hremain := remainStamina_enterDungeon hresult (by simpa using hsuccess)
  refine Follows.bind (going_idle (idle_save _)) ?_
  rintro saved φ ⟨-, rfl⟩
  have hinvalidate : Idle (RedisPlayerCacheRepository.invalidate request.playerId) := .send rfl
  refine Follows.bind (going_idle hinvalidate) ?_
  rintro deleted φ ⟨-, rfl⟩ -
  exact ⟨state.profile, rfl, by rw [hremain]⟩

/-- A battle that is found bears the id that was asked for. -/
theorem battleId_of_findBattle {b : String} {context : BattleContext}
    (h : (DungeonService.findBattle b).Returns Cmd.Plausible (some context)) :
    context.battleId = b := by
  rw [DungeonService.findBattle, Prog.returns_bind] at h
  obtain ⟨found, hfound, h⟩ := h
  cases found with
  | some found =>
    obtain rfl := Option.some.inj h
    obtain ⟨values, -, hvalues⟩ := Prog.returns_bind.mp hfound
    cases values with
    | none => cases hvalues
    | some values =>
      obtain ⟨decoded, hdecoded, h⟩ := Prog.returns_bind.mp hvalues
      obtain rfl := Option.some.inj h
      rw [orThrow] at hdecoded
      rcases hdecode : RedisBattleContextRepository.decode b values with _ | context
      · rw [hdecode] at hdecoded
        cases hdecoded
      · rw [hdecode] at hdecoded
        obtain rfl := hdecoded
        exact RedisBattleContextRepository.battleId_decode hdecode
  | none =>
    obtain ⟨row, hrow, h⟩ := Prog.returns_bind.mp h
    obtain ⟨row, rfl, rfl⟩ := Option.map_eq_some_iff.mp h
    obtain ⟨rows, hrows, hhead⟩ := Prog.returns_bind.mp hrow
    obtain ⟨r, hplausible, hr⟩ := Prog.returns_bind.mp hrows
    cases r with
    | none =>
      obtain rfl : [] = rows := hr
      cases hhead
    | some rows' =>
      obtain rfl : rows' = rows := hr
      obtain ⟨r, hr, rfl⟩ := hplausible
      exact hr _ rfl row (List.mem_of_mem_head? hhead)

theorem going_settleLocked {request : SettleDungeonRequest}
    (hasks : ∀ firstClear, (Request.settleDungeon request).Asks env.dungeonConfig
      (.settle ⟨request.battleId, request.playerId, request.dungeonId, request.star,
        firstClear⟩)) (hd : request.dungeonId = env.dungeonConfig.dungeonId) :
    Going env.dungeonConfig (.settleDungeon request)
      (fun response =>
        Answered env.dungeonConfig (.settleDungeon request) (.settleDungeon response))
      (DungeonService.settleLocked env.dungeonConfig request) (.inside none) := by
  refine Follows.bind (going_idle (idle_findBattle _)) ?_
  rintro (_ | context) φ ⟨hfound, rfl⟩
  · exact fun h => absurd h Bool.false_ne_true
  dsimp only
  split
  · exact fun h => absurd h Bool.false_ne_true
  rename_i hmatch
  rw [not_or, not_not, not_not] at hmatch
  split
  · exact fun h => absurd h Bool.false_ne_true
  have hasks' : ∀ firstClear, (Request.settleDungeon request).Asks env.dungeonConfig
      (.settle ⟨context.battleId, context.playerId, env.dungeonConfig.dungeonId, request.star,
        firstClear⟩) := by
    rw [battleId_of_findBattle hfound, hmatch.1, ← hd]
    exact hasks
  refine Follows.bind (going_settleDungeon hasks' trivial) ?_
  rintro result φ ⟨hresult, rfl⟩
  split
  · exact fun h => absurd h Bool.false_ne_true
  have hdelete : Idle (RedisBattleContextRepository.delete request.battleId) := .send rfl
  refine Follows.bind (going_idle hdelete) ?_
  rintro _ φ ⟨-, rfl⟩
  have hinvalidate : Idle (RedisPlayerCacheRepository.invalidate request.playerId) := .send rfl
  refine Follows.bind (going_idle hinvalidate) ?_
  rintro _ φ ⟨-, rfl⟩ -
  rw [rewards_settleDungeon hresult, Settlement.rewardRows]
  cases result.firstClear <;> rfl

theorem enterDungeon_going (request : EnterDungeonRequest) :
    Going env.dungeonConfig (.enterDungeon request)
      (fun response => Answered env.dungeonConfig (.enterDungeon request) (.enterDungeon response))
      (DungeonService.enterDungeon env request) .outside := by
  refine Follows.bind (going_idle (idle_findById _)) ?_
  rintro session φ ⟨-, rfl⟩
  split
  · exact nofun
  split
  · exact nofun
  rename_i config hconfig
  obtain ⟨rfl, hd⟩ := dungeonId_of_find hconfig
  refine Follows.bind going_acquire ?_
  rintro acquired φ (⟨rfl, rfl⟩ | ⟨rfl, rfl⟩)
  · refine Follows.bind (going_enterLocked hd) fun response φ h => ?_
    exact going_release h
  · exact nofun

theorem settleDungeon_going (request : SettleDungeonRequest) :
    Going env.dungeonConfig (.settleDungeon request)
      (fun response =>
        Answered env.dungeonConfig (.settleDungeon request) (.settleDungeon response))
      (DungeonService.settleDungeon env request) .outside := by
  rw [DungeonService.settleDungeon]
  split
  · exact fun h => absurd h Bool.false_ne_true
  rename_i hresult
  refine Follows.bind (going_idle (idle_findById _)) ?_
  rintro session φ ⟨-, rfl⟩
  split
  · exact fun h => absurd h Bool.false_ne_true
  split
  · exact fun h => absurd h Bool.false_ne_true
  rename_i config hconfig
  obtain ⟨rfl, hd⟩ := dungeonId_of_find hconfig
  split
  · exact fun h => absurd h Bool.false_ne_true
  rename_i hstar
  rw [not_or, not_le, not_lt] at hstar
  refine Follows.bind going_acquire ?_
  rintro acquired φ (⟨rfl, rfl⟩ | ⟨rfl, rfl⟩)
  · refine Follows.bind (going_settleLocked (fun _ => .settle ?_ hd hstar) hd)
      fun response φ h => ?_
    · simpa using hresult
    · exact going_release h
  · exact fun h => absurd h Bool.false_ne_true

/-- **Errands.** Every request goes on its errand. -/
theorem serve_goes (env : Env) (request : Request) :
    Going env.dungeonConfig request (Answered env.dungeonConfig request) (serve env request)
      .outside := by
  have hfree : ∀ {α : Type} {f : α → Response} {m : Program α}, request.locks = none →
      (∀ a φ, Answered env.dungeonConfig request (f a) φ) → Going env.dungeonConfig request
        (Answered env.dungeonConfig request) (f <$> m) .outside := by
    intro α f m hlocks hf
    refine Follows.mono ?_ (Follows.stays (m := f <$> m) (fun _ _ => .free hlocks) trivial)
    rintro response φ ⟨hreturns, rfl⟩
    obtain ⟨a, -, rfl⟩ := Prog.returns_bind.mp hreturns
    exact hf a _
  cases request with
  | login request => exact hfree rfl fun _ _ => trivial
  | loadPlayer request => exact hfree rfl fun _ _ => trivial
  | restoreBinding sessionId playerId => exact hfree rfl fun _ _ => trivial
  | enterDungeon request => exact Follows.bind (enterDungeon_going request) fun _ _ h => h
  | settleDungeon request => exact Follows.bind (settleDungeon_going request) fun _ _ h => h

end Services

/-! ## What the trail shows -/

/-- The profile that an exchange reads. -/
def Exchange.showsProfile : Exchange → Option PlayerProfile
  | ⟨.sql (.select (.profile _)), r⟩ => (r.getD []).head?
  | _ => none

/-- The profile that a request has read inside of its player lock. -/
def shownProfile : List Exchange → Option PlayerProfile
  | [] => none
  | e :: trail => if e.acquires.isSome then none else e.showsProfile <|> shownProfile trail

section Trail

variable {trail : List Exchange} {ψ : Errand} {φ : Phase}

/-- An exchange that shows nothing and acquires no lock. -/
theorem shownProfile_skip {e : Exchange} (hacquires : e.acquires = none)
    (hshows : e.showsProfile = none) : shownProfile (e :: trail) = shownProfile trail := by
  simp [shownProfile, hacquires, hshows]

theorem Cmd.silent_of_idle {c : Cmd} {r : c.Reply} (h : c.idle = true) :
    Exchange.acquires ⟨c, r⟩ = none ∧ Exchange.showsProfile ⟨c, r⟩ = none := by
  cases c with
  | sql c =>
    cases c with
    | select q =>
      cases q with
      | profile p => cases h
      | _ => exact ⟨rfl, rfl⟩
    | startTransaction | write w => cases h
    | _ => exact ⟨rfl, rfl⟩
  | redis c =>
    cases c with
    | setNx k v ttl => cases h
    | _ => exact ⟨rfl, rfl⟩
  | _ => exact ⟨rfl, rfl⟩

/-- What a request knows of the profile is what its trail shows, and enough once it has begun
its transaction. -/
theorem shownProfile_eq (hlocks : request.locks ≠ none)
    (h : Path (Goes cfg request) .outside trail ψ) :
    (∀ read, ψ = .inside read ∨ ψ = .begun read → shownProfile trail = read) ∧
      ∀ read, ψ = .begun read → request.Affords cfg read := by
  induction h with
  | nil => exact ⟨nofun, nofun⟩
  | cons before goes ih =>
    obtain ⟨hshown, haffords⟩ := ih
    cases goes with
    | free unlocked => exact absurd unlocked hlocks
    | stay idle =>
      obtain ⟨hacquires, hshows⟩ := Cmd.silent_of_idle idle
      rw [shownProfile_skip hacquires hshows]
      exact ⟨hshown, haffords⟩
    | busy refused => exact ⟨nofun, nofun⟩
    | lock =>
      refine ⟨fun read hread => ?_, nofun⟩
      obtain rfl : none = read := by simpa using hread
      rfl
    | read player =>
      refine ⟨fun read hread => ?_, nofun⟩
      obtain rfl : some _ = read := by simpa using hread
      rfl
    | miss empty =>
      rw [shownProfile_skip rfl]
      · exact ⟨hshown, nofun⟩
      · rw [Exchange.showsProfile, empty]
        rfl
    | begin affords =>
      rw [shownProfile_skip rfl rfl]
      refine ⟨fun read hread => hshown read (.inl ?_), fun read hread => ?_⟩
      · simpa using hread
      · obtain rfl : _ = read := by simpa using hread
        exact affords
    | write asked =>
      rw [shownProfile_skip rfl rfl]
      exact ⟨hshown, haffords⟩

/-- Once a request has begun its transaction it goes nowhere else. -/
theorem begun_of_mem (hlocks : request.locks ≠ none)
    (h : Path (Goes cfg request) .outside trail ψ) {r : Except String Unit}
    (hmem : (⟨.sql .startTransaction, r⟩ : Exchange) ∈ trail) : ∃ read, ψ = .begun read := by
  induction h with
  | nil => cases hmem
  | cons before goes ih =>
    rcases List.mem_cons.mp hmem with heq | hmem
    · cases heq
      cases goes with
      | free unlocked => exact absurd unlocked hlocks
      | stay idle => cases idle
      | begin affords => exact ⟨_, rfl⟩
    · obtain ⟨read, rfl⟩ := ih hmem
      cases goes with
      | free unlocked => exact absurd unlocked hlocks
      | stay idle => exact ⟨read, rfl⟩
      | write asked => exact ⟨read, rfl⟩

/-- A request writes what it asks for. -/
theorem writes_of_mem (hlocks : request.locks ≠ none)
    (h : Path (Goes cfg request) .outside trail ψ) {w : SqlWrite} {r : Except String ℕ}
    (hmem : (⟨.sql (.write w), r⟩ : Exchange) ∈ trail) : request.Writes cfg w := by
  induction h with
  | nil => cases hmem
  | cons before goes ih =>
    rcases List.mem_cons.mp hmem with heq | hmem
    · cases heq
      cases goes with
      | free unlocked => exact absurd unlocked hlocks
      | stay idle => cases idle
      | write asked => exact asked
    · exact ih hmem

/-- The phases behind the beginning of a transaction. -/
def Phase.begun : Phase → Bool
  | .opened _ => true
  | .writing _ _ _ => true
  | .aborting _ => true
  | .committed _ => true
  | .invalidated _ => true
  | .released (some _) => true
  | _ => false

theorem Advance.begun {φ' : Phase} {c : Cmd} {r : c.Reply} (h : Advance cfg φ c r φ')
    (hφ' : φ'.begun = true) : φ.begun = true ∨ c = .sql .startTransaction := by
  cases h with
  | unlock exit =>
    rename_i deed r
    cases deed with
    | none => cases hφ'
    | some deed => exact .inl (Phase.invalidated_of_exit exit ▸ rfl)
  | enterBegin | settleBegin => exact .inr rfl
  | pass => exact .inl hφ'
  | noPending | pending | write | refuse | commit | noCommit | saveContext | expireContext |
    dropContext | invalidate => exact .inl rfl
  | _ => cases hφ'

/-- What was committed was begun. -/
theorem Phase.begun_of_done {deed : Deed} (h : φ.done = some deed) : φ.begun = true := by
  cases φ with
  | released deed' =>
    obtain rfl := h
    rfl
  | committed | invalidated => rfl
  | _ => cases h

/-- Before that there is no open transaction. -/
theorem Phase.txn_of_begun (h : φ.begun = false) {o : Option (List SqlWrite)} (ht : φ.Txn o) :
    o = none := by
  cases φ with
  | opened | writing | aborting => cases h
  | _ => exact ht

/-- The trail shows the beginning of the transaction. -/
theorem begin_mem (h : Path (Advance cfg) .outside trail φ) (hφ : φ.begun = true) :
    ∃ r, (⟨.sql .startTransaction, r⟩ : Exchange) ∈ trail := by
  induction h with
  | nil => cases hφ
  | cons before advance ih =>
    rcases advance.begun hφ with hbegun | rfl
    · obtain ⟨r, hmem⟩ := ih hbegun
      exact ⟨r, List.mem_cons_of_mem _ hmem⟩
    · exact ⟨_, List.mem_cons_self⟩

/-- The trail shows the writes that are done. -/
theorem write_mem (h : Path (Advance cfg) .outside trail φ) :
    ∀ {deed : Deed} {done todo : List SqlWrite}, φ = .writing deed done todo →
      ∀ w ∈ done, ∃ r, (⟨.sql (.write w), r⟩ : Exchange) ∈ trail := by
  induction h with
  | nil => exact nofun
  | cons before advance ih =>
    rintro deed done todo rfl w hw
    cases advance with
    | pass =>
      obtain ⟨r, hmem⟩ := ih rfl w hw
      exact ⟨r, List.mem_cons_of_mem _ hmem⟩
    | noPending => cases hw
    | settleBegin => cases hw
    | write =>
      rcases List.mem_append.mp hw with hw | hw
      · obtain ⟨r, hmem⟩ := ih rfl w hw
        exact ⟨r, List.mem_cons_of_mem _ hmem⟩
      · obtain rfl := List.mem_singleton.mp hw
        exact ⟨_, List.mem_cons_self⟩

end Trail

/-! ## Running requests -/

/-- The answer to a request that has done the deed. -/
def Deed.answer (cfg : DungeonConfig) (read : Option PlayerProfile) : Deed → Response
  | .enter row => .enterDungeon ⟨true, .ok, "", row.battleId,
      (read.map PlayerProfile.stamina).getD 0 - cfg.costStamina⟩
  | .settle s => .settleDungeon ⟨true, .ok, "", s.firstClear,
      (s.rewardRows cfg).map RewardRow.reward⟩

/-- The task is on the errand of its request. -/
def Task.OnErrand (cfg : DungeonConfig) (task : Task) : Prop :=
  ∃ ψ, Path (Goes cfg task.request) .outside task.trail ψ ∧
    Going cfg task.request (Answered cfg task.request) task.rest ψ

section Tasks

variable {task : Task} {φ : Phase} {deed : Deed}

theorem Task.onErrand_start (env : Env) (id : ℕ) (request : Request) :
    Task.OnErrand env.dungeonConfig ⟨id, request, [], serve env request⟩ :=
  ⟨.outside, .nil, serve_goes env request⟩

theorem Task.OnErrand.call {id : ℕ} {c : Cmd} {k : c.Reply → Program Response} {r : c.Reply}
    {trail : List Exchange} (h : Task.OnErrand cfg ⟨id, request, trail, .call c k⟩)
    (hr : c.Plausible r) : Task.OnErrand cfg ⟨id, request, ⟨c, r⟩ :: trail, k r⟩ := by
  obtain ⟨ψ, hpath, hgoing⟩ := h
  obtain ⟨ψ', hgoes, hk⟩ := hgoing r hr
  exact ⟨ψ', hpath.cons hgoes, hk⟩

/-- A profile is read for the player of the request, before its transaction. -/
theorem Task.OnErrand.reads {id : ℕ} {p : ℤ} {profile : PlayerProfile}
    {r : Option (List PlayerProfile)} {trail : List Exchange} {rest : Program Response}
    (h : Task.OnErrand cfg ⟨id, request, ⟨.sql (.select (.profile p)), r⟩ :: trail, rest⟩)
    (hlocks : request.locks ≠ none) (hshows : (r.getD []).head? = some profile) :
    request.locks = some p ∧ ∀ r, (⟨.sql .startTransaction, r⟩ : Exchange) ∉ trail := by
  obtain ⟨ψ, hpath, -⟩ := h
  cases hpath with
  | cons before goes =>
    cases goes with
    | free unlocked => exact absurd unlocked hlocks
    | stay idle => cases idle
    | read player =>
      refine ⟨player, fun r hmem => ?_⟩
      obtain ⟨read, hread⟩ := begun_of_mem hlocks before hmem
      cases hread
    | miss empty =>
      rw [empty] at hshows
      cases hshows

/-- Once its transaction has begun a request reads no profile any more. -/
theorem Task.OnErrand.shownProfile_call {id : ℕ} {c : Cmd} {r : c.Reply} {trail : List Exchange}
    {rest : Program Response} (h : Task.OnErrand cfg ⟨id, request, ⟨c, r⟩ :: trail, rest⟩)
    (hlocks : request.locks ≠ none) (hpath : Path (Advance cfg) .outside trail φ)
    (hφ : φ.begun = true) : shownProfile (⟨c, r⟩ :: trail) = shownProfile trail := by
  obtain ⟨ψ, hgoes, -⟩ := h
  obtain ⟨r', hmem⟩ := begin_mem hpath hφ
  cases hgoes with
  | cons before goes =>
    obtain ⟨read, rfl⟩ := begun_of_mem hlocks before hmem
    cases goes with
    | free unlocked => exact absurd unlocked hlocks
    | stay idle =>
      obtain ⟨hacquires, hshows⟩ := Cmd.silent_of_idle idle
      exact shownProfile_skip hacquires hshows
    | write asked => exact shownProfile_skip rfl rfl

/-- A request that has written a plan asks for its deed. -/
theorem Task.OnErrand.asks (h : task.OnErrand cfg) (hlocks : task.request.locks ≠ none)
    (hpath : Path (Advance cfg) .outside task.trail (.writing deed (deed.plan cfg) [])) :
    task.request.Asks cfg deed := by
  obtain ⟨ψ, hgoes, -⟩ := h
  apply Request.asks_of_plan
  intro w hw
  obtain ⟨r, hmem⟩ := write_mem hpath rfl w hw
  exact writes_of_mem hlocks hgoes hmem

/-- A request that has begun its transaction has read a profile that affords it. -/
theorem Task.OnErrand.affords (h : task.OnErrand cfg) (hlocks : task.request.locks ≠ none)
    (hpath : Path (Advance cfg) .outside task.trail φ) (hφ : φ.begun = true) :
    task.request.Affords cfg (shownProfile task.trail) := by
  obtain ⟨ψ, hgoes, -⟩ := h
  obtain ⟨r, hmem⟩ := begin_mem hpath hφ
  obtain ⟨read, rfl⟩ := begun_of_mem hlocks hgoes hmem
  obtain ⟨hshown, haffords⟩ := shownProfile_eq hlocks hgoes
  rw [hshown read (.inr rfl)]
  exact haffords read rfl

/-- A request that is granted is answered what it has done and read. -/
theorem Task.OnErrand.answered {id : ℕ} {trail : List Exchange} {response : Response}
    (h : Task.OnErrand cfg ⟨id, request, trail, .ret response⟩) (hasks : request.Asks cfg deed)
    (hends : Ends cfg request response φ) (hdone : φ.done = some deed) :
    response = deed.answer cfg (shownProfile trail) := by
  have hclean : ¬φ.Clean := by
    rintro (rfl | rfl)
    · cases hdone
    · cases hdone
  obtain ⟨ψ, hpath, hanswered⟩ := h
  cases hasks with
  | enter dungeon =>
    cases response with
    | enterDungeon response =>
      cases hsuccess : response.success with
      | false => exact absurd (hends.2 hsuccess) hclean
      | true =>
        obtain ⟨profile, rfl, hresponse⟩ := hanswered hsuccess
        obtain ⟨hshown, -⟩ := shownProfile_eq (by simp [Request.locks]) hpath
        obtain rfl := hends.1 hsuccess
        obtain ⟨hbattle, -⟩ : response.battleId = _ ∧ True := by simpa [Phase.done] using hdone
        rw [hshown _ (.inr rfl), hresponse, hbattle]
        rfl
    | _ => exact hends.elim
  | settle result dungeon star =>
    cases response with
    | settleDungeon response =>
      cases hsuccess : response.success with
      | false => exact absurd (hends.2 hsuccess) hclean
      | true =>
        obtain rfl := hends.1 hsuccess
        obtain ⟨hfirst, -⟩ : response.firstClear = _ ∧ True := by simpa [Phase.done] using hdone
        rw [hanswered hsuccess, hfirst]
        rfl
    | _ => exact hends.elim

variable {ι : Type} [DecidableEq ι] {w w₀ : World ι} {ok : World ι → Label ι → Prop}

/-- Every running request is on its errand. -/
theorem World.Run.onErrand (hrest : ∀ i, w₀.tasks i = none) (h : World.Run env ok w₀ w) :
    ∀ i task, w.tasks i = some task → task.OnErrand env.dungeonConfig :=
  World.Run.each (Task.onErrand_start env) (fun _ _ _ _ _ _ hr herrand => herrand.call hr) hrest h

end Tasks

end GameBackend
