import GameBackend.AllOrNothing
import GameBackend.Clearance
import GameBackend.Encodings

/-!
# Whose data it is

A request for a player returns data of this player and changes nothing of any other.

* `Portrays`, `Depicted` — the states that were read from MySQL for a player, and the
  fields that come from them. Two requests may write a snapshot at once, so a cached
  state can be put together from several portraits; they are all of the same player.
* `Belongs` — the data of a response is that of the player of the request.
* `Store.SameFor` — a step leaves the rows, the snapshot and the battles of a player
  alone.
-/

namespace GameBackend

variable {ι : Type} [DecidableEq ι] {env : Env} {cfg : DungeonConfig}

/-! ## Portraits -/

/-- A query for the profile of player `p` has returned this one. -/
def ProfileRead (history : List Event) (p : ℤ) (profile : PlayerProfile) : Prop :=
  ∃ id rows time,
    Event.call id ⟨.sql (.select (.profile p)), some (profile :: rows)⟩ time ∈ history

/-- A query for the progress of player `p` has returned these rows. -/
def ProgressRead (history : List Event) (p : ℤ) (rows : List ProgressRow) : Prop :=
  ∃ id r time, Event.call id ⟨.sql (.select (.progress p)), r⟩ time ∈ history ∧ rows = r.getD []

/-- The state is made of what was read for player `p`. -/
def Portrays (history : List Event) (p : ℤ) (state : PlayerState) : Prop :=
  ∃ profile rows, ProfileRead history p profile ∧ ProgressRead history p rows ∧
    state = stateOf profile rows

/-- The field is one of a state that was read for player `p`. -/
def Depicted (history : List Event) (p : ℤ) (f v : String) : Prop :=
  ∃ portrait, Portrays history p portrait ∧ (f, v) ∈ RedisPlayerCacheRepository.fields portrait

section Portraits

variable {history history' : List Event} {p : ℤ}

theorem ProfileRead.mono (hsub : history ⊆ history') {profile : PlayerProfile}
    (h : ProfileRead history p profile) : ProfileRead history' p profile := by
  obtain ⟨id, rows, time, hmem⟩ := h
  exact ⟨id, rows, time, hsub hmem⟩

theorem Portrays.mono (hsub : history ⊆ history') {state : PlayerState}
    (h : Portrays history p state) : Portrays history' p state := by
  obtain ⟨profile, rows, hprofile, ⟨id, r, time, hmem, hrows⟩, hstate⟩ := h
  exact ⟨profile, rows, hprofile.mono hsub, ⟨id, r, time, hsub hmem, hrows⟩, hstate⟩

theorem Depicted.mono (hsub : history ⊆ history') {f v : String} (h : Depicted history p f v) :
    Depicted history' p f v := by
  obtain ⟨portrait, hportrait, hmem⟩ := h
  exact ⟨portrait, hportrait.mono hsub, hmem⟩

/-- Reading a number out of a field that prints one. -/
theorem read_printed {α : Type} {values : List (String × String)} {f : String} {g : ℤ → Option α}
    {a : α} (hprinted : ∀ v, fieldOf values f = some v → ∃ n : ℤ, v = toString n)
    (h : (fieldOf values f >>= fun text => stoll text >>= g) = some a) :
    ∃ n : ℤ, fieldOf values f = some (toString n) ∧ g n = some a := by
  obtain ⟨v, hv, hrest⟩ := Option.bind_eq_some_iff.mp h
  obtain ⟨n, rfl⟩ := hprinted v hv
  obtain ⟨m, hm, hg⟩ := Option.bind_eq_some_iff.mp hrest
  rw [stoll_toString, Option.some.injEq] at hm
  exact ⟨n, hv, hm ▸ hg⟩

namespace RedisPlayerCacheRepository

/-- A decoded state has the fields of the hash it was decoded from, if those are fields
of states. -/
theorem fields_of_decode {values : List (String × String)} {state : PlayerState}
    (hgenuine : ∀ f v, fieldOf values f = some v → ∃ playerState, (f, v) ∈ fields playerState)
    (hdecode : decode values = some state) {f v : String} (hfield : (f, v) ∈ fields state) :
    fieldOf values f = some v := by
  -- all fields but the name and the progress are printed numbers
  have hprinted : ∀ {name : String} (n : PlayerState → ℤ),
      (∀ v playerState, (name, v) ∈ fields playerState → v = toString (n playerState)) →
      ∀ v, fieldOf values name = some v → ∃ n : ℤ, v = toString n := by
    intro name n hname v hv
    obtain ⟨playerState, hmem⟩ := hgenuine name v hv
    exact ⟨n playerState, hname v playerState hmem⟩
  obtain ⟨playerId, h₁, hdecode⟩ :=
    read_printed (hprinted (fun s => s.profile.playerId) (by simp [fields])) hdecode
  obtain ⟨accountId, h₂, hdecode⟩ :=
    read_printed (hprinted (fun s => s.profile.accountId) (by simp [fields])) hdecode
  obtain ⟨playerName, h₃, hdecode⟩ := Option.bind_eq_some_iff.mp hdecode
  obtain ⟨level, h₄, hdecode⟩ :=
    read_printed (hprinted (fun s => s.profile.level) (by simp [fields])) hdecode
  obtain ⟨stamina, h₅, hdecode⟩ :=
    read_printed (hprinted (fun s => s.profile.stamina) (by simp [fields])) hdecode
  obtain ⟨gold, h₆, hdecode⟩ :=
    read_printed (hprinted (fun s => s.profile.gold) (by simp [fields])) hdecode
  obtain ⟨diamond, h₇, hdecode⟩ :=
    read_printed (hprinted (fun s => s.profile.diamond) (by simp [fields])) hdecode
  obtain ⟨text, h₈, hdecode⟩ := Option.bind_eq_some_iff.mp hdecode
  obtain ⟨progress, hprogress, hstate⟩ := Option.bind_eq_some_iff.mp hdecode
  obtain rfl := Option.some.inj hstate
  obtain ⟨s, hs⟩ := hgenuine _ _ h₈
  obtain rfl : text = serializeProgress s := by simpa [fields] using hs
  rw [parseProgress_serializeProgress, Option.some.injEq] at hprogress
  subst hprogress
  simp only [fields, List.mem_cons, Prod.mk.injEq, List.not_mem_nil, or_false] at hfield
  rcases hfield with ⟨rfl, rfl⟩ | ⟨rfl, rfl⟩ | ⟨rfl, rfl⟩ | ⟨rfl, rfl⟩ | ⟨rfl, rfl⟩ | ⟨rfl, rfl⟩ |
    ⟨rfl, rfl⟩ | ⟨rfl, rfl⟩
  · exact h₁
  · exact h₂
  · exact h₃
  · exact h₄
  · exact h₅
  · exact h₆
  · exact h₇
  · exact h₈

end RedisPlayerCacheRepository

/-- A state that is decoded from fields of portraits has such fields only. -/
theorem depicted_of_decode {values : List (String × String)} {state : PlayerState}
    (h : ∀ f v, fieldOf values f = some v → Depicted history p f v)
    (hdecode : RedisPlayerCacheRepository.decode values = some state) :
    ∀ f v, (f, v) ∈ RedisPlayerCacheRepository.fields state → Depicted history p f v := by
  intro f v hfield
  refine h f v (RedisPlayerCacheRepository.fields_of_decode (fun f v hfv => ?_) hdecode hfield)
  obtain ⟨portrait, -, hmem⟩ := h f v hfv
  exact ⟨portrait, hmem⟩

end Portraits

/-! ## The snapshots and the requests -/

/-- What a request has read is that of its player. -/
def Phase.Portrays (history : List Event) : Phase → Prop
  | .profiled p profile => ProfileRead history p profile
  | .loaded p state => GameBackend.Portrays history p state
  | .hit p values => ∀ f v, fieldOf values f = some v → Depicted history p f v
  | _ => True

theorem Phase.Portrays.mono {history history' : List Event} (hsub : history ⊆ history')
    {φ : Phase} (h : φ.Portrays history) : φ.Portrays history' := by
  cases φ with
  | profiled p profile => exact ProfileRead.mono hsub h
  | loaded p state => exact GameBackend.Portrays.mono hsub h
  | hit p values => exact fun f v hfv => (h f v hfv).mono hsub
  | _ => trivial

variable {w w' w₀ : World ι} {φ φ' : ι → Phase} {l : Label ι}

/-- The snapshots, and what requests have read, are of the players they are stored for. -/
structure Album (w : World ι) (φ : ι → Phase) : Prop where
  snapshots : ∀ p e, w.store.redis.live (.playerSnapshot p) = some e →
    ∀ f v, fieldOf e.fields f = some v → Depicted w.history p f v
  reads : ∀ i, (φ i).Portrays w.history

omit [DecidableEq ι] in
theorem Album.init (h : ∀ p, w.store.redis.live (.playerSnapshot p) = none) :
    Album w fun _ => .outside := by
  refine ⟨fun p e he => ?_, fun _ => trivial⟩
  rw [h p] at he
  cases he

/-- Only the request that has loaded a state writes its fields. -/
theorem Advance.fills {φ ψ : Phase} {p : ℤ} {f v : String} {r : Bool}
    (h : Advance cfg φ (.redis (.hset (.playerSnapshot p) f v)) r ψ) :
    ∃ state, φ = .loaded p state ∧ (f, v) ∈ RedisPlayerCacheRepository.fields state := by
  cases h with
  | fill field => exact ⟨_, rfl, field⟩
  | pass harmless _ => cases harmless

/-- Every command keeps the snapshots those of their players. -/
theorem Album.snapshots_performed (h : Album w φ) {i : ι} {fault : Option String} {c : Cmd}
    {r : c.Reply} {store : Store ι} {ψ : Phase} (hadv : Advance cfg (φ i) c r ψ)
    (hp : w.store.Performed i fault c r store) (p : ℤ) (e : RedisEntry)
    (he : store.redis.live (.playerSnapshot p) = some e) (f v : String)
    (hfv : fieldOf e.fields f = some v) : Depicted w.history p f v := by
  cases c with
  | redis d =>
    obtain ⟨message, -, -, rfl⟩ | ⟨-, -, rfl⟩ := hp.redis_cases
    · exact h.snapshots p e he f v hfv
    rcases Redis.live_execute he with ⟨e', he', hvalue⟩ | ⟨u, hvalue⟩ |
      ⟨g, u, fields, rfl, hvalue, hbefore⟩
    · have hfields : e.fields = e'.fields := by rw [RedisEntry.fields, RedisEntry.fields, hvalue]
      exact h.snapshots p e' he' f v (hfields ▸ hfv)
    · simp only [RedisEntry.fields, hvalue] at hfv
      cases hfv
    · simp only [RedisEntry.fields, hvalue, fieldOf, lookup_setField] at hfv
      split at hfv
      · rename_i hf
        obtain ⟨state, hφ, hmem⟩ := hadv.fills
        have hread := h.reads i
        rw [hφ] at hread
        exact ⟨state, hread, hf ▸ Option.some.inj hfv ▸ hmem⟩
      · rcases hbefore with rfl | ⟨expires, hlive⟩
        · cases hfv
        · exact h.snapshots p _ hlive f v hfv
  | _ =>
    rw [hp.redis_eq (by intro d hd; cases hd)] at he
    exact h.snapshots p e he f v hfv

/-- What a request has read after a command. -/
theorem Album.reads_advance (h : Album w φ) {i : ι} {fault : Option String} {c : Cmd}
    {r : c.Reply} {store : Store ι} {ψ : Phase} (id time : ℕ) (hadv : Advance cfg (φ i) c r ψ)
    (hp : w.store.Performed i fault c r store) :
    ψ.Portrays (.call id ⟨c, r⟩ time :: w.history) := by
  have hi := (h.reads i).mono (List.subset_cons_self (Event.call id ⟨c, r⟩ time) w.history)
  generalize φ i = ψ₀ at hadv hi
  cases hadv with
  | pass harmless _ => exact hi
  | profile => exact ⟨id, _, time, List.mem_cons_self⟩
  | progress => exact ⟨_, _, hi, ⟨id, _, time, List.mem_cons_self, rfl⟩, rfl⟩
  | fill field => exact hi
  | fillExpire => exact hi
  | hit nonempty =>
    obtain ⟨e, hlive, hvalue⟩ := hp.hgetall_values nonempty
    intro f v hfv
    have hfields : fieldOf e.fields f = some v := by
      simpa only [RedisEntry.fields, hvalue] using hfv
    exact (h.snapshots _ e hlive f v hfields).mono (List.subset_cons_self _ _)
  | _ => trivial

theorem Album.step (h : Album w φ) (hmove : Moves env w φ l w' φ') : Album w' φ' := by
  have hhistory : ∀ {history : List Event}, w.history ⊆ history → ∀ p e,
      w.store.redis.live (.playerSnapshot p) = some e →
      ∀ f v, fieldOf e.fields f = some v → Depicted history p f v :=
    fun hsub p e he f v hfv => (h.snapshots p e he f v hfv).mono hsub
  have hrest : ∀ {history : List Event} {i : ι}, w.history ⊆ history →
      ∀ j, (Function.update φ i .outside j).Portrays history := by
    intro history i hsub j
    by_cases hj : j = i
    · subst hj
      rw [Function.update_self]
      trivial
    · rw [Function.update_of_ne hj]
      exact (h.reads j).mono hsub
  cases hmove with
  | start idle =>
    exact ⟨hhistory (List.subset_cons_self _ _),
      fun j => (h.reads j).mono (List.subset_cons_self _ _)⟩
  | exec task performed advance =>
    rename_i i fault id request trail c k r store ψ
    refine ⟨fun p e he f v hfv => (h.snapshots_performed advance performed p e he f v hfv).mono
      (List.subset_cons_self _ _), fun j => ?_⟩
    by_cases hj : j = i
    · subst hj
      rw [Function.update_self]
      exact h.reads_advance id _ advance performed
    · rw [Function.update_of_ne hj]
      exact (h.reads j).mono (List.subset_cons_self _ _)
  | finish task ends =>
    exact ⟨hhistory (List.subset_cons_self _ _), hrest (List.subset_cons_self _ _)⟩
  | crash noted =>
    rename_i i history
    have hsub : w.history ⊆ history := by
      rcases noted with rfl | ⟨task, -, rfl⟩
      · exact List.Subset.refl _
      · exact List.subset_cons_self _ _
    exact ⟨hhistory hsub, hrest hsub⟩
  | tick =>
    exact ⟨fun p e he => h.snapshots p e (Redis.live_of_tick he), h.reads⟩
  | evict =>
    rename_i k
    refine ⟨fun p e he => ?_, h.reads⟩
    by_cases hk : RedisKey.playerSnapshot p = k
    · subst hk
      exact absurd (Redis.entries_of_live he) (by simp [Store.evict])
    · exact h.snapshots p e (by rwa [Store.evict, Redis.live_put_ne hk] at he)

/-! ## What was committed -/

/-- What a request has committed. -/
def Phase.done : Phase → Option Deed
  | .committed deed => some deed
  | .invalidated deed => some deed
  | .released deed => deed
  | _ => none

/-- The deed is in the books: its battle is one of its player; if it was settled, it is
marked as such and its rewards are logged. -/
def Deed.Booked (cfg : DungeonConfig) (t : Tables) : Deed → Prop
  | .enter row => ∃ row', t.dungeonBattle.find row.battleId = some row' ∧
      row'.playerId = row.playerId
  | .settle s => (∃ row, t.dungeonBattle.find s.battleId = some row ∧ row.status = 1 ∧
      row.playerId = s.playerId) ∧ ∀ r ∈ s.rewardRows cfg, r ∈ t.rewardLog.rows

section Booked

variable {t t' : Tables} {deed deed' : Deed}

/-- Logged rewards stay. -/
theorem Transacts.rewardLog_kept (h : Transacts cfg deed t t') {r : RewardRow}
    (hr : r ∈ t.rewardLog.rows) : r ∈ t'.rewardLog.rows := by
  cases deed with
  | enter row =>
    rw [Entered.eq h]
    exact hr
  | settle s =>
    rw [Settled.rewards h]
    exact List.mem_append_left _ hr

/-- Battles stay those of their players, and settled. -/
theorem Transacts.player_kept (h : Transacts cfg deed t t') {b : String} {row : BattleRow}
    (hrow : t.dungeonBattle.find b = some row) :
    ∃ row', t'.dungeonBattle.find b = some row' ∧ row'.playerId = row.playerId ∧
      (row.status = 1 → row'.status = 1) := by
  obtain ⟨row', hrow', rfl | rfl⟩ := h.battle_kept hrow
  · exact ⟨_, hrow', rfl, id⟩
  · exact ⟨_, hrow', rfl, fun _ => rfl⟩

theorem Deed.Booked.mono (h : Transacts cfg deed' t t') (hbooked : deed.Booked cfg t) :
    deed.Booked cfg t' := by
  cases deed with
  | enter row =>
    obtain ⟨row', hrow, hp⟩ := hbooked
    obtain ⟨row'', hrow', hp', -⟩ := h.player_kept hrow
    exact ⟨row'', hrow', hp'.trans hp⟩
  | settle s =>
    obtain ⟨⟨row, hrow, hstatus, hp⟩, hlogged⟩ := hbooked
    obtain ⟨row', hrow', hp', hstatus'⟩ := h.player_kept hrow
    exact ⟨⟨row', hrow', hstatus' hstatus, hp'.trans hp⟩,
      fun r hr => h.rewardLog_kept (hlogged r hr)⟩

/-- A deed that is transacted is in the books. -/
theorem Transacts.booked (h : Transacts cfg deed t t') : deed.Booked cfg t' := by
  cases deed with
  | enter row =>
    obtain ⟨row', hrow, rfl | rfl⟩ := h.shown
    · exact ⟨_, hrow, rfl⟩
    · exact ⟨_, hrow, rfl⟩
  | settle s =>
    refine ⟨?_, fun r hr => ?_⟩
    · obtain ⟨row, hrow, -, hp, -⟩ := Settled.battle h
      refine ⟨row.finish, ?_, rfl, hp⟩
      rw [Settled.battles h, Tables.find_finishBattle, hrow]
      simp
    · rw [Settled.rewards h]
      exact List.mem_append_right _ hr

/-- A request has committed what it had committed before, or commits now. -/
theorem Advance.done {φ ψ : Phase} {c : Cmd} {r : c.Reply} (h : Advance cfg φ c r ψ)
    (hdone : ψ.done = some deed) : φ.done = some deed ∨
      ∃ done, φ = .writing deed done [] ∧ (⟨c, r⟩ : Exchange) = ⟨.sql .commit, .ok ()⟩ := by
  cases h with
  | commit => exact .inr ⟨_, by rw [← Option.some.inj hdone], rfl⟩
  | unlock exit =>
    obtain rfl := hdone
    exact .inl (Phase.invalidated_of_exit exit ▸ rfl)
  | pass _ _ | saveContext _ | expireContext | dropContext | invalidate => exact .inl hdone
  | _ => cases hdone

/-- What requests have committed is in the books. -/
theorem booked_step (h : ∀ i deed, (φ i).done = some deed →
      deed.Booked env.dungeonConfig w.store.mysql.tables) (hcore : Core env w φ)
    (hmove : Moves env w φ l w' φ') (hstep : TableStep env.dungeonConfig w w' φ φ' l) :
    ∀ i deed, (φ' i).done = some deed → deed.Booked env.dungeonConfig w'.store.mysql.tables := by
  rcases hstep with ⟨htables, hbinlog⟩ | ⟨-, -, -, rfl, htransacts, -⟩
  · rw [htables]
    have hidle : ∀ i j deed, (Function.update φ i .outside j).done = some deed →
        deed.Booked env.dungeonConfig w.store.mysql.tables := fun i j deed hdone => by
      by_cases hj : j = i
      · subst hj
        rw [Function.update_self] at hdone
        cases hdone
      · rw [Function.update_of_ne hj] at hdone
        exact h j deed hdone
    cases hmove with
    | start idle => exact h
    | exec task performed advance =>
      rename_i i fault id request trail c k r store ψ
      intro j deed hdone
      by_cases hj : j = i
      · subst hj
        rw [Function.update_self] at hdone
        rcases advance.done hdone with hdone | ⟨done, hwriting, hcall⟩
        · exact h j deed hdone
        · -- a commit does not leave the binary log alone
          cases hcall
          have hopen : w.store.mysql.txns j = some done := by
            have htxn := hcore.txn j
            rwa [hwriting] at htxn
          exact absurd ((performed.binlog_commit hopen).symm.trans hbinlog) (List.cons_ne_self _ _)
      · rw [Function.update_of_ne hj] at hdone
        exact h j deed hdone
    | finish task ends => exact hidle _
    | crash noted => exact hidle _
    | tick => exact h
    | evict => exact h
  · rename_i i fault deed'
    intro j deed hdone
    by_cases hj : j = i
    · subst hj
      rw [Function.update_self] at hdone
      exact Option.some.inj hdone ▸ htransacts.booked
    · rw [Function.update_of_ne hj] at hdone
      exact (h j deed hdone).mono htransacts

end Booked

/-! ## What responses say -/

/-- The data of the response is data of the player of the request: a state that was read
for the player; a battle of the player, and what the player's stamina leaves; the rewards
that are logged for the player's battle. -/
def Belongs (cfg : DungeonConfig) (history : List Event) (t : Tables) :
    Request → Response → Prop
  | .login _, .login response => ∃ session, response.session = some session ∧
      SessionFor session.playerId session.sessionId
  | .loadPlayer request, .loadPlayer response => ∃ state, response.playerState = some state ∧
      state.profile.playerId = request.playerId ∧
      ∀ f v, (f, v) ∈ RedisPlayerCacheRepository.fields state →
        Depicted history request.playerId f v
  | .enterDungeon request, .enterDungeon response =>
      (∃ row, t.dungeonBattle.find response.battleId = some row ∧
        row.playerId = request.playerId) ∧
      ∃ profile, ProfileRead history request.playerId profile ∧
        response.remainStamina = profile.stamina - cfg.costStamina
  | .settleDungeon request, .settleDungeon response =>
      (∃ row, t.dungeonBattle.find request.battleId = some row ∧ row.status = 1 ∧
        row.playerId = request.playerId) ∧
      ∀ reward ∈ response.rewards, ∃ row ∈ t.rewardLog.rows, row.playerId = request.playerId ∧
        row.battleId = request.battleId ∧ row.reward = reward
  | .restoreBinding sessionId p, .restoreBinding binding => binding = some (sessionId, p)
  | _, _ => False

/-- What a successful response vouches for. -/
structure Vouched (cfg : DungeonConfig) (history : List Event) (t : Tables) (request : Request)
    (response : Response) : Prop where
  session : ∀ sessionId p, request.claims = some (sessionId, p) → SessionFor p sessionId
  belongs : Belongs cfg history t request response

section Responses

variable {history history' : List Event} {t t' : Tables} {request : Request} {response : Response}

theorem Belongs.mono (hsub : history ⊆ history')
    (ht : t' = t ∨ ∃ deed, Transacts cfg deed t t') (h : Belongs cfg history t request response) :
    Belongs cfg history' t' request response := by
  have hbattle : ∀ {b row}, t.dungeonBattle.find b = some row →
      ∃ row', t'.dungeonBattle.find b = some row' ∧ row'.playerId = row.playerId ∧
        (row.status = 1 → row'.status = 1) := by
    intro b row hrow
    rcases ht with rfl | ⟨deed, ht⟩
    · exact ⟨row, hrow, rfl, id⟩
    · exact ht.player_kept hrow
  have hlog : ∀ row ∈ t.rewardLog.rows, row ∈ t'.rewardLog.rows := by
    intro row hrow
    rcases ht with rfl | ⟨deed, ht⟩
    · exact hrow
    · exact ht.rewardLog_kept hrow
  cases request <;> cases response <;> try exact h.elim
  case login.login => exact h
  case restoreBinding.restoreBinding => exact h
  case loadPlayer.loadPlayer =>
    obtain ⟨state, hstate, hp, hdepicted⟩ := h
    exact ⟨state, hstate, hp, fun f v hfv => (hdepicted f v hfv).mono hsub⟩
  case enterDungeon.enterDungeon =>
    obtain ⟨⟨row, hrow, hp⟩, profile, hread, hremain⟩ := h
    obtain ⟨row', hrow', hp', -⟩ := hbattle hrow
    exact ⟨⟨row', hrow', hp'.trans hp⟩, profile, hread.mono hsub, hremain⟩
  case settleDungeon.settleDungeon =>
    obtain ⟨⟨row, hrow, hstatus, hp⟩, hrewards⟩ := h
    obtain ⟨row', hrow', hp', hstatus'⟩ := hbattle hrow
    refine ⟨⟨row', hrow', hstatus' hstatus, hp'.trans hp⟩, fun reward hreward => ?_⟩
    obtain ⟨r, hr, hrest⟩ := hrewards reward hreward
    exact ⟨r, hlog r hr, hrest⟩

theorem Vouched.mono (hsub : history ⊆ history')
    (ht : t' = t ∨ ∃ deed, Transacts cfg deed t t') (h : Vouched cfg history t request response) :
    Vouched cfg history' t' request response :=
  ⟨h.session, h.belongs.mono hsub ht⟩

end Responses

/-! ### At the end of a request -/

/-- A profile that a request has been shown was read. -/
theorem profile_of_path {sessionId : String} {p : ℤ} {trail : List Exchange} {ψ : Clearance}
    {profile : PlayerProfile} (h : Path (Clears (some (sessionId, p))) .unchecked trail ψ)
    (hψ : ψ = .cleared (some profile)) :
    ∃ rows, (⟨.sql (.select (.profile p)), some (profile :: rows)⟩ : Exchange) ∈ trail := by
  induction h with
  | nil => cases hψ
  | cons path advance ih =>
    cases advance with
    | accept decoded player => cases hψ
    | refuse => cases hψ
    | act =>
      obtain ⟨rows, hmem⟩ := ih hψ
      exact ⟨rows, List.mem_cons_of_mem _ hmem⟩
    | read =>
      cases hψ
      exact ⟨_, List.mem_cons_self⟩

/-- A cached state is one of the player it is stored for. -/
theorem playerId_of_depicted {p : ℤ} {state : PlayerState} {history : List Event}
    (hasked : ∀ profile, ProfileRead history p profile → profile.playerId = p)
    (h : ∀ f v, (f, v) ∈ RedisPlayerCacheRepository.fields state → Depicted history p f v) :
    state.profile.playerId = p := by
  obtain ⟨portrait, ⟨profile, rows, hprofile, -, rfl⟩, hmem⟩ :=
    h "player_id" (toString state.profile.playerId) (by simp [RedisPlayerCacheRepository.fields])
  have hid : toString state.profile.playerId = toString profile.playerId := by
    simpa [RedisPlayerCacheRepository.fields, stateOf] using hmem
  exact (toString_inj hid).trans (hasked profile hprofile)

variable {ok : World ι → Label ι → Prop}

/-- The profiles that were read are those that were asked for. -/
theorem World.Run.profileRead (hhistory : w₀.history = []) (h : World.Run env ok w₀ w) {p : ℤ}
    {profile : PlayerProfile} (hread : ProfileRead w.history p profile) : profile.playerId = p := by
  have hasked : ∀ id (x : Exchange) time, Event.call id x time ∈ w.history →
      x.1.Plausible x.2 := by
    refine h.invariant (I := fun w => ∀ id (x : Exchange) time,
      Event.call id x time ∈ w.history → x.1.Plausible x.2) ?_ ?_
    · intro id x time hmem
      rw [hhistory] at hmem
      cases hmem
    intro w l w' _ hI _ hs id x time hmem
    cases does_of_step hs with
    | exec task performed =>
      rcases List.mem_cons.mp hmem with heq | hmem
      · cases heq
        exact Store.plausible_of_perform performed
      · exact hI id x time hmem
    | start idle | finish task | stop running =>
      exact hI id x time ((List.mem_cons.mp hmem).resolve_left nofun)
    | restart idle | tick | evict => exact hI id x time hmem
  obtain ⟨id, rows, time, hmem⟩ := hread
  exact hasked id _ time hmem _ rfl profile List.mem_cons_self

omit [DecidableEq ι] in
/-- A successful response vouches for what it says when it is returned. -/
theorem vouched_of_ends (hphased : Phased env w φ) (halbum : Album w φ)
    (hbooked : ∀ i deed, (φ i).done = some deed →
      deed.Booked env.dungeonConfig w.store.mysql.tables)
    (hrecorded : Recorded w)
    (hprofile : ∀ p profile, ProfileRead w.history p profile → profile.playerId = p)
    {i : ι} {id : ℕ} {request : Request} {trail : List Exchange} {response : Response}
    (htask : w.tasks i = some ⟨id, request, trail, .ret response⟩) {ψ : Clearance}
    (hpath : Path (Clears request.claims) .unchecked trail ψ)
    (hcertifies : Certifies env.dungeonConfig request response ψ)
    (hsession : ∀ sessionId p profile, request.claims = some (sessionId, p) →
      ψ = .cleared profile → SessionFor p sessionId)
    (hsuccess : response.success = true) :
    Vouched env.dungeonConfig w.history w.store.mysql.tables request response := by
  have hends : Ends env.dungeonConfig request response (φ i) := hphased.obeys i _ htask
  have hreads := halbum.reads i
  cases request <;> cases response <;> try exact hcertifies.elim
  case login.login request response => exact ⟨nofun, hcertifies hsuccess⟩
  case restoreBinding.restoreBinding sessionId p binding =>
    -- here a binding is the success
    obtain ⟨b, rfl⟩ := Option.isSome_iff_exists.mp hsuccess
    obtain ⟨rfl, profile, hψ⟩ := hcertifies b rfl
    refine ⟨fun sessionId' p' hclaims => hsession sessionId' p' profile hclaims hψ, rfl⟩
  case loadPlayer.loadPlayer request response =>
    obtain ⟨profile, hψ⟩ := hcertifies hsuccess
    refine ⟨fun sessionId p hclaims => hsession sessionId p profile hclaims hψ, ?_⟩
    -- the state is loaded from MySQL or decoded from the snapshot
    have hdepicted : ∃ state, response.playerState = some state ∧
        ∀ f v, (f, v) ∈ RedisPlayerCacheRepository.fields state →
          Depicted w.history request.playerId f v := by
      obtain ⟨state, hstate, hφ | ⟨values, hφ, hdecode⟩⟩ := hends.2.2 hsuccess
      · rw [hφ] at hreads
        exact ⟨state, hstate, fun f v hfv => ⟨state, hreads, hfv⟩⟩
      · rw [hφ] at hreads
        exact ⟨state, hstate, depicted_of_decode hreads hdecode⟩
    obtain ⟨state, hstate, hstate'⟩ := hdepicted
    exact ⟨state, hstate, playerId_of_depicted (hprofile _) hstate', hstate'⟩
  case enterDungeon.enterDungeon request response =>
    obtain ⟨profile, hψ, hremain⟩ := hcertifies hsuccess
    refine ⟨fun sessionId p hclaims => hsession sessionId p _ hclaims hψ, ?_, profile, ?_, hremain⟩
    · exact hbooked i _ (by rw [hends.1 hsuccess]; rfl)
    · obtain ⟨rows, hmem⟩ := profile_of_path hpath hψ
      obtain ⟨time, hcall⟩ := (hrecorded.trail i _ htask _).mp hmem
      exact ⟨id, rows, time, hcall⟩
  case settleDungeon.settleDungeon request response =>
    obtain ⟨⟨profile, hψ⟩, hrewards⟩ := hcertifies hsuccess
    refine ⟨fun sessionId p hclaims => hsession sessionId p profile hclaims hψ, ?_⟩
    obtain ⟨hbattle, hlogged⟩ := hbooked i _ (by rw [hends.1 hsuccess]; rfl)
    refine ⟨hbattle, fun reward hreward => ?_⟩
    rw [hrewards] at hreward
    obtain ⟨row, hrow, rfl⟩ := List.mem_map.mp hreward
    obtain ⟨hp, hb⟩ := of_mem_rewardRows hrow
    exact ⟨row, hlogged row hrow, hp, hb, rfl⟩

/-! ### Along runs -/

/-- The snapshots, the books and the answers are those of the players they are for. -/
structure Custody (env : Env) (w : World ι) (φ : ι → Phase) : Prop where
  album : Album w φ
  booked : ∀ i deed, (φ i).done = some deed → deed.Booked env.dungeonConfig w.store.mysql.tables
  vouched : ∀ id request response, Event.finish id request response ∈ w.history →
    response.success = true →
    Vouched env.dungeonConfig w.history w.store.mysql.tables request response

/-- A step adds at most one event to the history, a response only at the end of its
request. -/
theorem Moves.history (h : Moves env w φ l w' φ') : w'.history = w.history ∨
    ∃ e, w'.history = e :: w.history ∧ ∀ id request response, e = .finish id request response →
      ∃ i trail, w.tasks i = some ⟨id, request, trail, .ret response⟩ := by
  cases h with
  | start idle => exact .inr ⟨_, rfl, fun _ _ _ heq => by cases heq⟩
  | exec task performed advance => exact .inr ⟨_, rfl, fun _ _ _ heq => by cases heq⟩
  | finish task ends =>
    refine .inr ⟨_, rfl, fun id request response heq => ?_⟩
    cases heq
    exact ⟨_, _, task⟩
  | crash noted =>
    rcases noted with rfl | ⟨task, -, rfl⟩
    · exact .inl rfl
    · exact .inr ⟨_, rfl, fun _ _ _ heq => by cases heq⟩
  | tick | evict => exact .inl rfl

/-- **Whose data it is.** In every run that starts without sessions and snapshots, and in
which no `ROLLBACK` fails, everything is that of the player it is for. -/
theorem World.Run.custody (hw₀ : w₀.Fresh)
    (hsessions : ∀ sessionId, w₀.store.redis.live (.session sessionId) = none)
    (hsnapshots : ∀ p, w₀.store.redis.live (.playerSnapshot p) = none)
    (hroll : ∀ w l, ok w l → ¬w.Fails l (.sql .rollback)) (h : World.Run env ok w₀ w) :
    ∃ φ, Phased env w φ ∧ Core env w φ ∧ Custody env w φ := by
  refine h.core hw₀ hroll ⟨.init hsnapshots, nofun, fun id request response hmem => ?_⟩ ?_
  · rw [hw₀.history] at hmem
    cases hmem
  intro w φ l w' φ' hr hphased hcore hI _ hmove _ hstep
  refine ⟨hI.album.step hmove, booked_step hI.booked hcore hmove hstep, ?_⟩
  -- what was vouched for stays vouched for, so only a new response has to be looked at
  have htables : w'.store.mysql.tables = w.store.mysql.tables ∨
      ∃ deed, Transacts env.dungeonConfig deed w.store.mysql.tables w'.store.mysql.tables := by
    rcases hstep with ⟨htables, -⟩ | ⟨-, -, -, -, htransacts, -⟩
    · exact .inl htables
    · exact .inr ⟨_, htransacts⟩
  intro id request response hmem hsuccess
  rcases hmove.history with heq | ⟨e, heq, hfinish⟩
  · rw [heq] at hmem ⊢
    exact (hI.vouched id request response hmem hsuccess).mono (List.Subset.refl _) htables
  · rw [heq] at hmem ⊢
    refine Vouched.mono (List.subset_cons_self e w.history) htables ?_
    rcases List.mem_cons.mp hmem with rfl | hmem
    · obtain ⟨i, trail, htask⟩ := hfinish id request response rfl
      obtain ⟨ψ, hpath, hclears, hsession⟩ := World.Run.clears hw₀.tasks hsessions hr htask
      exact vouched_of_ends hphased hI.album hI.booked (World.Run.recorded hw₀ hr)
        (fun p profile => World.Run.profileRead hw₀.history hr) htask hpath hclears hsession
        hsuccess
    · exact hI.vouched id request response hmem hsuccess

end GameBackend
