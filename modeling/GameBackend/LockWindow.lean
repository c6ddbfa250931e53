import GameBackend.Services

/-!
# The lock window

`DungeonService` releases the player lock by hand at each of its exits. Here its two
methods are programs over the calls they make on their collaborators, release by release
as in the source, and whatever the collaborators answer they keep to one window:

* outside of it the session and the configuration are looked at;
* it opens with an `Acquire` that succeeds and closes with the `Release`, the last call;
* between the two the player, the battle and its context are read and written, and what
  depends on the transaction waits for it.

`WindowStep` allows a call in a phase, `InPhase` is what the calls so far look like, and
`LockWindow` is read off the last one. `implement_enterDungeon` and
`implement_settleDungeon` say that with the collaborators of the server these are the
methods of `Services`, where each body has one release behind it.
-/

namespace GameBackend

/-! ## The collaborators -/

/-- A call of `DungeonService` on one of its collaborators. -/
inductive CollaboratorCall where
  /-- `SessionRepository::FindById` -/
  | findById (sessionId : String)
  /-- `DungeonConfigRepository::FindByDungeonId` -/
  | findByDungeonId (dungeonId : ℤ)
  /-- `PlayerLockRepository::Acquire` -/
  | acquire (playerId : ℤ)
  /-- `PlayerLockRepository::Release` -/
  | release (playerId : ℤ)
  /-- `PlayerRepository::LoadPlayerState` -/
  | loadPlayerState (playerId : ℤ)
  /-- `sequence_++` -/
  | fetchAddSequence
  /-- `MySqlDungeonRepository::EnterDungeon` -/
  | enterDungeon (playerState : PlayerState) (config : DungeonConfig) (battleId : String)
  /-- `MySqlDungeonRepository::SettleDungeon` -/
  | settleDungeon (battleContext : BattleContext) (config : DungeonConfig) (star : ℤ)
  /-- `MySqlDungeonRepository::FindBattleById` -/
  | findBattleById (battleId : String)
  /-- `BattleContextRepository::FindByBattleId` -/
  | findByBattleId (battleId : String)
  /-- `BattleContextRepository::Save` -/
  | save (battleContext : BattleContext)
  /-- `BattleContextRepository::Delete` -/
  | delete (battleId : String)
  /-- `PlayerCacheRepository::Invalidate` -/
  | invalidate (playerId : ℤ)
  deriving DecidableEq, Repr

namespace CollaboratorCall

/-- What the call returns. -/
abbrev Reply : CollaboratorCall → Type
  | findById _ => Option Session
  | findByDungeonId _ => Option DungeonConfig
  | acquire _ => Bool
  | release _ => Unit
  | loadPlayerState _ => Option PlayerState
  | fetchAddSequence => UInt64
  | enterDungeon _ _ _ => EnterDungeonResult
  | settleDungeon _ _ _ => SettleDungeonResult
  | findBattleById _ => Option BattleContext
  | findByBattleId _ => Option BattleContext
  | save _ => Bool
  | delete _ => Bool
  | invalidate _ => Bool

/-- Calls that read or write the player, a battle or its context, or invalidate the
snapshot. -/
def guarded : CollaboratorCall → Bool
  | loadPlayerState _ => true
  | enterDungeon _ _ _ => true
  | settleDungeon _ _ _ => true
  | findBattleById _ => true
  | findByBattleId _ => true
  | save _ => true
  | delete _ => true
  | invalidate _ => true
  | _ => false

/-- Calls that write or delete a battle context or invalidate the snapshot. -/
def publishes : CollaboratorCall → Bool
  | save _ => true
  | delete _ => true
  | invalidate _ => true
  | _ => false

/-- The player whose lock a call is about. -/
def lock : CollaboratorCall → Option ℤ
  | acquire playerId => some playerId
  | release playerId => some playerId
  | _ => none

end CollaboratorCall

/-! ## The methods -/

/-- A method over its collaborators. -/
abbrev Method (α : Type) : Type := Prog CollaboratorCall CollaboratorCall.Reply α

namespace Method

open DungeonService (refuseEnter refuseSettle enterErrorCode settleErrorCode battleIdText)

/-- Call a collaborator. -/
def on (c : CollaboratorCall) : Method c.Reply := Prog.send (R := CollaboratorCall.Reply) c

/-- `DungeonService::GenerateBattleId` -/
def generateBattleId (playerId dungeonId : ℤ) : Method String := do
  return battleIdText playerId dungeonId (← on .fetchAddSequence)

/-- `DungeonService::AcquirePlayerLock` -/
def acquirePlayerLock (playerId : ℤ) : Method Bool := on (.acquire playerId)

/-- `DungeonService::ReleasePlayerLock` -/
def releasePlayerLock (playerId : ℤ) : Method Unit := on (.release playerId)

/-- `DungeonService::EnterDungeon` -/
def enterDungeon (request : EnterDungeonRequest) : Method EnterDungeonResponse := do
  let session ← on (.findById request.sessionId)
  if session.map Session.playerId ≠ some request.playerId then
    return refuseEnter .sessionInvalid "session invalid"
  match ← on (.findByDungeonId request.dungeonId) with
  | none => return refuseEnter .dungeonNotFound "dungeon config not found"
  | some config =>
    if !(← acquirePlayerLock request.playerId) then
      return refuseEnter .playerBusy "player is busy"
    match ← on (.loadPlayerState request.playerId) with
    | none =>
      releasePlayerLock request.playerId
      return refuseEnter .playerNotFound "player not found"
    | some playerState =>
      if playerState.profile.level < config.requiredLevel then
        releasePlayerLock request.playerId
        return refuseEnter .dungeonLocked "player level not enough"
      if playerState.profile.stamina < config.costStamina then
        releasePlayerLock request.playerId
        return refuseEnter .staminaNotEnough "stamina not enough"
      let battleId ← generateBattleId request.playerId request.dungeonId
      let result ← on (.enterDungeon playerState config battleId)
      if !result.success then
        releasePlayerLock request.playerId
        return refuseEnter (enterErrorCode result.errorMessage) result.errorMessage
      let _ ← on (.save result.battleContext)
      let _ ← on (.invalidate request.playerId)
      releasePlayerLock request.playerId
      return ⟨true, .ok, "", battleId, result.remainStamina⟩

/-- The battle of a settlement: from its context, else from its row. -/
def findBattle (battleId : String) : Method (Option BattleContext) := do
  match ← on (.findByBattleId battleId) with
  | some battleContext => return some battleContext
  | none => on (.findBattleById battleId)

/-- `DungeonService::SettleDungeon` -/
def settleDungeon (request : SettleDungeonRequest) : Method SettleDungeonResponse := do
  if !request.result then
    return refuseSettle .storageError "only success settlement is supported in demo"
  let session ← on (.findById request.sessionId)
  if session.map Session.playerId ≠ some request.playerId then
    return refuseSettle .sessionInvalid "session invalid"
  match ← on (.findByDungeonId request.dungeonId) with
  | none => return refuseSettle .dungeonNotFound "dungeon config not found"
  | some config =>
    if request.star ≤ 0 ∨ request.star > config.maxStar then
      return refuseSettle .invalidStar "star is out of range"
    if !(← acquirePlayerLock request.playerId) then
      return refuseSettle .playerBusy "player is busy"
    match ← findBattle request.battleId with
    | none =>
      releasePlayerLock request.playerId
      return refuseSettle .battleNotFound "battle not found"
    | some battleContext =>
      if battleContext.playerId ≠ request.playerId ∨
          battleContext.dungeonId ≠ request.dungeonId then
        releasePlayerLock request.playerId
        return refuseSettle .battleMismatch "battle context mismatch"
      if battleContext.settled then
        releasePlayerLock request.playerId
        return refuseSettle .battleAlreadySettled "battle already settled"
      let result ← on (.settleDungeon battleContext config request.star)
      if !result.success then
        releasePlayerLock request.playerId
        return refuseSettle (settleErrorCode result.errorMessage) result.errorMessage
      let _ ← on (.delete request.battleId)
      let _ ← on (.invalidate request.playerId)
      releasePlayerLock request.playerId
      return ⟨true, .ok, "", result.firstClear, result.rewards⟩

end Method

/-! ## The window -/

/-- A call and what it returned. -/
abbrev Collaboration : Type := Call CollaboratorCall CollaboratorCall.Reply

namespace Collaboration

/-- An `Acquire` that returned true. -/
def acquires : Collaboration → Bool
  | ⟨.acquire _, acquired⟩ => acquired
  | _ => false

/-- A `Release`. -/
def releases : Collaboration → Bool
  | ⟨.release _, _⟩ => true
  | _ => false

/-- A transaction the repository reported as committed. -/
def commits : Collaboration → Bool
  | ⟨.enterDungeon _ _ _, result⟩ => result.success
  | ⟨.settleDungeon _ _ _, result⟩ => result.success
  | _ => false

end Collaboration

open Collaboration (acquires releases commits)

/-- How the calls of a method, the newest last, use the lock of its player. -/
structure LockWindow (playerId : ℤ) (trace : List Collaboration) : Prop where
  /-- no lock but that of the player is touched -/
  lock : ∀ e ∈ trace, ∀ p ∈ e.1.lock, p = playerId
  /-- the lock is acquired once at most -/
  acquired : trace.countP acquires ≤ 1
  /-- it is released once if it was acquired, else not at all -/
  released : trace.countP releases = if trace.any acquires then 1 else 0
  /-- nothing comes after the release -/
  last : ∀ front e back, trace = front ++ e :: back → e.releases = true → back = []
  /-- what the lock protects is touched while it is held -/
  window : ∀ front e back, trace = front ++ e :: back → e.1.guarded = true →
    front.any acquires = true ∧ front.any releases = false ∧ back.any releases = true
  /-- the context is written or deleted and the snapshot invalidated after a commit -/
  committed : ∀ front e back, trace = front ++ e :: back → e.1.publishes = true →
    front.any commits = true

/-! ## Phases -/

/-- Where a method is. -/
inductive WindowPhase where
  /-- without the lock -/
  | outside
  /-- with the lock, before or after the commit -/
  | held (committed : Bool)
  /-- it has given the lock back -/
  | done
  deriving DecidableEq, Repr

/-- A call that leaves it open who has the lock: neither a release nor an `Acquire` that
succeeds. -/
structure Quiet (playerId : ℤ) (e : Collaboration) : Prop where
  acquires : e.acquires = false
  releases : e.releases = false
  lock : ∀ p ∈ e.1.lock, p = playerId

/-- The calls a method may make in a phase, and the phase they lead to. -/
inductive WindowStep (playerId : ℤ) :
    WindowPhase → (c : CollaboratorCall) → c.Reply → WindowPhase → Prop where
  /-- a look at what the lock does not protect, or an `Acquire` that fails -/
  | outside {c : CollaboratorCall} {r : c.Reply} : Quiet playerId ⟨c, r⟩ → c.guarded = false →
      WindowStep playerId .outside c r .outside
  /-- the window opens -/
  | acquire : WindowStep playerId .outside (.acquire playerId) true (.held false)
  /-- in the window; what is published waits for the commit -/
  | inside {committed : Bool} {c : CollaboratorCall} {r : c.Reply} : Quiet playerId ⟨c, r⟩ →
      (c.publishes = true → committed = true) →
      WindowStep playerId (.held committed) c r
        (.held (committed || Collaboration.commits ⟨c, r⟩))
  /-- the window closes -/
  | release {committed : Bool} :
      WindowStep playerId (.held committed) (.release playerId) () .done

/-- Calls outside of the window. -/
def Without (playerId : ℤ) (trace : List Collaboration) : Prop :=
  ∀ e ∈ trace, Quiet playerId e ∧ e.1.guarded = false

/-- Calls in the window, up to the commit or past it. -/
structure Within (playerId : ℤ) (trace : List Collaboration) (committed : Bool) : Prop where
  quiet : ∀ e ∈ trace, Quiet playerId e
  published : ∀ front e back, trace = front ++ e :: back → e.1.publishes = true →
    front.any commits = true
  commits : committed = true → trace.any commits = true

/-- What the calls of a method look like in a phase. -/
def InPhase (playerId : ℤ) (trace : List Collaboration) : WindowPhase → Prop
  | .outside => Without playerId trace
  | .held committed => ∃ before inside, trace = before ++ ⟨.acquire playerId, true⟩ :: inside ∧
      Without playerId before ∧ Within playerId inside committed
  | .done => ∃ before inside committed,
      trace = before ++ ⟨.acquire playerId, true⟩ :: (inside ++ [⟨.release playerId, ()⟩]) ∧
        Without playerId before ∧ Within playerId inside committed

variable {playerId : ℤ} {trace : List Collaboration}

theorem Within.nil : Within playerId [] false where
  quiet _ he := absurd he List.not_mem_nil
  published front e back h := by simp at h
  commits h := absurd h Bool.false_ne_true

theorem Within.snoc {committed : Bool} {e : Collaboration} (h : Within playerId trace committed)
    (hquiet : Quiet playerId e) (hpublishes : e.1.publishes = true → committed = true) :
    Within playerId (trace ++ [e]) (committed || e.commits) where
  quiet e' he' := by
    rcases List.mem_append.mp he' with htrace | hlast
    · exact h.quiet e' htrace
    · rw [List.mem_singleton.mp hlast]
      exact hquiet
  published front e' back heq hpublished := by
    rcases List.eq_nil_or_concat back with rfl | ⟨back, x, rfl⟩
    · -- the new call
      obtain ⟨rfl, hlast⟩ := List.append_inj' heq rfl
      obtain rfl := List.head_eq_of_cons_eq hlast
      exact h.commits (hpublishes hpublished)
    · have hconcat : trace ++ [e] = (front ++ e' :: back) ++ [x] := by simpa using heq
      exact h.published front e' back (List.append_inj_left' hconcat rfl) hpublished
  commits hcommitted := by
    rw [List.any_append, Bool.or_eq_true]
    rcases Bool.or_eq_true_iff.mp hcommitted with hbefore | hnow
    · exact .inl (h.commits hbefore)
    · exact .inr (by simpa using hnow)

/-- The step lemma. -/
theorem InPhase.step {φ φ' : WindowPhase} {c : CollaboratorCall} {r : c.Reply}
    (h : InPhase playerId trace φ) (hstep : WindowStep playerId φ c r φ') :
    InPhase playerId (trace ++ [⟨c, r⟩]) φ' := by
  cases hstep with
  | outside hquiet hguarded =>
    intro e he
    rcases List.mem_append.mp he with htrace | hlast
    · exact h e htrace
    · rw [List.mem_singleton.mp hlast]
      exact ⟨hquiet, hguarded⟩
  | acquire => exact ⟨trace, [], rfl, h, .nil⟩
  | inside hquiet hpublishes =>
    obtain ⟨before, inside, rfl, hbefore, hinside⟩ := h
    exact ⟨before, _, by simp, hbefore, hinside.snoc hquiet hpublishes⟩
  | release =>
    obtain ⟨before, inside, rfl, hbefore, hinside⟩ := h
    exact ⟨before, inside, _, by simp, hbefore, hinside⟩

/-! ## The window of a whole trace -/

/-- Where a call of a closed window is. -/
theorem split_window {α : Type} {before inside front back : List α} {a z e : α}
    (h : before ++ a :: (inside ++ [z]) = front ++ e :: back) :
    e ∈ before ∨ e = a ∨
      (∃ i₁ i₂, inside = i₁ ++ e :: i₂ ∧ front = before ++ a :: i₁ ∧ back = i₂ ++ [z]) ∨
      (e = z ∧ back = []) := by
  rcases List.append_eq_append_iff.mp h with ⟨as, rfl, has⟩ | ⟨cs, rfl, hcs⟩
  · cases as with
    | nil => exact .inr (.inl (List.head_eq_of_cons_eq has).symm)
    | cons b as =>
      obtain ⟨rfl, hrest⟩ := List.cons_eq_cons.mp has
      rcases List.append_eq_append_iff.mp hrest with ⟨bs, rfl, hbs⟩ | ⟨ds, rfl, hds⟩
      · -- the call is not in the window any more
        cases bs with
        | nil =>
          obtain ⟨rfl, rfl⟩ := List.cons_eq_cons.mp hbs
          exact .inr (.inr (.inr ⟨rfl, rfl⟩))
        | cons b bs => simp at hbs
      · cases ds with
        | nil =>
          obtain ⟨rfl, rfl⟩ := List.cons_eq_cons.mp hds
          exact .inr (.inr (.inr ⟨rfl, rfl⟩))
        | cons d ds =>
          obtain ⟨rfl, rfl⟩ := List.cons_eq_cons.mp hds
          exact .inr (.inr (.inl ⟨as, ds, rfl, rfl, rfl⟩))
  · cases cs with
    | nil => exact .inr (.inl (List.head_eq_of_cons_eq hcs))
    | cons c cs =>
      obtain ⟨rfl, -⟩ := List.cons_eq_cons.mp hcs
      exact .inl (by simp)

theorem countP_eq_zero {p : Collaboration → Bool} (h : ∀ e ∈ trace, p e = false) :
    trace.countP p = 0 :=
  List.countP_eq_zero.mpr fun e he => by simp [h e he]

theorem any_eq_false {p : Collaboration → Bool} (h : ∀ e ∈ trace, p e = false) :
    trace.any p = false :=
  List.any_eq_false.mpr fun e he => by simp [h e he]

/-- A call that publishes is one the lock protects. -/
theorem CollaboratorCall.guarded_of_publishes {c : CollaboratorCall} (h : c.publishes = true) :
    c.guarded = true := by
  cases c <;> first | rfl | cases h

/-- A method that has not got the lock has not released it either. -/
theorem Without.lockWindow (h : Without playerId trace) : LockWindow playerId trace where
  lock e he := (h e he).1.lock
  acquired := by rw [countP_eq_zero fun e he => (h e he).1.acquires]; exact Nat.zero_le 1
  released := by
    rw [countP_eq_zero fun e he => (h e he).1.releases,
      any_eq_false fun e he => (h e he).1.acquires]
    rfl
  last front e back heq hreleases := by
    have he : e ∈ trace := heq ▸ List.mem_append_right _ List.mem_cons_self
    rw [(h e he).1.releases] at hreleases
    cases hreleases
  window front e back heq hguarded := by
    have he : e ∈ trace := heq ▸ List.mem_append_right _ List.mem_cons_self
    rw [(h e he).2] at hguarded
    cases hguarded
  committed front e back heq hpublishes := by
    have he : e ∈ trace := heq ▸ List.mem_append_right _ List.mem_cons_self
    have hguarded := CollaboratorCall.guarded_of_publishes hpublishes
    rw [(h e he).2] at hguarded
    cases hguarded

/-- A call of a closed window that touches what the lock protects is inside of it. -/
theorem Without.split_guarded {before inside front back : List Collaboration} {e : Collaboration}
    (hbefore : Without playerId before) (hguarded : e.1.guarded = true)
    (h : before ++ ⟨.acquire playerId, true⟩ :: (inside ++ [⟨.release playerId, ()⟩]) =
      front ++ e :: back) :
    ∃ i₁ i₂, inside = i₁ ++ e :: i₂ ∧ front = before ++ ⟨.acquire playerId, true⟩ :: i₁ ∧
      back = i₂ ++ [⟨.release playerId, ()⟩] := by
  rcases split_window h with hmem | rfl | hinside | ⟨rfl, -⟩
  · rw [(hbefore e hmem).2] at hguarded
    cases hguarded
  · cases hguarded
  · exact hinside
  · cases hguarded

/-- A method that has closed its window. -/
theorem Within.lockWindow {before inside : List Collaboration} {committed : Bool}
    (hbefore : Without playerId before) (hinside : Within playerId inside committed) :
    LockWindow playerId
      (before ++ ⟨.acquire playerId, true⟩ :: (inside ++ [⟨.release playerId, ()⟩])) where
  lock e he := by
    rcases List.mem_append.mp he with hmem | hrest
    · exact (hbefore e hmem).1.lock
    rcases List.mem_cons.mp hrest with rfl | hrest
    · exact fun p hp => (Option.some.inj hp).symm
    rcases List.mem_append.mp hrest with hmem | hlast
    · exact (hinside.quiet e hmem).lock
    · obtain rfl := List.mem_singleton.mp hlast
      exact fun p hp => (Option.some.inj hp).symm
  acquired := by
    have hbefore₀ := countP_eq_zero fun e he => (hbefore e he).1.acquires
    have hinside₀ := countP_eq_zero fun e he => (hinside.quiet e he).acquires
    rw [List.countP_append, List.countP_cons, List.countP_append, hbefore₀, hinside₀]
    exact le_rfl
  released := by
    have hbefore₀ := countP_eq_zero fun e he => (hbefore e he).1.releases
    have hinside₀ := countP_eq_zero fun e he => (hinside.quiet e he).releases
    have hacquired : List.any (before ++ (⟨.acquire playerId, true⟩ : Collaboration) ::
        (inside ++ [(⟨.release playerId, ()⟩ : Collaboration)])) acquires = true :=
      List.any_eq_true.mpr ⟨_, List.mem_append_right _ List.mem_cons_self, rfl⟩
    rw [hacquired, List.countP_append, List.countP_cons, List.countP_append, hbefore₀, hinside₀]
    rfl
  last front e back heq hreleases := by
    rcases split_window heq with hmem | rfl | ⟨i₁, i₂, rfl, -, -⟩ | ⟨-, hback⟩
    · rw [(hbefore e hmem).1.releases] at hreleases
      cases hreleases
    · cases hreleases
    · rw [(hinside.quiet e (by simp)).releases] at hreleases
      cases hreleases
    · exact hback
  window front e back heq hguarded := by
    obtain ⟨i₁, i₂, rfl, rfl, rfl⟩ := hbefore.split_guarded hguarded heq
    have hbefore₀ := any_eq_false fun e he => (hbefore e he).1.releases
    have hinside₀ := any_eq_false fun e' (he' : e' ∈ i₁) =>
      (hinside.quiet e' (List.mem_append_left _ he')).releases
    refine ⟨?_, ?_, ?_⟩
    · exact List.any_eq_true.mpr ⟨_, List.mem_append_right _ List.mem_cons_self, rfl⟩
    · rw [List.any_append, List.any_cons, hbefore₀, hinside₀]
      rfl
    · exact List.any_eq_true.mpr ⟨_, List.mem_append_right _ (List.mem_singleton_self _), rfl⟩
  committed front e back heq hpublishes := by
    obtain ⟨i₁, i₂, rfl, rfl, rfl⟩ :=
      hbefore.split_guarded (CollaboratorCall.guarded_of_publishes hpublishes) heq
    rw [List.any_append, List.any_cons, hinside.published i₁ e i₂ rfl hpublishes, Bool.or_true,
      Bool.or_true]

/-! ## The methods keep to it -/

/-- A method that has returned is outside of its window: it never opened it, or it has
closed it. -/
def WindowPhase.Ended (φ : WindowPhase) : Prop := φ = .outside ∨ φ = .done

theorem InPhase.lockWindow {φ : WindowPhase} (h : InPhase playerId trace φ) (hφ : φ.Ended) :
    LockWindow playerId trace := by
  rcases hφ with rfl | rfl
  · exact Without.lockWindow h
  · obtain ⟨before, inside, committed, rfl, hbefore, hinside⟩ := h
    exact Within.lockWindow hbefore hinside

/-- From the phase `φ` the method keeps to the window of the player, whatever its
collaborators return. -/
def Method.Keeps {α : Type} (playerId : ℤ) (m : Method α) (φ : WindowPhase) : Prop :=
  Follows (fun _ _ => True) (WindowStep playerId) (fun _ => False) (fun _ φ' => φ'.Ended) m φ

theorem Quiet.of_lock {c : CollaboratorCall} (h : c.lock = none) (r : c.Reply) :
    Quiet playerId ⟨c, r⟩ := by
  cases c with
  | acquire p => cases h
  | release p => cases h
  | _ => exact ⟨rfl, rfl, nofun⟩

namespace Method

variable {α : Type} {committed : Bool}

/-- A look at what the lock does not protect. -/
theorem keeps_outside {c : CollaboratorCall} {k : c.Reply → Method α} (hlock : c.lock = none)
    (hguarded : c.guarded = false) (hk : ∀ r, (k r).Keeps playerId .outside) :
    (on c >>= k).Keeps playerId .outside :=
  fun r _ => ⟨.outside, .outside (.of_lock hlock r) hguarded, hk r⟩

/-- A call under the lock. -/
theorem keeps_inside {c : CollaboratorCall} {k : c.Reply → Method α} (hlock : c.lock = none)
    (hpublishes : c.publishes = true → committed = true)
    (hk : ∀ r, (k r).Keeps playerId (.held (committed || commits ⟨c, r⟩))) :
    (on c >>= k).Keeps playerId (.held committed) :=
  fun r _ => ⟨_, .inside (.of_lock hlock r) hpublishes, hk r⟩

/-- A call under the lock after the commit. -/
theorem keeps_published {c : CollaboratorCall} {k : c.Reply → Method α} (hlock : c.lock = none)
    (hk : ∀ r, (k r).Keeps playerId (.held true)) : (on c >>= k).Keeps playerId (.held true) :=
  keeps_inside hlock (fun _ => rfl) hk

/-- The lock is acquired, or the player is busy. -/
theorem keeps_acquire {k : Bool → Method α} (hbusy : (k false).Keeps playerId .outside)
    (hk : (k true).Keeps playerId (.held false)) :
    (acquirePlayerLock playerId >>= k).Keeps playerId .outside := by
  intro acquired _
  cases acquired with
  | false =>
    exact ⟨.outside, .outside ⟨rfl, rfl, fun p hp => (Option.some.inj hp).symm⟩ rfl, hbusy⟩
  | true => exact ⟨.held false, .acquire, hk⟩

/-- An exit. -/
theorem keeps_release (a : α) :
    (do
      releasePlayerLock playerId
      return a : Method α).Keeps playerId (.held committed) :=
  fun _ _ => ⟨.done, .release, .inr rfl⟩

theorem keeps_return (a : α) : (return a : Method α).Keeps playerId .outside := .inl rfl

/-- The end of both methods: unless the transaction failed, two more calls before the
release. -/
theorem keeps_publish {success : Bool} {c c' : CollaboratorCall} {a b : α} (hlock : c.lock = none)
    (hlock' : c'.lock = none) :
    (if !success then do
        releasePlayerLock playerId
        return a
      else do
        let _ ← on c
        let _ ← on c'
        releasePlayerLock playerId
        return b : Method α).Keeps playerId (.held success) := by
  cases success with
  | false => exact keeps_release a
  | true =>
    exact keeps_published hlock fun _ => keeps_published hlock' fun _ => keeps_release b

/-- The battle is looked up in the window. -/
theorem keeps_findBattle {battleId : String} {k : Option BattleContext → Method α}
    (hk : ∀ battleContext, (k battleContext).Keeps playerId (.held false)) :
    (findBattle battleId >>= k).Keeps playerId (.held false) := by
  rw [findBattle, Prog.bind_assoc]
  refine keeps_inside rfl nofun fun found => ?_
  cases found with
  | some battleContext => exact hk _
  | none => exact keeps_inside rfl nofun hk

theorem keeps_enterDungeon (request : EnterDungeonRequest) :
    (enterDungeon request).Keeps request.playerId .outside := by
  refine keeps_outside rfl rfl fun session => ?_
  split
  · exact keeps_return _
  refine keeps_outside rfl rfl fun config => ?_
  cases config with
  | none => exact keeps_return _
  | some config =>
    refine keeps_acquire (keeps_return _) ?_
    refine keeps_inside rfl nofun fun playerState => ?_
    cases playerState with
    | none => exact keeps_release _
    | some playerState =>
      dsimp only
      split
      · exact keeps_release _
      split
      · exact keeps_release _
      rw [generateBattleId, Prog.bind_assoc]
      refine keeps_inside rfl nofun fun sequence => ?_
      refine keeps_inside rfl nofun fun result => ?_
      exact keeps_publish rfl rfl

theorem keeps_settleDungeon (request : SettleDungeonRequest) :
    (settleDungeon request).Keeps request.playerId .outside := by
  rw [settleDungeon]
  split
  · exact keeps_return _
  refine keeps_outside rfl rfl fun session => ?_
  split
  · exact keeps_return _
  refine keeps_outside rfl rfl fun config => ?_
  cases config with
  | none => exact keeps_return _
  | some config =>
    dsimp only
    split
    · exact keeps_return _
    refine keeps_acquire (keeps_return _) (keeps_findBattle fun battleContext => ?_)
    cases battleContext with
    | none => exact keeps_release _
    | some battleContext =>
      dsimp only
      split
      · exact keeps_release _
      split
      · exact keeps_release _
      refine keeps_inside rfl nofun fun result => ?_
      exact keeps_publish rfl rfl

/-- Whatever the collaborators return, a method that keeps to the window comes to an end
with it. -/
theorem Keeps.ensures {m : Method α} (h : m.Keeps playerId .outside) :
    m.Ensures Prog.record (fun _ trace => LockWindow playerId trace) [] := by
  have hrecord := Follows.ensures_record (I := InPhase playerId) (fun _ => not_false)
    (fun _ _ _ _ _ hI hstep => hI.step hstep) h
    (show InPhase playerId [] .outside from fun e he => absurd he List.not_mem_nil)
  exact hrecord.mono fun _ _ ⟨_, hended, hI⟩ => hI.lockWindow hended

/-- **The lock window**: whatever their collaborators return, `EnterDungeon` and
`SettleDungeon` come to an end, and their calls keep to one window of the player's lock. -/
theorem lock_window (answers : ℕ → (c : CollaboratorCall) → c.Reply) :
    (∀ request : EnterDungeonRequest, ∃ response trace,
        (enterDungeon request).run Prog.record answers [] = some (response, trace) ∧
          LockWindow request.playerId trace) ∧
      ∀ request : SettleDungeonRequest, ∃ response trace,
        (settleDungeon request).run Prog.record answers [] = some (response, trace) ∧
          LockWindow request.playerId trace :=
  ⟨fun request => (keeps_enterDungeon request).ensures.run answers,
    fun request => (keeps_settleDungeon request).ensures.run answers⟩

/-! ## The collaborators of the server -/

/-- What a call does in the dungeon server. -/
def inServer (env : Env) : (c : CollaboratorCall) → Program c.Reply
  | .findById sessionId => RedisSessionRepository.findById sessionId
  | .findByDungeonId dungeonId =>
    return InMemoryDungeonConfigRepository.findByDungeonId env dungeonId
  | .acquire playerId => RedisPlayerLockRepository.acquire env playerId
  | .release playerId => RedisPlayerLockRepository.release playerId
  | .loadPlayerState playerId => MySqlPlayerRepository.loadPlayerState playerId
  | .fetchAddSequence => GameBackend.fetchAddSequence
  | .enterDungeon playerState config battleId =>
    MySqlDungeonRepository.enterDungeon playerState config battleId
  | .settleDungeon battleContext config star =>
    MySqlDungeonRepository.settleDungeon battleContext config star
  | .findBattleById battleId => MySqlDungeonRepository.findBattleById battleId
  | .findByBattleId battleId => RedisBattleContextRepository.findByBattleId battleId
  | .save battleContext => RedisBattleContextRepository.save env battleContext
  | .delete battleId => RedisBattleContextRepository.delete battleId
  | .invalidate playerId => RedisPlayerCacheRepository.invalidate playerId

variable (env : Env)

theorem implement_on {α : Type} (c : CollaboratorCall) (k : c.Reply → Method α) :
    (on c >>= k).implement (inServer env) =
      inServer env c >>= fun r => (k r).implement (inServer env) :=
  rfl

/-- The configuration is at hand. -/
theorem implement_findByDungeonId {α : Type} (dungeonId : ℤ)
    (k : Option DungeonConfig → Method α) :
    (on (.findByDungeonId dungeonId) >>= k).implement (inServer env) =
      (k (InMemoryDungeonConfigRepository.findByDungeonId env dungeonId)).implement
        (inServer env) :=
  rfl

/-- The releases at the exits of `EnterDungeon` are one release behind its body. -/
theorem implement_enterDungeon (request : EnterDungeonRequest) :
    (enterDungeon request).implement (inServer env) = DungeonService.enterDungeon env request := by
  rw [enterDungeon, DungeonService.enterDungeon, implement_on]
  refine bind_congr fun session => ?_
  split
  · rfl
  rw [implement_findByDungeonId]
  cases InMemoryDungeonConfigRepository.findByDungeonId env request.dungeonId with
  | none => rfl
  | some config =>
    rw [acquirePlayerLock, implement_on]
    refine bind_congr fun acquired => ?_
    cases acquired with
    | false => rfl
    | true =>
      simp only [Bool.not_true, Bool.false_eq_true, if_false]
      rw [DungeonService.enterLocked, Prog.bind_assoc, implement_on]
      refine bind_congr fun playerState => ?_
      cases playerState with
      | none => rfl
      | some playerState =>
        dsimp only
        split
        · rfl
        split
        · rfl
        rw [generateBattleId, Prog.bind_assoc, implement_on, DungeonService.generateBattleId,
          Prog.bind_assoc, Prog.bind_assoc]
        refine bind_congr fun sequence => ?_
        simp only [Prog.pure_eq, Prog.ret_bind]
        rw [implement_on, Prog.bind_assoc]
        refine bind_congr fun result => ?_
        split
        · rfl
        rw [implement_on, Prog.bind_assoc]
        refine bind_congr fun saved => ?_
        rw [implement_on, Prog.bind_assoc]
        rfl

theorem implement_findBattle (battleId : String) :
    (findBattle battleId).implement (inServer env) = DungeonService.findBattle battleId := by
  rw [findBattle, DungeonService.findBattle, implement_on]
  refine bind_congr fun found => ?_
  cases found with
  | some battleContext => rfl
  | none => exact Prog.implement_send _ _

/-- The releases at the exits of `SettleDungeon` are one release behind its body. -/
theorem implement_settleDungeon (request : SettleDungeonRequest) :
    (settleDungeon request).implement (inServer env) =
      DungeonService.settleDungeon env request := by
  rw [settleDungeon, DungeonService.settleDungeon]
  split
  · rfl
  rw [implement_on]
  refine bind_congr fun session => ?_
  split
  · rfl
  rw [implement_findByDungeonId]
  cases InMemoryDungeonConfigRepository.findByDungeonId env request.dungeonId with
  | none => rfl
  | some config =>
    dsimp only
    split
    · rfl
    rw [acquirePlayerLock, implement_on]
    refine bind_congr fun acquired => ?_
    cases acquired with
    | false => rfl
    | true =>
      simp only [Bool.not_true, Bool.false_eq_true, if_false]
      rw [DungeonService.settleLocked, Prog.bind_assoc, Prog.implement_bind, implement_findBattle]
      refine bind_congr fun battleContext => ?_
      cases battleContext with
      | none => rfl
      | some battleContext =>
        dsimp only
        split
        · rfl
        split
        · rfl
        rw [implement_on, Prog.bind_assoc]
        refine bind_congr fun result => ?_
        split
        · rfl
        rw [implement_on, Prog.bind_assoc]
        refine bind_congr fun deleted => ?_
        rw [implement_on, Prog.bind_assoc]
        rfl

end Method

end GameBackend
