import GameBackend.History
import GameBackend.Locks

/-!
# Who owns a player lock

The value of a player lock is the same for every owner, and `Release` deletes the
key whatever is in it. A request whose lock has expired therefore deletes the lock
that another request has acquired since, and a third one walks in.

`Standing` is a lock that was acquired, whose time has not run out and that its
owner has not given back. As long as no request gives back a lock that it has lost
to another one, standing locks stay in Redis, so two requests are inside the lock
of a player only if one of them has outlived its own.
-/

namespace GameBackend

variable {ι : Type} [DecidableEq ι] {env : Env} {cfg : DungeonConfig}

/-! ## Locks in the history -/

/-- The lifetime an exchange asks for, in seconds. -/
def Exchange.lifetime : Exchange → ℕ
  | ⟨.redis (.setNx _ _ ttl), _⟩ => ttl
  | _ => 0

/-- Until when the lock of player `p` lasts that request `id` acquires by an
event. -/
def Event.locksUntil (id : ℕ) (p : ℤ) : Event → Option ℕ
  | .call id' x time =>
    if id' = id ∧ Exchange.acquires x = some p then some (time + 1000 * Exchange.lifetime x)
    else none
  | _ => none

/-- Request `id` has acquired a lock of player `p` that lasts until `t`. -/
def World.Acquired (w : World ι) (id : ℕ) (p : ℤ) (t : ℕ) : Prop :=
  ∃ e ∈ w.history, e.locksUntil id p = some t

/-- Request `id` has given a lock of player `p` back. -/
def World.Released (w : World ι) (id : ℕ) (p : ℤ) : Prop :=
  ∃ time, Event.call id ⟨.redis (.del (.playerLock p)), true⟩ time ∈ w.history

/-- The time of a lock that request `id` has acquired has run out. -/
def World.Outlived (w : World ι) (id : ℕ) (p : ℤ) : Prop :=
  ∃ e ∈ w.history, ∃ t ∈ e.locksUntil id p, t ≤ w.store.redis.now

instance (w : World ι) (id : ℕ) (p : ℤ) : Decidable (w.Outlived id p) :=
  inferInstanceAs (Decidable (∃ e ∈ w.history, ∃ t ∈ e.locksUntil id p, t ≤ w.store.redis.now))

/-- A lock that nobody but its owner may remove now. -/
structure World.Standing (w : World ι) (id : ℕ) (p : ℤ) (t : ℕ) : Prop where
  acquired : w.Acquired id p t
  running : w.store.redis.now < t
  unreleased : ¬w.Released id p

/-- Lock ownership: a standing lock is in Redis, and two requests are inside the
lock of a player only if one of them has outlived its own. -/
structure LockOwnership (w : World ι) : Prop where
  stays : ∀ id p t, w.Standing id p t →
    ∃ e, w.store.redis.live (.playerLock p) = some e ∧ e.expiresAt = some t
  inside : ∀ i j task task' p, w.tasks i = some task → w.tasks j = some task' → i ≠ j →
    heldLock task.trail = some p → heldLock task'.trail = some p →
    w.Outlived task.id p ∨ w.Outlived task'.id p

/-- The request and the player whose lock process `i` gives back next. -/
def World.releasing (w : World ι) (i : ι) : Option (ℕ × ℤ) :=
  match w.tasks i with
  | some ⟨id, _, _, .call (.redis (.del (.playerLock p))) _⟩ => some (id, p)
  | _ => none

/-- The step `l` does not give back a lock that its owner has lost to another
one, and Redis evicts no lock. -/
def KeepsOwners (w : World ι) : Label ι → Prop
  | .exec i none => ∀ x ∈ w.releasing i, w.Outlived x.1 x.2 →
      w.store.redis.live (.playerLock x.2) = none
  | .evict k => ∀ p, k ≠ .playerLock p
  | _ => True

/-! ## Locks in a trail -/

variable {w w' w₀ : World ι} {φ φ' : ι → Phase} {l : Label ι} {trail : List Exchange}

/-- A request inside a lock has acquired it. -/
theorem acquires_of_heldLock {p : ℤ} :
    ∀ {trail : List Exchange}, heldLock trail = some p → ∃ x ∈ trail, x.acquires = some p
  | x :: trail, h => by
    rw [heldLock] at h
    split at h
    · cases h
    · rcases hx : x.acquires with _ | q
      · rw [hx] at h
        obtain ⟨y, hy, hyp⟩ := acquires_of_heldLock h
        exact ⟨y, List.mem_cons_of_mem _ hy, hyp⟩
      · rw [hx] at h
        exact ⟨x, List.mem_cons_self, hx.trans h⟩

/-- A request gives its lock back once, as its last act. -/
theorem releases_of_mem {φ : Phase} (h : Path (Advance cfg) .outside trail φ)
    (hφ : ∀ deed, φ ≠ .released deed) : ∀ x ∈ trail, x.releases = false := by
  induction h with
  | nil => exact fun x hx => nomatch hx
  | cons path advance ih =>
    rename_i trail φ φ' c r
    have hbefore : (∀ deed, φ ≠ .released deed) ∧ Exchange.releases ⟨c, r⟩ = false := by
      cases advance with
      | pass harmless _ => exact ⟨hφ, (silent_of_harmless harmless).releases⟩
      | unlock exit => exact absurd rfl (hφ _)
      | _ => exact ⟨fun deed => by simp, rfl⟩
    intro x hx
    rcases List.mem_cons.mp hx with rfl | hx
    · exact hbefore.2
    · exact ih hbefore.1 x hx

omit [DecidableEq ι] in
/-- A request inside a lock has acquired it and not given it back. -/
theorem Phased.owns (hphased : Phased env w φ) (hrecorded : Recorded w) {i : ι} {task : Task}
    {p : ℤ} (hi : w.tasks i = some task) (hlock : (φ i).lock = some p) :
    (∃ t, w.Acquired task.id p t) ∧ ¬w.Released task.id p := by
  have hpath := hphased.path i task hi
  constructor
  · obtain ⟨x, hx, hacquires⟩ := acquires_of_heldLock ((heldLock_eq hpath).trans hlock)
    obtain ⟨time, htime⟩ := (hrecorded.trail i task hi x).mp hx
    exact ⟨_, _, htime, if_pos ⟨rfl, hacquires⟩⟩
  · rintro ⟨time, htime⟩
    have hmem := (hrecorded.trail i task hi _).mpr ⟨time, htime⟩
    have hnot : ∀ deed, φ i ≠ .released deed := by
      intro deed hdeed
      rw [hdeed] at hlock
      cases hlock
    have := releases_of_mem hpath hnot _ hmem
    cases this

/-! ## The invariant -/

/-- Standing locks are in Redis, one for each player. -/
structure Owned (w : World ι) : Prop where
  stays : ∀ id p t, w.Standing id p t →
    ∃ e, w.store.redis.live (.playerLock p) = some e ∧ e.expiresAt = some t
  single : ∀ id id' p t t', w.Standing id p t → w.Standing id' p t' → id = id'

omit [DecidableEq ι] in
theorem Owned.init (hw : w.Fresh) : Owned w := by
  have hnone : ∀ id p t, ¬w.Standing id p t := by
    rintro id p t ⟨⟨e, he, -⟩, -, -⟩
    rw [hw.history] at he
    cases he
  exact ⟨fun id p t h => absurd h (hnone id p t), fun id id' p t t' h => absurd h (hnone id p t)⟩

omit [DecidableEq ι] in
/-- Standing locks stay in Redis when none is acquired and none disappears. -/
theorem Owned.mono (h : Owned w) (hnow : w.store.redis.now ≤ w'.store.redis.now)
    (hacquired : ∀ id p t, w'.Acquired id p t → w.Acquired id p t)
    (hreleased : ∀ id p, w.Released id p → w'.Released id p)
    (hlive : ∀ id p t e, w'.Standing id p t → w.store.redis.live (.playerLock p) = some e →
      e.expiresAt = some t → w'.store.redis.live (.playerLock p) = some e) : Owned w' := by
  have hstanding : ∀ id p t, w'.Standing id p t → w.Standing id p t := fun id p t hs =>
    ⟨hacquired id p t hs.acquired, lt_of_le_of_lt hnow hs.running,
      fun hr => hs.unreleased (hreleased id p hr)⟩
  refine ⟨fun id p t hs => ?_, fun id id' p t t' hs hs' =>
    h.single id id' p t t' (hstanding id p t hs) (hstanding id' p t' hs')⟩
  obtain ⟨e, he, ht⟩ := h.stays id p t (hstanding id p t hs)
  exact ⟨e, hlive id p t e hs he ht, ht⟩

theorem locksUntil_of_acquires {x : Exchange} (h : x.acquires = none) (id id' : ℕ) (time : ℕ)
    (p : ℤ) : (Event.call id' x time).locksUntil id p = none := by
  rw [Event.locksUntil, if_neg]
  rintro ⟨-, hx⟩
  rw [h] at hx
  cases hx

omit [DecidableEq ι] in
/-- An event that acquires nothing. -/
theorem acquired_of_cons {e : Event} {store : Store ι} {tasks : ι → Option Task} {id : ℕ} {p : ℤ}
    {t : ℕ} (he : e.locksUntil id p = none)
    (h : World.Acquired ⟨store, tasks, e :: w.history⟩ id p t) : w.Acquired id p t := by
  obtain ⟨x, hx, hlock⟩ := h
  rcases List.mem_cons.mp hx with rfl | hx
  · rw [he] at hlock
    cases hlock
  · exact ⟨x, hx, hlock⟩

omit [DecidableEq ι] in
/-- Locks that were given back stay so. -/
theorem released_cons {e : Event} {store : Store ι} {tasks : ι → Option Task} {id : ℕ} {p : ℤ}
    (h : w.Released id p) : World.Released ⟨store, tasks, e :: w.history⟩ id p := by
  obtain ⟨time, htime⟩ := h
  exact ⟨time, List.mem_cons_of_mem _ htime⟩

omit [DecidableEq ι] in
/-- An event that is no exchange leaves the standing locks as they are. -/
theorem Owned.quiet (h : Owned w) {store : Store ι} {tasks : ι → Option Task} {e : Event}
    (hredis : store.redis = w.store.redis) (hlocks : ∀ id p, e.locksUntil id p = none) :
    Owned ⟨store, tasks, e :: w.history⟩ := by
  refine h.mono (by rw [hredis]) (fun id p t => acquired_of_cons (hlocks id p))
    (fun id p => released_cons) fun id p t e _ hlive _ => ?_
  rw [hredis]
  exact hlive

omit [DecidableEq ι] in
/-- A lock is acquired that nobody has. -/
theorem Owned.acquire (h : Owned w) {store : Store ι} {tasks : ι → Option Task} {id : ℕ} {p : ℤ}
    {v : String} {ttl : ℕ} (hnow : store.redis.now = w.store.redis.now) (hpositive : 0 < ttl)
    (hfree : w.store.redis.live (.playerLock p) = none)
    (hredis : store.redis = w.store.redis.put (.playerLock p)
      (some ⟨.string v, some (w.store.redis.now + 1000 * ttl)⟩)) :
    Owned ⟨store, tasks, .call id ⟨.redis (.setNx (.playerLock p) v ttl), some true⟩
      w.store.redis.now :: w.history⟩ := by
  -- nobody had a standing lock of this player, now this request has
  have hnone : ∀ id' t, ¬w.Standing id' p t := by
    intro id' t hs
    obtain ⟨e, he, -⟩ := h.stays id' p t hs
    rw [hfree] at he
    cases he
  have hcases : ∀ id' q t, World.Standing ⟨store, tasks,
      .call id ⟨.redis (.setNx (.playerLock p) v ttl), some true⟩ w.store.redis.now ::
        w.history⟩ id' q t →
      (q ≠ p ∧ w.Standing id' q t) ∨
        (q = p ∧ id' = id ∧ t = w.store.redis.now + 1000 * ttl) := by
    intro id' q t hs
    obtain ⟨x, hx, hlock⟩ := hs.acquired
    rcases List.mem_cons.mp hx with rfl | hx
    · simp only [Event.locksUntil, Exchange.acquires, if_true, Exchange.lifetime] at hlock
      split at hlock
      · rename_i hid
        exact .inr ⟨(Option.some.inj hid.2).symm, hid.1.symm, (Option.some.inj hlock).symm⟩
      · cases hlock
    · have hold : w.Standing id' q t :=
        ⟨⟨x, hx, hlock⟩, hnow ▸ hs.running, fun hr => hs.unreleased (released_cons hr)⟩
      refine .inl ⟨?_, hold⟩
      rintro rfl
      exact hnone id' t hold
  refine ⟨fun id' q t hs => ?_, fun id₁ id₂ q t₁ t₂ hs₁ hs₂ => ?_⟩
  · rcases hcases id' q t hs with ⟨hq, hold⟩ | ⟨rfl, -, rfl⟩
    · obtain ⟨e, he, ht⟩ := h.stays id' q t hold
      refine ⟨e, ?_, ht⟩
      rw [hredis, Redis.live_put_ne fun hk => hq (RedisKey.playerLock.inj hk)]
      exact he
    · refine ⟨⟨.string v, some (w.store.redis.now + 1000 * ttl)⟩, ?_, rfl⟩
      rw [hredis]
      exact Redis.live_put_self fun t ht => Option.some.inj ht ▸ by omega
  · rcases hcases id₁ q t₁ hs₁ with ⟨hq₁, hold₁⟩ | ⟨rfl, rfl, -⟩ <;>
      rcases hcases id₂ q t₂ hs₂ with ⟨hq₂, hold₂⟩ | ⟨hq₂, rfl, -⟩
    · exact h.single id₁ id₂ q t₁ t₂ hold₁ hold₂
    · exact absurd hq₂ hq₁
    · exact absurd rfl hq₂
    · rfl

omit [DecidableEq ι] in
/-- A request gives back a lock that it has acquired: its own, or one that is gone. -/
theorem Owned.release (h : Owned w) {store : Store ι} {tasks : ι → Option Task} {id : ℕ} {p : ℤ}
    {t : ℕ} (hnow : store.redis.now = w.store.redis.now)
    (hredis : store.redis = w.store.redis.put (.playerLock p) none)
    (hacquired : w.Acquired id p t) (hunreleased : ¬w.Released id p)
    (hlost : w.Outlived id p → w.store.redis.live (.playerLock p) = none) :
    Owned ⟨store, tasks, .call id ⟨.redis (.del (.playerLock p)), true⟩ w.store.redis.now ::
      w.history⟩ := by
  refine h.mono hnow.ge
    (fun id' q t => acquired_of_cons (locksUntil_of_acquires rfl _ _ _ _))
    (fun id' q => released_cons) fun id' q t' e hs he _ => ?_
  rw [hredis]
  refine (Redis.live_put_ne fun hk => ?_).trans he
  obtain rfl := RedisKey.playerLock.inj hk
  have hold : w.Standing id' q t' :=
    ⟨acquired_of_cons (locksUntil_of_acquires rfl _ _ _ _) hs.acquired, hnow ▸ hs.running,
      fun hr => hs.unreleased (released_cons hr)⟩
  rcases Nat.lt_or_ge w.store.redis.now t with hlt | hge
  · obtain rfl := h.single id' id q t' t hold ⟨hacquired, hlt, hunreleased⟩
    exact hs.unreleased ⟨_, List.mem_cons_self⟩
  · obtain ⟨x, hx, hlock⟩ := hacquired
    rw [hlost ⟨x, hx, t, hlock, hge⟩] at he
    cases he

/-- Every move that keeps the owners keeps the standing locks. -/
theorem Owned.step (h : Owned w) (hphased : Phased env w φ) (hrecorded : Recorded w)
    (hkeep : KeepsOwners w l) (hmove : Moves env w φ l w' φ') : Owned w' := by
  cases hmove with
  | start idle => exact h.quiet rfl fun _ _ => rfl
  | finish task ends => exact h.quiet rfl fun _ _ => rfl
  | crash noted =>
    obtain rfl | ⟨task, -, rfl⟩ := noted
    · exact h.mono le_rfl (fun _ _ _ ha => ha) (fun _ _ hr => hr) fun _ _ _ _ _ hlive _ => hlive
    · exact h.quiet rfl fun _ _ => rfl
  | tick =>
    refine h.mono (Nat.le_add_right _ _) (fun _ _ _ ha => ha) (fun _ _ hr => hr) ?_
    exact fun id p t e hs hlive ht => Redis.live_tick hlive ht hs.running
  | evict =>
    refine h.mono le_rfl (fun _ _ _ ha => ha) (fun _ _ hr => hr) ?_
    exact fun id p t e _ hlive _ => (Redis.live_put_ne (hkeep p).symm).trans hlive
  | exec task performed advance =>
    rename_i i fault id request trail c k r store ψ
    have hnow : store.redis.now = w.store.redis.now := performed.now_eq
    cases advance.lockStep performed with
    | keep lock live acquires releases =>
      refine h.mono hnow.ge
        (fun id' p t => acquired_of_cons (locksUntil_of_acquires acquires _ _ _ _))
        (fun id' p => released_cons) fun id' p t e _ he _ => ?_
      rw [live p]
      exact he
    | acquire before after positive free hredis => exact h.acquire hnow positive free hredis
    | release before after hredis =>
      rename_i p r
      obtain ⟨message, -, -, rfl⟩ | ⟨rfl, hr, rfl⟩ := performed.redis_cases
      · exact h.mono hnow.ge
          (fun id' q t => acquired_of_cons (locksUntil_of_acquires rfl _ _ _ _))
          (fun id' q => released_cons) fun id' q t e _ he _ => he
      · obtain ⟨⟨t, hacquired⟩, hunreleased⟩ := hphased.owns hrecorded task before
        obtain rfl : r = true := hr
        exact h.release hnow rfl hacquired hunreleased
          (hkeep (id, p) (by simp [World.releasing, task]))

/-! ## Every run -/

/-- **Lock ownership**, in every run in which no request gives back a lock that it
has lost to another one. -/
theorem lock_ownership (hw₀ : w₀.Fresh) (h : World.Run env KeepsOwners w₀ w) :
    LockOwnership w := by
  have hrecorded := h.recorded hw₀
  obtain ⟨φ, hphased, howned⟩ := h.phased (I := fun w _ => Owned w) hw₀.tasks (.init hw₀)
    fun w φ l w' φ' hr hphased hI hok hmove => hI.step hphased (hr.recorded hw₀) hok hmove
  refine ⟨howned.stays, fun i j task task' p hi hj hij hheld hheld' => ?_⟩
  have howns : ∀ {i task}, w.tasks i = some task → heldLock task.trail = some p →
      (∃ t, w.Acquired task.id p t) ∧ ¬w.Released task.id p := fun hi hheld =>
    hphased.owns hrecorded hi ((heldLock_eq (hphased.path _ _ hi)).symm.trans hheld)
  obtain ⟨⟨t, hacquired⟩, hunreleased⟩ := howns hi hheld
  obtain ⟨⟨t', hacquired'⟩, hunreleased'⟩ := howns hj hheld'
  by_contra hboth
  rw [not_or] at hboth
  -- both locks would be standing
  have hrunning : ∀ {id t}, w.Acquired id p t → ¬w.Outlived id p → w.store.redis.now < t := by
    rintro id t ⟨e, he, hlock⟩ hnot
    exact Nat.lt_of_not_le fun hle => hnot ⟨e, he, t, hlock, hle⟩
  refine hij (hrecorded.distinct i j task task' hi hj (howned.single _ _ p t t'
    ⟨hacquired, hrunning hacquired hboth.1, hunreleased⟩
    ⟨hacquired', hrunning hacquired' hboth.2, hunreleased'⟩))

/-- The step `l` deletes no lock of another request: a request that releases one it has
outlived finds no lock there. -/
def World.releasesOwn (w : World Bool) : Label Bool → Bool
  | .exec i _ => decide (∀ x ∈ w.releasing i, w.Outlived x.1 x.2 →
      w.store.redis.live (.playerLock x.2) = none)
  | _ => true

/-- A request outlives its lock and deletes nothing, since no other one has
acquired it yet; then another server enters. -/
theorem lock_ownership_demo :
    ∃ w, World.Run demoEnv KeepsOwners demoWorld w ∧ w.history.length = 23 ∧
      LockOwnership w := by
  have hrun : (replay (World.step demoEnv) (fun w l => l.undisturbed && w.releasesOwn l) demoWorld
      (.start false (.enterDungeon ⟨"s", 20001, 1001⟩) :: List.replicate 4 (.exec false none) ++
        .tick 10000 :: List.replicate 14 (.exec false none) ++ .finish false ::
        .start true (.enterDungeon ⟨"s", 20001, 1001⟩) :: List.replicate 2 (.exec true none))).any
        (fun w => w.history.length = 23) = true := by
    decide +kernel
  obtain ⟨w, hreach, hlength⟩ : ∃ w, World.Run demoEnv KeepsOwners demoWorld w ∧
      decide (w.history.length = 23) = true := by
    refine Reach.of_replay_any (fun w l hl => ?_) hrun
    obtain ⟨hundisturbed, hkeep⟩ := Bool.and_eq_true_iff.mp hl
    cases l with
    | exec i fault =>
      cases fault with
      | none =>
        have hexec : ∀ x ∈ w.releasing i, w.Outlived x.1 x.2 →
            w.store.redis.live (.playerLock x.2) = none := of_decide_eq_true hkeep
        exact hexec
      | some message => trivial
    | evict k => cases hundisturbed
    | _ => trivial
  exact ⟨w, hreach, of_decide_eq_true hlength, lock_ownership demoWorld_fresh hreach⟩

/-- **A lock is deleted by a stranger.** Server `false` outlives its lock, server
`true` acquires it, `false` deletes it and acquires it again: both are inside the
lock of the same player, and neither lock has run out. -/
theorem lock_deleted_by_stranger :
    ¬∀ w, World.Run demoEnv (fun _ l => (l.undisturbed && l.ofDungeon) = true) demoWorld w →
      LockOwnership w := by
  have hrun : (replay (World.step demoEnv) (fun _ l => l.undisturbed && l.ofDungeon) demoWorld
      (.start false (.enterDungeon ⟨"s", 20001, 1001⟩) :: List.replicate 4 (.exec false none) ++
        .tick 10000 :: .start true (.enterDungeon ⟨"s", 20001, 1001⟩) ::
        List.replicate 2 (.exec true none) ++ List.replicate 14 (.exec false none) ++
        .finish false :: .start false (.enterDungeon ⟨"s", 20001, 1001⟩) ::
        List.replicate 2 (.exec false none))).any
        (fun w => (w.tasks false).any fun task => (w.tasks true).any fun task' =>
          heldLock task.trail = some 20001 ∧ heldLock task'.trail = some 20001 ∧
            ¬w.Outlived task.id 20001 ∧ ¬w.Outlived task'.id 20001) = true := by
    decide +kernel
  intro hall
  obtain ⟨w, hreach, hboth⟩ := Reach.of_replay_any (fun _ _ hl => hl) hrun
  simp only [Option.any_eq_true, decide_eq_true_eq] at hboth
  obtain ⟨task, hi, task', hj, hheld, hheld', hstanding, hstanding'⟩ := hboth
  exact ((hall w hreach).inside false true task task' 20001 hi hj (by decide) hheld hheld').elim
    hstanding hstanding'

end GameBackend
