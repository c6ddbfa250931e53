import GameBackend.LockOwnership
import GameBackend.Workload

/-!
# Deadlines

A player lock lasts for its lifetime and no longer. What the results about locks assume,
that no lock disappears while its request is still running (`KeepsLocks`), is here a
matter of pace: a request sends at most 16 commands under its lock, each with a `PING` in
front of it.

* `prompt_keeps_locks` — when each of them, its `PING` included, is executed within `δ`
  milliseconds of the one before, 16 times `δ` is less than the lifetime and no lock is
  evicted, no lock expires under its request, and at most one request is inside the lock of
  a player.
* `busy_while_locked` — whatever fails and whichever processes stop, Redis tells a request
  that a lock is taken only within the lifetime of one that was acquired before it and has
  not been given back.
-/

namespace GameBackend

variable {ι : Type} [DecidableEq ι] {env : Env} {w w' w₀ : World ι} {φ φ' : ι → Phase}
  {l : Label ι} {δ : ℕ}

/-! ## Pace -/

/-- When the newest command of request `id` was executed. -/
def lastCall (id : ℕ) : List Event → Option ℕ
  | [] => none
  | .call id' _ time :: history => if id' = id then some time else lastCall id history
  | _ :: history => lastCall id history

/-- The step `l` lets no request that is inside a lock wait for longer than `δ`
milliseconds from one executed command to the next, and evicts no lock. A command and the
`PING` in front of it are one. -/
def Prompt (δ : ℕ) (w : World ι) : Label ι → Prop
  | .tick ms => ∀ i task t, w.tasks i = some task → heldLock task.trail ≠ none →
      lastCall task.id w.history = some t → w.store.redis.now + ms ≤ t + δ
  | .evict k => ∀ p, k ≠ .playerLock p
  | _ => True

theorem Cmd.exists_plausible (c : Cmd) : ∃ r, c.Plausible r := by
  cases c with
  | sql c => exact ⟨c.failed "", SqlCmd.plausible_failed _ _⟩
  | redis c => exact ⟨c.failed, trivial⟩
  | fetchAddSequence => exact ⟨0, trivial⟩
  | epochSeconds => exact ⟨0, trivial⟩

/-- A request that is inside a lock has a command left, to give it back. -/
theorem Spending.pos {mode : Mode} {n : ℕ} {m : Program Response}
    (h : Spending env EndsOutside m mode n) (hmode : mode ≠ .outside) : 0 < n := by
  cases m with
  | ret response => exact absurd h hmode
  | throw => exact h.2
  | call c k =>
    obtain ⟨r, hr⟩ := c.exists_plausible
    obtain ⟨⟨mode', n'⟩, hspends, -⟩ := h r hr
    rw [hspends.spent.1]
    exact n'.succ_pos

/-- A player lock is acquired for the configured lifetime. -/
theorem Spends.lifetime {p : ℤ} {v : String} {ttl : ℕ} {φ φ' : Mode × ℕ}
    (h : Spends env φ (.redis (.setNx (.playerLock p) v ttl)) (some true) φ') :
    ttl = (RedisPlayerLockRepository.ttlSeconds env).toNat := by
  cases h with
  | pass ordinary => cases ordinary
  | lock window lifetime => exact lifetime
  | busy refused => exact absurd rfl refused

/-- The newest command of every request that is inside a lock was executed at most `δ`
milliseconds ago, and its lock lasts long enough for all commands it has left. -/
def Punctual (δ : ℕ) (w : World ι) (φ : ι → Phase) : Prop :=
  ∀ i task p, w.tasks i = some task → (φ i).lock = some p → ∃ t e until',
    lastCall task.id w.history = some t ∧ w.store.redis.live (.playerLock p) = some e ∧
      e.expiresAt = some until' ∧ w.store.redis.now ≤ t + δ ∧
      t + δ * (task.request.budget - task.trail.length) < until'

omit [DecidableEq ι] in
theorem Punctual.init : Punctual δ w fun _ => .outside := by
  intro i task p _ hlock
  cases hlock

omit [DecidableEq ι] in
/-- What keeps the budget keeps the lock. -/
theorem Budgeted.inside (h : Budgeted env w φ) {i : ι} {task : Task} {p : ℤ}
    (hi : w.tasks i = some task) (hlock : (φ i).lock = some p) :
    0 < task.request.budget - task.trail.length ∧
      task.request.budget - task.trail.length ≤ 16 := by
  have hmode : (φ i).mode ≠ .outside := by
    rw [ne_eq, Phase.mode_eq_outside, hlock]
    simp
  obtain ⟨n, hlength, hwindow, hspending⟩ := h i task hi
  have hpos := Spending.pos hspending hmode
  have hle := hwindow hmode
  omega

omit [DecidableEq ι] in
/-- Requests that keep the pace keep their locks. -/
theorem Punctual.keepsLocks (h : Punctual δ w φ) (hphased : Phased env w φ)
    (hbudgeted : Budgeted env w φ) (hprompt : Prompt δ w l) : KeepsLocks w l := by
  have hlock : ∀ {i task p}, w.tasks i = some task → heldLock task.trail = some p →
      (φ i).lock = some p := fun hi hheld =>
    (heldLock_eq (hphased.path _ _ hi)).symm.trans hheld
  cases l with
  | tick ms =>
    intro i task p hi hheld
    obtain ⟨t, e, until', ht, hlive, hexpires, -, hlong⟩ := h i task p hi (hlock hi hheld)
    have hpace : w.store.redis.now + ms ≤ t + δ := by
      refine hprompt i task t hi ?_ ht
      rw [hheld]
      simp
    have hpos := (hbudgeted.inside hi (hlock hi hheld)).1
    have hstep : δ ≤ δ * (task.request.budget - task.trail.length) :=
      Nat.le_mul_of_pos_right δ hpos
    have hstays := Redis.live_tick hlive hexpires (show w.store.redis.now + ms < until' by omega)
    exact congrArg Option.isSome hstays
  | evict k => exact fun i task p _ _ => hprompt p
  | _ => trivial

/-- Process `i` acquires a lock: it lasts for 16 commands. -/
theorem Punctual.acquire (h : Punctual δ w φ)
    (hδ : 16 * δ < 1000 * (RedisPlayerLockRepository.ttlSeconds env).toNat)
    (hrecorded : Recorded w) {i : ι} {id : ℕ} {request : Request} {trail : List Exchange}
    {x : Exchange} {rest rest' : Program Response} {store : Store ι} {ψ : Phase} {p : ℤ}
    {v : String} {ttl : ℕ} (task : w.tasks i = some ⟨id, request, trail, rest⟩)
    (hlifetime : ttl = (RedisPlayerLockRepository.ttlSeconds env).toNat) (hpositive : 0 < ttl)
    (hafter : ψ.lock = some p) (hfree : w.store.redis.live (.playerLock p) = none)
    (hredis : store.redis = w.store.redis.put (.playerLock p)
      (some ⟨.string v, some (w.store.redis.now + 1000 * ttl)⟩))
    (hwindow : request.budget - (trail.length + 1) ≤ 16) :
    Punctual δ ⟨store, Function.update w.tasks i (some ⟨id, request, x :: trail, rest'⟩),
      .call id x w.store.redis.now :: w.history⟩ (Function.update φ i ψ) := by
  intro j task' q hj hlock
  have hnow : store.redis.now = w.store.redis.now := by rw [hredis]; rfl
  rcases some_of_update hj with ⟨rfl, heq⟩ | ⟨hji, hj⟩
  · obtain rfl := Option.some.inj heq
    rw [Function.update_self, hafter] at hlock
    obtain rfl := Option.some.inj hlock
    refine ⟨w.store.redis.now, ⟨.string v, some (w.store.redis.now + 1000 * ttl)⟩, _, if_pos rfl,
      ?_, rfl, ?_, ?_⟩
    · dsimp only
      rw [hredis]
      exact Redis.live_put_self fun t ht => Option.some.inj ht ▸ by omega
    · dsimp only
      omega
    · have hmul := Nat.mul_le_mul_left δ hwindow
      dsimp only [List.length_cons]
      omega
  · rw [Function.update_of_ne hji] at hlock
    obtain ⟨t, e, until', ht, hlive, hexpires, hpace, hlong⟩ := h j task' q hj hlock
    have hid : id ≠ task'.id := fun heq => hji (hrecorded.distinct j i task' _ hj task heq.symm)
    refine ⟨t, e, until', (if_neg hid).trans ht, ?_, hexpires, hnow ▸ hpace, hlong⟩
    have hq : RedisKey.playerLock q ≠ .playerLock p := by
      intro hqp
      rw [hqp, hfree] at hlive
      cases hlive
    dsimp only
    rw [hredis, Redis.live_put_ne hq]
    exact hlive

/-- Process `i` sends a command that leaves its lock, and those of the others, as they
are. -/
theorem Punctual.keep (h : Punctual δ w φ) (hrecorded : Recorded w) {i : ι} {id : ℕ}
    {request : Request} {trail : List Exchange} {x : Exchange} {rest rest' : Program Response}
    {store : Store ι} {ψ : Phase} (task : w.tasks i = some ⟨id, request, trail, rest⟩)
    (hnow : store.redis.now = w.store.redis.now)
    (hlock : ∀ p, ψ.lock = some p → (φ i).lock = some p)
    (hlive : ∀ j p, (Function.update φ i ψ j).lock = some p →
      store.redis.live (.playerLock p) = w.store.redis.live (.playerLock p))
    (hleft : ∀ p, (φ i).lock = some p → 0 < request.budget - trail.length) :
    Punctual δ ⟨store, Function.update w.tasks i (some ⟨id, request, x :: trail, rest'⟩),
      .call id x w.store.redis.now :: w.history⟩ (Function.update φ i ψ) := by
  intro j task' p hj hlockj
  have hkept := hlive j p hlockj
  rcases some_of_update hj with ⟨rfl, heq⟩ | ⟨hji, hj⟩
  · obtain rfl := Option.some.inj heq
    rw [Function.update_self] at hlockj
    obtain ⟨t, e, until', -, hlive, hexpires, hpace, hlong⟩ := h j _ p task (hlock p hlockj)
    refine ⟨w.store.redis.now, e, until', if_pos rfl, hkept.trans hlive, hexpires, ?_, ?_⟩
    · dsimp only
      omega
    · -- one command less is left, and it came within `δ`
      obtain ⟨n, hn⟩ : ∃ n, request.budget - trail.length = n + 1 :=
        ⟨_, (Nat.succ_pred_eq_of_pos (hleft p (hlock p hlockj))).symm⟩
      have hless : request.budget - (trail.length + 1) = n := by omega
      dsimp only [List.length_cons] at hlong ⊢
      rw [hn, Nat.mul_add_one] at hlong
      rw [hless]
      omega
  · rw [Function.update_of_ne hji] at hlockj
    obtain ⟨t, e, until', ht, hlive, hexpires, hpace, hlong⟩ := h j task' p hj hlockj
    have hid : id ≠ task'.id := fun heq => hji (hrecorded.distinct j i task' _ hj task heq.symm)
    exact ⟨t, e, until', (if_neg hid).trans ht, hkept.trans hlive, hexpires, hnow ▸ hpace, hlong⟩

omit [DecidableEq ι] in
/-- The history notes something that is no command; the processes that are inside a lock
go on. -/
theorem Punctual.quiet (h : Punctual δ w φ) {store : Store ι} {tasks : ι → Option Task}
    {history : List Event} (hredis : store.redis = w.store.redis)
    (htasks : ∀ i task p, tasks i = some task → (φ' i).lock = some p →
      w.tasks i = some task ∧ (φ i).lock = some p)
    (hhistory : ∀ id, lastCall id history = lastCall id w.history) :
    Punctual δ ⟨store, tasks, history⟩ φ' := by
  intro i task p hi hlock
  obtain ⟨hi', hlock'⟩ := htasks i task p hi hlock
  obtain ⟨t, e, until', ht, hlive, hexpires, hpace, hlong⟩ := h i task p hi' hlock'
  dsimp only
  rw [hredis]
  exact ⟨t, e, until', (hhistory _).trans ht, hlive, hexpires, hpace, hlong⟩

/-- Every move that keeps the pace keeps the requests punctual. -/
theorem Punctual.step (h : Punctual δ w φ)
    (hδ : 16 * δ < 1000 * (RedisPlayerLockRepository.ttlSeconds env).toNat)
    (hrecorded : Recorded w) (hphased : Phased env w φ) (hexclusive : Exclusive w φ)
    (hbudgeted : Budgeted env w φ) (hprompt : Prompt δ w l) (hmove : Moves env w φ l w' φ') :
    Punctual δ w' φ' := by
  -- a process that goes back to rest
  have hrest : ∀ {i : ι}, ∀ j task p, Function.update w.tasks i none j = some task →
      (Function.update φ i .outside j).lock = some p →
      w.tasks j = some task ∧ (φ j).lock = some p := by
    intro i j task p hj hlock
    rcases some_of_update hj with ⟨-, heq⟩ | ⟨-, hj⟩
    · cases heq
    · exact ⟨hj, lock_update_outside hlock⟩
  have hkeep := h.keepsLocks hphased hbudgeted hprompt
  have hbudgeted' := hbudgeted.step hphased hmove
  cases hmove with
  | start idle =>
    rename_i i request
    refine h.quiet rfl (fun j task p hj hlock => ?_) fun _ => rfl
    rcases some_of_update hj with ⟨rfl, -⟩ | ⟨-, hj⟩
    · rw [hphased.idle j idle] at hlock
      cases hlock
    · exact ⟨hj, hlock⟩
  | finish task ends => exact h.quiet rfl hrest fun _ => rfl
  | crash noted =>
    refine h.quiet rfl hrest fun id => ?_
    obtain rfl | ⟨task, -, rfl⟩ := noted
    · rfl
    · rfl
  | tick =>
    rename_i ms
    intro i task p hi hlock
    obtain ⟨t, e, until', ht, hlive, hexpires, -, hlong⟩ := h i task p hi hlock
    have hheld := (heldLock_eq (hphased.path i task hi)).trans hlock
    have hpace : w.store.redis.now + ms ≤ t + δ := by
      refine hprompt i task t hi ?_ ht
      rw [hheld]
      simp
    obtain ⟨e', he'⟩ := Option.isSome_iff_exists.mp (hkeep i task p hi hheld)
    obtain rfl : e' = e := Option.some.inj ((Redis.live_of_tick he').symm.trans hlive)
    exact ⟨t, e', until', ht, he', hexpires, hpace, hlong⟩
  | evict =>
    intro i task p hi hlock
    obtain ⟨t, e, until', ht, hlive, hexpires, hpace, hlong⟩ := h i task p hi hlock
    exact ⟨t, e, until', ht, (Redis.live_put_ne (hprompt p).symm).trans hlive, hexpires, hpace,
      hlong⟩
  | exec task performed advance =>
    rename_i i fault id request trail c k r store ψ
    have hnow := performed.now_eq
    cases advance.lockStep performed with
    | keep lock live =>
      exact h.keep hrecorded task hnow (fun p hp => lock ▸ hp) (fun j p _ => live p)
        fun p hp => (hbudgeted.inside task hp).1
    | acquire before after positive free redis =>
      rename_i p v ttl
      obtain ⟨n, -, -, hspending⟩ := hbudgeted i _ task
      obtain ⟨⟨mode', n'⟩, hspends, -⟩ := hspending _
        (Store.plausible_of_perform performed.perform)
      have hwindow := (hbudgeted'.inside (i := i) (Function.update_self ..)
        ((congrArg Phase.lock (Function.update_self ..)).trans after)).2
      exact h.acquire hδ hrecorded task hspends.lifetime positive after free redis hwindow
    | release before after redis =>
      rename_i p r
      refine h.keep hrecorded task hnow (fun q hq => ?_) (fun j q hj => ?_) fun q hq =>
        (hbudgeted.inside task hq).1
      · rw [after] at hq
        cases hq
      · obtain redis | redis := redis
        · rw [redis]
        · rw [redis]
          refine Redis.live_put_ne fun hk => ?_
          -- nobody else is inside this lock
          obtain rfl := RedisKey.playerLock.inj hk
          by_cases hji : j = i
          · rw [hji, Function.update_self, after] at hj
            cases hj
          · rw [Function.update_of_ne hji] at hj
            exact hji (hexclusive.unique j i q hj before)

/-- What holds in every run at this pace. -/
def OnPace (env : Env) (δ : ℕ) (w : World ι) : Prop :=
  ∃ φ, Phased env w φ ∧ Recorded w ∧ Budgeted env w φ ∧ Exclusive w φ ∧ Punctual δ w φ

omit [DecidableEq ι] in
theorem OnPace.init (hw : w.Fresh) : OnPace env δ w :=
  ⟨_, .rest hw.tasks, .init hw, .init hw.tasks, .init, .init⟩

omit [DecidableEq ι] in
theorem OnPace.keepsLocks (h : OnPace env δ w) (hprompt : Prompt δ w l) : KeepsLocks w l := by
  obtain ⟨φ, hphased, -, hbudgeted, -, hpunctual⟩ := h
  exact hpunctual.keepsLocks hphased hbudgeted hprompt

theorem OnPace.step (h : OnPace env δ w)
    (hδ : 16 * δ < 1000 * (RedisPlayerLockRepository.ttlSeconds env).toNat)
    (hprompt : Prompt δ w l) (hs : w.step env l = some w') : OnPace env δ w' := by
  have hkeep := h.keepsLocks hprompt
  obtain ⟨φ, hphased, hrecorded, hbudgeted, hexclusive, hpunctual⟩ := h
  obtain ⟨φ', hmove, hphased'⟩ := hphased.step hs
  exact ⟨φ', hphased', hrecorded.step hs, hbudgeted.step hphased hmove,
    hexclusive.step hphased hkeep hmove,
    hpunctual.step hδ hrecorded hphased hexclusive hbudgeted hprompt hmove⟩

/-- **Pace keeps the locks.** When 16 times `δ` is less than the lifetime of a player lock,
each command of a request inside a lock, its `PING` included, is executed within `δ`
milliseconds of the one before, and no lock is evicted, then no lock expires under its
request, and no two requests are inside the lock of a player. -/
theorem prompt_keeps_locks {ok : World ι → Label ι → Prop}
    (hδ : 16 * δ < 1000 * (RedisPlayerLockRepository.ttlSeconds env).toNat) (hw₀ : w₀.Fresh)
    (h : World.Run env (fun w l => ok w l ∧ Prompt δ w l) w₀ w) :
    World.Run env (fun w l => ok w l ∧ KeepsLocks w l) w₀ w ∧
      ∀ i j task task' p, w.tasks i = some task → w.tasks j = some task' →
        heldLock task.trail = some p → heldLock task'.trail = some p → i = j := by
  have hstep : ∀ w l w', OnPace env δ w → ok w l ∧ Prompt δ w l → w.step env l = some w' →
      OnPace env δ w' := fun w l w' hI hok hs => hI.step hδ hok.2 hs
  refine ⟨h.strengthen (.init hw₀) hstep fun w l hI hok => ⟨hok.1, hI.keepsLocks hok.2⟩, ?_⟩
  intro i j task task' p hi hj hheld hheld'
  obtain ⟨φ, hphased, -, -, hexclusive, -⟩ :=
    h.invariant (I := OnPace env δ) (.init hw₀) fun w l w' _ => hstep w l w'
  exact hexclusive.unique i j p ((heldLock_eq (hphased.path i task hi)).symm.trans hheld)
    ((heldLock_eq (hphased.path j task' hj)).symm.trans hheld')

/-- `Prompt` for two servers, as a check. -/
def World.prompt (δ : ℕ) (w : World Bool) : Label Bool → Bool
  | .tick ms => decide (∀ i, ∀ task ∈ w.tasks i, heldLock task.trail ≠ none →
      ∀ t ∈ lastCall task.id w.history, w.store.redis.now + ms ≤ t + δ)
  | .evict _ => false
  | _ => true

theorem World.prompt_of_check {w : World Bool} {l : Label Bool} (h : w.prompt δ l = true) :
    Prompt δ w l := by
  cases l with
  | tick ms =>
    have hall : ∀ i, ∀ task ∈ w.tasks i, heldLock task.trail ≠ none →
        ∀ t ∈ lastCall task.id w.history, w.store.redis.now + ms ≤ t + δ := of_decide_eq_true h
    exact fun i task t hi hheld ht => hall i task hi hheld t ht
  | evict k => cases h
  | _ => trivial

/-- With 600 milliseconds from command to command, a request that enters a dungeon is still
inside its lock 9600 milliseconds after it acquired it, when a second one is turned away. -/
theorem prompt_keeps_locks_demo :
    ∃ w, World.Run demoEnv (fun w l => l.faultless = true ∧ Prompt 600 w l) demoWorld w ∧
      (∃ task, w.tasks true = some task ∧ heldLock task.trail = some 20001 ∧
        w.store.redis.now = 9600) ∧
      World.Run demoEnv (fun w l => l.faultless = true ∧ KeepsLocks w l) demoWorld w ∧
      ∀ i j task task' p, w.tasks i = some task → w.tasks j = some task' →
        heldLock task.trail = some p → heldLock task'.trail = some p → i = j := by
  have hrun : (replay (World.step demoEnv) (fun w l => l.faultless && w.prompt 600 l) demoWorld
      (.start true (.enterDungeon ⟨"s", 20001, 1001⟩) :: .exec true none :: .exec true none ::
        (List.replicate 15 [.tick 600, .exec true none]).flatten ++
        [.tick 600, .start false (.enterDungeon ⟨"s", 20001, 1001⟩), .exec false none,
          .exec false none, .finish false])).any
      (fun w => (w.tasks true).any fun task =>
        heldLock task.trail = some 20001 ∧ w.store.redis.now = 9600) = true := by
    decide +kernel
  obtain ⟨w, hreach, hend⟩ : ∃ w, World.Run demoEnv
      (fun w l => l.faultless = true ∧ Prompt 600 w l) demoWorld w ∧ _ = true := by
    refine Reach.of_replay_any (fun w l hl => ?_) hrun
    obtain ⟨hfaultless, hprompt⟩ := Bool.and_eq_true_iff.mp hl
    exact ⟨hfaultless, World.prompt_of_check hprompt⟩
  obtain ⟨task, htask, hheld⟩ := (Option.any_eq_true _ _).mp hend
  exact ⟨w, hreach, ⟨task, htask, of_decide_eq_true hheld⟩,
    prompt_keeps_locks (by decide) demoWorld_fresh hreach⟩

/-! ## Locks that are taken -/

/-- When an event acquires the lock of player `p`. -/
def Event.takes (p : ℤ) : Event → Option ℕ
  | .call _ x time => if Exchange.acquires x = some p then some time else none
  | _ => none

/-- Whether an event gives the lock of player `p` back. -/
def Event.frees (p : ℤ) : Event → Bool
  | .call _ ⟨.redis (.del (.playerLock q)), deleted⟩ _ => q = p && (show Bool from deleted)
  | _ => false

/-- When an event is Redis denying a request the lock of player `p`. -/
def Event.refuses (p : ℤ) : Event → Option ℕ
  | .call _ ⟨.redis (.setNx (.playerLock q) _ _), some false⟩ time =>
    if q = p then some time else none
  | _ => none

/-- When the lock of player `p` was acquired that nobody has given back since. -/
def lockTaken (p : ℤ) : List Event → Option ℕ
  | [] => none
  | e :: history => if e.frees p then none else e.takes p <|> lockTaken p history

/-- A lock that is there was acquired, was not given back and has its lifetime. -/
def Taken (env : Env) (w : World ι) : Prop :=
  ∀ p e, w.store.redis.live (.playerLock p) = some e → ∃ t, lockTaken p w.history = some t ∧
    e.expiresAt = some (t + 1000 * (RedisPlayerLockRepository.ttlSeconds env).toNat)

/-- Who was turned away found the lock of another one. -/
def Justified (env : Env) (history : List Event) : Prop :=
  ∀ e older p t, e :: older <:+ history → e.refuses p = some t →
    ∃ t', lockTaken p older = some t' ∧
      t < t' + 1000 * (RedisPlayerLockRepository.ttlSeconds env).toNat

omit [DecidableEq ι] in
/-- No lock appears. -/
theorem Taken.mono (h : Taken env w) {store : Store ι} {tasks : ι → Option Task}
    {history : List Event}
    (hlive : ∀ p e, store.redis.live (.playerLock p) = some e →
      w.store.redis.live (.playerLock p) = some e ∧ lockTaken p history = lockTaken p w.history) :
    Taken env ⟨store, tasks, history⟩ := by
  intro p e he
  obtain ⟨he', htaken⟩ := hlive p e he
  obtain ⟨t, ht, hexpires⟩ := h p e he'
  exact ⟨t, htaken.trans ht, hexpires⟩

/-- An event that does not acquire and does not give back the lock of `p`. -/
theorem lockTaken_cons {e : Event} {history : List Event} {p : ℤ} (htakes : e.takes p = none)
    (hfrees : e.frees p = false) : lockTaken p (e :: history) = lockTaken p history := by
  rw [lockTaken, hfrees, htakes]
  rfl

theorem Event.frees_of_releases {id time : ℕ} {x : Exchange} {p : ℤ} (h : x.releases = false) :
    (Event.call id x time).frees p = false := by
  rw [Event.frees.eq_def]
  split
  · rename_i heq
    cases heq
    cases h
  · rfl

/-- Process `i` sends a command. -/
theorem Taken.exec (h : Taken env w) (hbudgeted : Budgeted env w φ) {i : ι}
    {fault : Option String} {id : ℕ} {request : Request} {trail : List Exchange} {c : Cmd}
    {k : c.Reply → Program Response} {r : c.Reply} {store : Store ι} {ψ : Phase}
    {tasks : ι → Option Task} (task : w.tasks i = some ⟨id, request, trail, .call c k⟩)
    (performed : w.store.Performed i fault c r store)
    (advance : Advance env.dungeonConfig (φ i) c r ψ) :
    Taken env ⟨store, tasks, .call id ⟨c, r⟩ w.store.redis.now :: w.history⟩ := by
  cases advance.lockStep performed with
  | keep lock live acquires releases =>
    refine h.mono fun p e he => ⟨(live p).symm.trans he, ?_⟩
    apply lockTaken_cons
    · rw [Event.takes, acquires]
      rfl
    · exact Event.frees_of_releases releases
  | acquire before after positive free redis =>
    rename_i p v ttl
    obtain ⟨n, -, -, hspending⟩ := hbudgeted i _ task
    obtain ⟨⟨mode', n'⟩, hspends, -⟩ := hspending _
      (Store.plausible_of_perform performed.perform)
    intro q e he
    dsimp only at he ⊢
    rw [redis] at he
    by_cases hq : q = p
    · subst hq
      rw [Redis.live_put_self fun t ht => Option.some.inj ht ▸ by omega] at he
      obtain rfl := Option.some.inj he
      refine ⟨w.store.redis.now, ?_, ?_⟩
      · simp [lockTaken, Event.frees, Event.takes, Exchange.acquires]
      · rw [← hspends.lifetime]
    · have hkey : RedisKey.playerLock q ≠ .playerLock p := fun hk => hq (RedisKey.playerLock.inj hk)
      rw [Redis.live_put_ne hkey] at he
      obtain ⟨t, ht, hexpires⟩ := h q e he
      refine ⟨t, (lockTaken_cons ?_ rfl).trans ht, hexpires⟩
      simp [Event.takes, Exchange.acquires, Ne.symm hq]
  | release before after redis =>
    rename_i p r
    obtain ⟨message, -, hr, rfl⟩ | ⟨-, hr, rfl⟩ := performed.redis_cases
    · refine h.mono fun q e he => ⟨he, lockTaken_cons rfl ?_⟩
      obtain rfl : r = false := hr
      simp [Event.frees]
    · obtain rfl : r = true := hr
      refine h.mono fun q e he => ?_
      by_cases hq : q = p
      · subst hq
        have hgone := Redis.entries_put_self.symm.trans (Redis.entries_of_live he)
        cases hgone
      · have hkey : RedisKey.playerLock q ≠ .playerLock p :=
          fun hk => hq (RedisKey.playerLock.inj hk)
        refine ⟨(Redis.live_put_ne hkey).symm.trans he, lockTaken_cons rfl ?_⟩
        simp [Event.frees, Ne.symm hq]

/-- Every move keeps the account of the locks. -/
theorem Taken.step (h : Taken env w) (hbudgeted : Budgeted env w φ)
    (hmove : Moves env w φ l w' φ') : Taken env w' := by
  cases hmove with
  | start idle => exact h.mono fun p e he => ⟨he, rfl⟩
  | finish task ends => exact h.mono fun p e he => ⟨he, rfl⟩
  | crash noted =>
    refine h.mono fun p e he => ⟨he, ?_⟩
    obtain rfl | ⟨task, -, rfl⟩ := noted
    · rfl
    · rfl
  | tick => exact h.mono fun p e he => ⟨Redis.live_of_tick he, rfl⟩
  | evict =>
    rename_i k
    refine h.mono fun p e he => ⟨?_, rfl⟩
    by_cases hk : RedisKey.playerLock p = k
    · subst hk
      have hgone := Redis.entries_put_self.symm.trans (Redis.entries_of_live he)
      cases hgone
    · exact (Redis.live_put_ne hk).symm.trans he
  | exec task performed advance => exact h.exec hbudgeted task performed advance

/-- An event that turns nobody away. -/
theorem Justified.cons {history : List Event} (h : Justified env history) {e : Event}
    (he : ∀ p, e.refuses p = none) : Justified env (e :: history) := by
  intro e' older p t hsuffix hrefuses
  rcases List.suffix_cons_iff.mp hsuffix with heq | hsuffix
  · obtain ⟨rfl, rfl⟩ := List.cons.inj heq
    rw [he p] at hrefuses
    cases hrefuses
  · exact h e' older p t hsuffix hrefuses

/-- Every move keeps the refusals justified. -/
theorem Justified.step (h : Justified env w.history) (htaken : Taken env w)
    (hmove : Moves env w φ l w' φ') : Justified env w'.history := by
  cases hmove with
  | start idle => exact h.cons fun _ => rfl
  | finish task ends => exact h.cons fun _ => rfl
  | crash noted =>
    obtain rfl | ⟨task, -, rfl⟩ := noted
    · exact h
    · exact h.cons fun _ => rfl
  | tick => exact h
  | evict => exact h
  | exec task performed advance =>
    rename_i i fault id request trail c k r store ψ
    intro e older p t hsuffix hrefuses
    rcases List.suffix_cons_iff.mp hsuffix with heq | hsuffix
    · obtain ⟨rfl, rfl⟩ := List.cons.inj heq
      rw [Event.refuses.eq_def] at hrefuses
      split at hrefuses
      · -- a refused `SET NX`: the key is there
        rename_i q v ttl time hcall
        cases hcall
        split at hrefuses
        · rename_i hq
          subst hq
          obtain rfl := Option.some.inj hrefuses
          obtain ⟨message, -, hr, -⟩ | ⟨-, hr, -⟩ := performed.redis_cases
          · cases hr
          · simp only [Redis.execute] at hr
            split at hr
            · cases hr
            · rename_i e hlive
              obtain ⟨t', ht', hexpires⟩ := htaken q e hlive
              exact ⟨t', ht', (Redis.live_eq_some.mp hlive).2 _ hexpires⟩
        · cases hrefuses
      · cases hrefuses
    · exact h e older p t hsuffix hrefuses

/-- **Nobody is locked out for longer than the lifetime of a lock.** In every run that begins
without locks, whatever fails (without effect) and whichever processes stop, a request to
which Redis denies the lock of a player finds one that was acquired less than a lifetime
before and has not been given back. (A `SET NX` that fails also makes the server answer
`kPlayerBusy`; it is no denial.) -/
theorem busy_while_locked {ok : World ι → Label ι → Prop} (hw₀ : w₀.Fresh)
    (hfree : ∀ p, w₀.store.redis.live (.playerLock p) = none) (h : World.Run env ok w₀ w)
    {e : Event} {older : List Event} {p : ℤ} {t : ℕ} (he : e :: older <:+ w.history)
    (hrefuses : e.refuses p = some t) :
    ∃ t', lockTaken p older = some t' ∧
      t < t' + 1000 * (RedisPlayerLockRepository.ttlSeconds env).toNat := by
  have hinit : Taken env w₀ := by
    intro p e he
    rw [hfree p] at he
    cases he
  have hjustified : Justified env w₀.history := by
    intro e older p t hsuffix
    rw [hw₀.history] at hsuffix
    cases List.suffix_nil.mp hsuffix
  obtain ⟨φ, -, -, -, hend⟩ := h.phased
    (I := fun w φ => Budgeted env w φ ∧ Taken env w ∧ Justified env w.history) hw₀.tasks
    ⟨.init hw₀.tasks, hinit, hjustified⟩
    fun w φ l w' φ' _ hphased hI _ hmove =>
      ⟨hI.1.step hphased hmove, hI.2.1.step hI.1 hmove, hI.2.2.step hI.2.1 hmove⟩
  exact hend e older p t he hrefuses

/-- A server stops inside the lock of a player. The next request is turned away nine seconds
later; the one after it, a second later, gets the lock. -/
theorem busy_while_locked_demo :
    ∃ w, World.Run demoEnv (fun _ l => l.faultless = true) demoWorld w ∧
      (∃ task, w.tasks true = some task ∧ heldLock task.trail = some 20001) ∧
      ∃ e older, e :: older <:+ w.history ∧ e.refuses 20001 = some 9000 ∧
        ∃ t', lockTaken 20001 older = some t' ∧
          9000 < t' + 1000 * (RedisPlayerLockRepository.ttlSeconds demoEnv).toNat := by
  have hrun : (replay (World.step demoEnv) (fun _ l => l.faultless) demoWorld
      (.start false (.enterDungeon ⟨"s", 20001, 1001⟩) :: List.replicate 4 (.exec false none) ++
        [.crash false, .tick 9000, .start true (.enterDungeon ⟨"s", 20001, 1001⟩),
          .exec true none, .exec true none, .finish true, .tick 1000,
          .start true (.enterDungeon ⟨"s", 20001, 1001⟩), .exec true none, .exec true none])).any
      (fun w => ((w.tasks true).any fun task => heldLock task.trail = some 20001) &&
        (w.history.drop 4).head?.any fun e => e.refuses 20001 = some 9000) = true := by
    decide +kernel
  obtain ⟨w, hreach, hend⟩ := Reach.of_replay_any (fun _ _ hl => hl) hrun
  obtain ⟨hheld, hrefused⟩ := Bool.and_eq_true_iff.mp hend
  obtain ⟨task, htask, hlock⟩ := (Option.any_eq_true _ _).mp hheld
  obtain ⟨e, he, hrefuses⟩ := (Option.any_eq_true _ _).mp hrefused
  obtain ⟨older, hdrop⟩ := List.head?_eq_some_iff.mp he
  have hsuffix : e :: older <:+ w.history := hdrop ▸ List.drop_suffix 4 w.history
  exact ⟨w, hreach, ⟨task, htask, of_decide_eq_true hlock⟩, e, older, hsuffix,
    of_decide_eq_true hrefuses, busy_while_locked demoWorld_fresh (fun _ => rfl) hreach hsuffix
      (of_decide_eq_true hrefuses)⟩

end GameBackend
