import GameBackend.World

/-!
# Histories

The history of a world records, per request, what the request did. `Recorded`
says how it belongs to the running tasks: their numbers are distinct, no event
bears a number that is not given out yet, and the exchanges in the trail of a
task are the call events that bear its number.
-/

namespace GameBackend

variable {ι : Type} [DecidableEq ι] {env : Env} {w w' w₀ : World ι} {l : Label ι}

/-- The request an event is about. -/
def Event.id : Event → ℕ
  | start id _ => id
  | call id _ _ => id
  | finish id _ _ => id
  | stop id => id

/-- The history belongs to the running tasks. -/
structure Recorded (w : World ι) : Prop where
  /-- numbers are given out by the length of the history -/
  older : ∀ e ∈ w.history, e.id < w.history.length
  given : ∀ i task, w.tasks i = some task → task.id < w.history.length
  distinct : ∀ i j task task', w.tasks i = some task → w.tasks j = some task' →
    task.id = task'.id → i = j
  /-- the trail of a task is in the history -/
  trail : ∀ i task, w.tasks i = some task → ∀ x,
    x ∈ task.trail ↔ ∃ time, Event.call task.id x time ∈ w.history

omit [DecidableEq ι] in
theorem Recorded.init (hw : w.Fresh) : Recorded w where
  older e he := by rw [hw.history] at he; cases he
  given i task hi := by rw [hw.tasks i] at hi; cases hi
  distinct i j task task' hi := by rw [hw.tasks i] at hi; cases hi
  trail i task hi := by rw [hw.tasks i] at hi; cases hi

/-- Process `i` gets a task or goes on with one; the history notes what it did. -/
theorem Recorded.update (h : Recorded w) {i : ι} {store : Store ι} {task : Task} {e : Event}
    (hid : e.id = task.id) (hfresh : (w.tasks i = none ∧ task.id = w.history.length) ∨
      ∃ old, w.tasks i = some old ∧ old.id = task.id)
    (htrail : ∀ x, x ∈ task.trail ↔ ∃ time, Event.call task.id x time ∈ e :: w.history) :
    Recorded ⟨store, Function.update w.tasks i (some task), e :: w.history⟩ := by
  have hle : task.id ≤ w.history.length := by
    rcases hfresh with ⟨-, hlen⟩ | ⟨old, hold, hsame⟩
    · exact hlen.le
    · exact hsame ▸ (h.given i old hold).le
  -- no other task has this number
  have hother : ∀ j task', j ≠ i → w.tasks j = some task' → task'.id ≠ task.id := by
    intro j task' hj htask' heq
    rcases hfresh with ⟨-, hlen⟩ | ⟨old, hold, hsame⟩
    · exact absurd (h.given j task' htask') (by omega)
    · exact hj (h.distinct j i task' old htask' hold (heq.trans hsame.symm))
  have hcases : ∀ j task', Function.update w.tasks i (some task) j = some task' →
      (j = i ∧ task' = task) ∨ (j ≠ i ∧ w.tasks j = some task') := by
    intro j task' hj
    rcases some_of_update hj with ⟨rfl, heq⟩ | hother
    · exact .inl ⟨rfl, (Option.some.inj heq).symm⟩
    · exact .inr hother
  refine ⟨?_, ?_, ?_, ?_⟩
  · intro x hx
    simp only [List.length_cons]
    rcases List.mem_cons.mp hx with rfl | hx
    · omega
    · exact (h.older x hx).trans (Nat.lt_succ_self _)
  · intro j task' hj
    simp only [List.length_cons]
    rcases hcases j task' hj with ⟨rfl, rfl⟩ | ⟨-, hj⟩
    · omega
    · exact (h.given j task' hj).trans (Nat.lt_succ_self _)
  · intro j k task' task'' hj hk heq
    rcases hcases j task' hj with ⟨rfl, rfl⟩ | ⟨hji, hj'⟩ <;>
      rcases hcases k task'' hk with ⟨rfl, rfl⟩ | ⟨hki, hk'⟩
    · rfl
    · exact absurd heq.symm (hother k task'' hki hk')
    · exact absurd heq (hother j task' hji hj')
    · exact h.distinct j k task' task'' hj' hk' heq
  · intro j task' hj x
    rcases hcases j task' hj with ⟨rfl, rfl⟩ | ⟨hji, hj'⟩
    · exact htrail x
    · rw [h.trail j task' hj' x]
      constructor
      · rintro ⟨time, htime⟩
        exact ⟨time, List.mem_cons_of_mem _ htime⟩
      · rintro ⟨time, htime⟩
        rcases List.mem_cons.mp htime with rfl | htime
        · exact absurd hid (hother j task' hji hj')
        · exact ⟨time, htime⟩

/-- Process `i` goes back to rest; the history notes it, or nothing. -/
theorem Recorded.rest (h : Recorded w) {i : ι} {store : Store ι} {history : List Event}
    (hhistory : history = w.history ∨ ∃ e : Event, history = e :: w.history ∧
      (∀ id x time, e ≠ .call id x time) ∧ e.id < w.history.length) :
    Recorded ⟨store, Function.update w.tasks i none, history⟩ := by
  have htasks : ∀ j task, Function.update w.tasks i none j = some task → w.tasks j = some task := by
    intro j task hj
    rcases some_of_update hj with ⟨-, heq⟩ | ⟨-, hj⟩
    · cases heq
    · exact hj
  have hlength : w.history.length ≤ history.length := by
    rcases hhistory with rfl | ⟨e, rfl, -⟩
    · exact le_rfl
    · exact Nat.le_succ _
  refine ⟨?_, ?_, ?_, ?_⟩
  · intro x hx
    refine lt_of_lt_of_le ?_ hlength
    rcases hhistory with rfl | ⟨e, rfl, -, hlt⟩
    · exact h.older x hx
    · rcases List.mem_cons.mp hx with rfl | hx
      · exact hlt
      · exact h.older x hx
  · exact fun j task hj => lt_of_lt_of_le (h.given j task (htasks j task hj)) hlength
  · exact fun j k task task' hj hk =>
      h.distinct j k task task' (htasks j task hj) (htasks k task' hk)
  · intro j task hj x
    rw [h.trail j task (htasks j task hj) x]
    rcases hhistory with rfl | ⟨e, rfl, hne, -⟩
    · rfl
    · constructor
      · rintro ⟨time, htime⟩
        exact ⟨time, List.mem_cons_of_mem _ htime⟩
      · rintro ⟨time, htime⟩
        exact ⟨time, (List.mem_cons.mp htime).resolve_left (hne _ _ _).symm⟩

/-- Every step keeps the history in order. -/
theorem Recorded.step (h : Recorded w) (hs : w.step env l = some w') : Recorded w' := by
  cases does_of_step hs with
  | start idle =>
    refine h.update rfl (.inl ⟨idle, rfl⟩) fun x => ⟨fun hx => absurd hx List.not_mem_nil, ?_⟩
    rintro ⟨time, htime⟩
    rcases List.mem_cons.mp htime with heq | htime
    · cases heq
    · exact absurd (h.older _ htime) (lt_irrefl _)
  | exec task performed =>
    refine h.update rfl (.inr ⟨_, task, rfl⟩) fun x => ?_
    rw [List.mem_cons, h.trail _ _ task x]
    constructor
    · rintro (rfl | ⟨time, htime⟩)
      · exact ⟨_, List.mem_cons_self⟩
      · exact ⟨time, List.mem_cons_of_mem _ htime⟩
    · rintro ⟨time, htime⟩
      rcases List.mem_cons.mp htime with heq | htime
      · exact .inl (Event.call.inj heq).2.1
      · exact .inr ⟨time, htime⟩
  | finish task =>
    exact h.rest (.inr ⟨_, rfl, fun _ _ _ => by simp, h.given _ _ task⟩)
  | stop running =>
    exact h.rest (.inr ⟨_, rfl, fun _ _ _ => by simp, h.given _ _ running⟩)
  | restart idle => exact h.rest (.inl rfl)
  | tick => exact ⟨h.older, h.given, h.distinct, h.trail⟩
  | evict => exact ⟨h.older, h.given, h.distinct, h.trail⟩

theorem World.Run.recorded {ok : World ι → Label ι → Prop} (hw₀ : w₀.Fresh)
    (h : World.Run env ok w₀ w) : Recorded w :=
  h.invariant (.init hw₀) fun _ _ _ _ hI _ hs => hI.step hs

end GameBackend
