import GameBackend.Conformance

/-!
# Runs with phases

A run of the world moves every request through the phases of the protocol. The
phases are not part of the world; `Phased env w φ` says that the assignment `φ`
of phases to processes fits the world `w`, and `Moves` is a step of the world
together with the phase it leads to. `Reach.phased` is the rule every safety
proof uses: an invariant about a world and its phases holds along all runs when
every move keeps it.
-/

namespace GameBackend

variable {ι : Type} [DecidableEq ι] {env : Env} {w w' : World ι} {φ φ' : ι → Phase} {l : Label ι}

/-- The phases `φ` fit the world: each request has reached its phase by its
trail and obeys the protocol from there. -/
structure Phased (env : Env) (w : World ι) (φ : ι → Phase) : Prop where
  idle : ∀ i, w.tasks i = none → φ i = .outside
  path : ∀ i task, w.tasks i = some task →
    Path (Advance env.dungeonConfig) .outside task.trail (φ i)
  obeys : ∀ i task, w.tasks i = some task →
    Obeys env.dungeonConfig (Ends env.dungeonConfig task.request) task.rest (φ i)

/-- A step of the world and what it does to the phases. -/
inductive Moves (env : Env) (w : World ι) (φ : ι → Phase) :
    Label ι → World ι → (ι → Phase) → Prop where
  | start {i : ι} {request : Request} (idle : w.tasks i = none) :
      Moves env w φ (.start i request) { w with
        tasks := Function.update w.tasks i
          (some ⟨w.history.length, request, [], serve env request⟩)
        history := .start w.history.length request :: w.history } φ
  | exec {i : ι} {fault : Option String} {id : ℕ} {request : Request}
      {trail : List (Call Cmd Cmd.Reply)} {c : Cmd} {k : c.Reply → Program Response} {r : c.Reply}
      {store : Store ι} {ψ : Phase} (task : w.tasks i = some ⟨id, request, trail, .call c k⟩)
      (performed : w.store.Performed i fault c r store)
      (advance : Advance env.dungeonConfig (φ i) c r ψ) :
      Moves env w φ (.exec i fault) {
        store := store
        tasks := Function.update w.tasks i (some ⟨id, request, ⟨c, r⟩ :: trail, k r⟩)
        history := .call id ⟨c, r⟩ w.store.redis.now :: w.history } (Function.update φ i ψ)
  | finish {i : ι} {id : ℕ} {request : Request} {trail : List (Call Cmd Cmd.Reply)}
      {response : Response} (task : w.tasks i = some ⟨id, request, trail, .ret response⟩)
      (ends : Ends env.dungeonConfig request response (φ i)) :
      Moves env w φ (.finish i) { w with
        tasks := Function.update w.tasks i none
        history := .finish id request response :: w.history } (Function.update φ i .outside)
  | crash {i : ι} {history : List Event} (noted : history = w.history ∨
        ∃ task, w.tasks i = some task ∧ history = .stop task.id :: w.history) :
      Moves env w φ (.crash i) {
        store := w.store.crash i
        tasks := Function.update w.tasks i none
        history := history } (Function.update φ i .outside)
  | tick {ms : ℕ} : Moves env w φ (.tick ms) { w with store := w.store.tick ms } φ
  | evict {k : RedisKey} : Moves env w φ (.evict k) { w with store := w.store.evict k } φ

/-- When only process `i` changes its task and its phase, the phases fit again
if they fit at `i`. -/
theorem Phased.update {i : ι} {task : Option Task} {ψ : Phase}
    (h : Phased env w φ) (htasks : w'.tasks = Function.update w.tasks i task)
    (hidle : task = none → ψ = .outside)
    (hpath : ∀ t, task = some t → Path (Advance env.dungeonConfig) .outside t.trail ψ)
    (hobeys : ∀ t, task = some t →
      Obeys env.dungeonConfig (Ends env.dungeonConfig t.request) t.rest ψ) :
    Phased env w' (Function.update φ i ψ) := by
  have hcases : ∀ j t, w'.tasks j = t → (task = t ∧ Function.update φ i ψ j = ψ) ∨
      (w.tasks j = t ∧ Function.update φ i ψ j = φ j) := by
    intro j t hj
    rw [htasks] at hj
    by_cases hji : j = i
    · subst hji
      rw [Function.update_self] at hj
      exact .inl ⟨hj, Function.update_self ..⟩
    · rw [Function.update_of_ne hji] at hj
      exact .inr ⟨hj, Function.update_of_ne hji ..⟩
  refine ⟨?_, ?_, ?_⟩
  · intro j hj
    rcases hcases j none hj with ⟨htask, hφ⟩ | ⟨hj, hφ⟩
    · rw [hφ]
      exact hidle htask
    · rw [hφ]
      exact h.idle j hj
  · intro j t hj
    rcases hcases j (some t) hj with ⟨htask, hφ⟩ | ⟨hj, hφ⟩
    · rw [hφ]
      exact hpath t htask
    · rw [hφ]
      exact h.path j t hj
  · intro j t hj
    rcases hcases j (some t) hj with ⟨htask, hφ⟩ | ⟨hj, hφ⟩
    · rw [hφ]
      exact hobeys t htask
    · rw [hφ]
      exact h.obeys j t hj

/-- Every step of a world with fitting phases is a move to fitting phases. -/
theorem Phased.step (h : Phased env w φ) (hs : w.step env l = some w') :
    ∃ φ', Moves env w φ l w' φ' ∧ Phased env w' φ' := by
  have hoff : ∀ {i : ι}, w'.tasks = Function.update w.tasks i none →
      Phased env w' (Function.update φ i .outside) := fun htasks =>
    h.update htasks (fun _ => rfl) (fun t ht => nomatch ht) fun t ht => nomatch ht
  cases does_of_step hs with
  | start idle =>
    rename_i i request
    refine ⟨φ, .start idle, ?_⟩
    have hφ : Function.update φ i .outside = φ := by
      rw [← h.idle i idle, Function.update_eq_self]
    rw [← hφ]
    refine h.update rfl (fun _ => rfl) ?_ ?_
    · intro t ht
      exact Option.some.inj ht ▸ .nil
    · intro t ht
      exact Option.some.inj ht ▸ serve_obeys env request
  | exec task performed =>
    rename_i i fault id request trail c k r store
    obtain ⟨ψ, hadv, hk⟩ := h.obeys i _ task r (Store.plausible_of_perform performed)
    refine ⟨_, .exec task (Store.performed_of_perform performed) hadv, ?_⟩
    refine h.update rfl (fun ht => nomatch ht) ?_ ?_
    · intro t ht
      exact Option.some.inj ht ▸ .cons (h.path i _ task) hadv
    · intro t ht
      exact Option.some.inj ht ▸ hk
  | finish task => exact ⟨_, .finish task (h.obeys _ _ task), hoff rfl⟩
  | stop running => exact ⟨_, .crash (.inr ⟨_, running, rfl⟩), hoff rfl⟩
  | restart idle => exact ⟨_, .crash (.inl rfl), hoff rfl⟩
  | tick => exact ⟨φ, .tick, ⟨h.idle, h.path, h.obeys⟩⟩
  | evict => exact ⟨φ, .evict, ⟨h.idle, h.path, h.obeys⟩⟩

omit [DecidableEq ι] in
/-- At rest every process is outside. -/
theorem Phased.rest (h : ∀ i, w.tasks i = none) : Phased env w fun _ => .outside where
  idle _ _ := rfl
  path i task hi := by rw [h i] at hi; cases hi
  obeys i task hi := by rw [h i] at hi; cases hi

variable {ok : World ι → Label ι → Prop} {w₀ : World ι}

/-- The invariant rule for worlds with phases. -/
theorem World.Run.phased {I : World ι → (ι → Phase) → Prop} (hrest : ∀ i, w₀.tasks i = none)
    (h₀ : I w₀ fun _ => .outside)
    (hstep : ∀ w φ l w' φ', World.Run env ok w₀ w → Phased env w φ → I w φ → ok w l →
      Moves env w φ l w' φ' → I w' φ')
    (h : World.Run env ok w₀ w) : ∃ φ, Phased env w φ ∧ I w φ := by
  induction h with
  | refl => exact ⟨_, .rest hrest, h₀⟩
  | tail hr hok hs ih =>
    obtain ⟨φ, hφ, hI⟩ := ih
    obtain ⟨φ', hmove, hφ'⟩ := hφ.step hs
    exact ⟨φ', hφ', hstep _ _ _ _ _ hr hφ hI hok hmove⟩

end GameBackend
