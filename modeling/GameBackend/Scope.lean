import GameBackend.Footprints
import GameBackend.History
import GameBackend.Phases
import GameBackend.Trails

/-!
# What a request names

The footprints of the requests along runs. A dungeon request acquires the lock of the
player it names, and only `EnterDungeon` and logins draw numbers (`Cmd.Scoped`).
`Scoped` is the same about the running requests of a world.
-/

namespace GameBackend

variable {env : Env}

/-- The command is one the request may send. -/
def Cmd.Scoped (env : Env) (request : Request) : Cmd → Prop
  | .redis (.setNx k _ _) => ∃ p, k = .playerLock p ∧ request.locks = some p
  | .fetchAddSequence => (∃ r, request = .login r) ∨
      ∃ r, request = .enterDungeon r ∧ r.dungeonId = env.dungeonConfig.dungeonId
  | _ => True

theorem Request.Sends.scoped {request : Request} {c : Cmd} (h : request.Sends env c) :
    c.Scoped env request := by
  cases c with
  | redis c =>
    cases c with
    | setNx k v ttl => exact h
    | _ => trivial
  | fetchAddSequence => exact h
  | _ => trivial

/-- Every request only sends commands that are in its scope. -/
theorem serve_scoped (env : Env) (request : Request) :
    (serve env request).Uses (Cmd.Scoped env request) :=
  (serve_sends env request).mono fun _ hc => hc.scoped

/-! ## Running requests -/

/-- The request that bears a number. -/
def requestOf (history : List Event) (id : ℕ) : Option Request :=
  history.findSome? fun
    | .start id' request => if id' = id then some request else none
    | _ => none

variable {ι : Type} [DecidableEq ι] {w w' w₀ : World ι} {φ : ι → Phase} {l : Label ι}

/-- The invariant rule for requests taken one at a time: what holds of every request
that starts and survives every answer holds of every running request. -/
theorem World.Run.each {ok : World ι → Label ι → Prop} {T : Task → Prop}
    (hstart : ∀ id request, T ⟨id, request, [], serve env request⟩)
    (hcall : ∀ id request trail c k (r : c.Reply), c.Plausible r →
      T ⟨id, request, trail, .call c k⟩ → T ⟨id, request, ⟨c, r⟩ :: trail, k r⟩)
    (hrest : ∀ i, w₀.tasks i = none) (h : World.Run env ok w₀ w) :
    ∀ i task, w.tasks i = some task → T task := by
  refine h.invariant (I := fun w => ∀ i task, w.tasks i = some task → T task)
    (fun i task hi => by rw [hrest i] at hi; cases hi) ?_
  intro w l w' _ hI _ hs
  -- only one process changes its task
  have hone : ∀ {i : ι} {new : Option Task}, (∀ task, new = some task → T task) →
      ∀ j task, Function.update w.tasks i new j = some task → T task := by
    intro i new hnew j task hj
    rcases some_of_update hj with ⟨-, hj⟩ | ⟨-, hj⟩
    · exact hnew task hj
    · exact hI j task hj
  cases does_of_step hs with
  | start idle => exact hone fun task htask => Option.some.inj htask ▸ hstart _ _
  | exec task performed =>
    refine hone fun task' htask' => ?_
    exact Option.some.inj htask' ▸ hcall _ _ _ _ _ _ (Store.plausible_of_perform performed)
      (hI _ _ task)
  | finish task => exact hone nofun
  | stop running => exact hone nofun
  | restart idle => exact hone nofun
  | tick => exact hI
  | evict => exact hI

/-- Every request keeps to its scope, and the history tells which one it is. -/
structure Scoped (env : Env) (w : World ι) : Prop where
  trail : ∀ i task, w.tasks i = some task → ∀ e ∈ task.trail, Cmd.Scoped env task.request e.1
  rest : ∀ i task, w.tasks i = some task → task.rest.Uses (Cmd.Scoped env task.request)
  started : ∀ i task, w.tasks i = some task →
    requestOf w.history task.id = some task.request

omit [DecidableEq ι] in
theorem Scoped.init (hw : w.Fresh) : Scoped env w where
  trail i task hi := by rw [hw.tasks i] at hi; cases hi
  rest i task hi := by rw [hw.tasks i] at hi; cases hi
  started i task hi := by rw [hw.tasks i] at hi; cases hi

theorem requestOf_start_ne {history : List Event} {id id' : ℕ} {request : Request}
    (h : id' ≠ id) : requestOf (.start id' request :: history) id = requestOf history id := by
  simp [requestOf, h]

/-- Process `i` gets a task or goes on with one. -/
theorem Scoped.update (h : Scoped env w) {i : ι} {store : Store ι} {task : Task} {e : Event}
    (htrail : ∀ e ∈ task.trail, Cmd.Scoped env task.request e.1)
    (hrest : task.rest.Uses (Cmd.Scoped env task.request))
    (hstarted : requestOf (e :: w.history) task.id = some task.request)
    (hothers : ∀ j task, w.tasks j = some task →
      requestOf (e :: w.history) task.id = requestOf w.history task.id) :
    Scoped env ⟨store, Function.update w.tasks i (some task), e :: w.history⟩ := by
  have hcases : ∀ j task', Function.update w.tasks i (some task) j = some task' →
      task' = task ∨ w.tasks j = some task' := by
    intro j task' hj
    rcases some_of_update hj with ⟨-, heq⟩ | ⟨-, hj⟩
    · exact .inl (Option.some.inj heq).symm
    · exact .inr hj
  refine ⟨?_, ?_, ?_⟩
  · intro j task' hj
    rcases hcases j task' hj with rfl | hj
    · exact htrail
    · exact h.trail j task' hj
  · intro j task' hj
    rcases hcases j task' hj with rfl | hj
    · exact hrest
    · exact h.rest j task' hj
  · intro j task' hj
    rcases hcases j task' hj with rfl | hj
    · exact hstarted
    · exact (hothers j task' hj).trans (h.started j task' hj)

/-- Process `i` goes back to rest. -/
theorem Scoped.idle (h : Scoped env w) {i : ι} {store : Store ι} {history : List Event}
    (hhistory : ∀ id, requestOf history id = requestOf w.history id) :
    Scoped env ⟨store, Function.update w.tasks i none, history⟩ := by
  have htasks : ∀ j task, Function.update w.tasks i none j = some task → w.tasks j = some task := by
    intro j task hj
    rcases some_of_update hj with ⟨-, heq⟩ | ⟨-, hj⟩
    · cases heq
    · exact hj
  exact ⟨fun j task hj => h.trail j task (htasks j task hj),
    fun j task hj => h.rest j task (htasks j task hj),
    fun j task hj => (hhistory _).trans (h.started j task (htasks j task hj))⟩

/-- Every step keeps the requests in their scopes. -/
theorem Scoped.step (h : Scoped env w) (hrecorded : Recorded w) (hs : w.step env l = some w') :
    Scoped env w' := by
  cases does_of_step hs with
  | start idle =>
    refine h.update (fun e he => absurd he List.not_mem_nil) (serve_scoped _ _)
      (by simp [requestOf]) fun j task hj => requestOf_start_ne ?_
    exact (hrecorded.given j task hj).ne'
  | exec task performed =>
    obtain ⟨hc, hk⟩ := h.rest _ _ task
    refine h.update (fun e he => ?_) (hk _) (h.started _ _ task :) fun _ _ _ => rfl
    rcases List.mem_cons.mp he with rfl | he
    · exact hc
    · exact h.trail _ _ task e he
  | finish task => exact h.idle fun _ => rfl
  | stop running => exact h.idle fun _ => rfl
  | restart idle => exact h.idle fun _ => rfl
  | tick => exact ⟨h.trail, h.rest, h.started⟩
  | evict => exact ⟨h.trail, h.rest, h.started⟩

theorem World.Run.scoped {ok : World ι → Label ι → Prop} (hw₀ : w₀.Fresh)
    (h : World.Run env ok w₀ w) : Scoped env w :=
  h.invariant (.init hw₀) fun _ _ _ hr hI _ hs =>
    hI.step (World.Run.recorded hw₀ hr) hs

/-- The history goes on telling which request bears a number. -/
theorem requestOf_step (hrecorded : Recorded w) (hs : w.step env l = some w') {id : ℕ}
    {request : Request} (h : requestOf w.history id = some request) :
    requestOf w'.history id = some request := by
  cases does_of_step hs with
  | start idle =>
    rw [requestOf_start_ne]
    · exact h
    · rintro rfl
      obtain ⟨e, hmem, he⟩ := List.exists_of_findSome?_eq_some h
      have holder := hrecorded.older e hmem
      split at he
      · rename_i id' request'
        split at he
        · rename_i hid
          exact absurd holder (by simp [Event.id, hid])
        · cases he
      · cases he
  | exec task performed => exact h
  | finish task => exact h
  | stop running => exact h
  | restart idle => exact h
  | tick => exact h
  | evict => exact h

/-- And so it does of a request that has returned. -/
theorem World.Run.finished {ok : World ι → Label ι → Prop} (hw₀ : w₀.Fresh)
    (h : World.Run env ok w₀ w) {id : ℕ} {request : Request} {response : Response}
    (hmem : Event.finish id request response ∈ w.history) :
    requestOf w.history id = some request := by
  have hall : ∀ id request response, Event.finish id request response ∈ w.history →
      requestOf w.history id = some request := by
    refine h.invariant (I := fun w => ∀ id request response,
      Event.finish id request response ∈ w.history → requestOf w.history id = some request) ?_ ?_
    · intro id request response hmem
      rw [hw₀.history] at hmem
      cases hmem
    · intro w l w' hr hI _ hs id request response hmem
      have hold : Event.finish id request response ∈ w.history →
          requestOf w'.history id = some request := fun hmem =>
        requestOf_step (World.Run.recorded hw₀ hr) hs (hI id request response hmem)
      cases does_of_step hs with
      | start idle => exact hold ((List.mem_cons.mp hmem).resolve_left nofun)
      | exec task performed => exact hold ((List.mem_cons.mp hmem).resolve_left nofun)
      | finish task =>
        rcases List.mem_cons.mp hmem with heq | hmem
        · cases heq
          exact (World.Run.scoped hw₀ hr).started _ _ task
        · exact hold hmem
      | stop running => exact hold ((List.mem_cons.mp hmem).resolve_left nofun)
      | restart idle => exact hold hmem
      | tick => exact hold hmem
      | evict => exact hold hmem
  exact hall id request response hmem

theorem mem_of_heldLock {p : ℤ} :
    ∀ {trail : List Exchange}, heldLock trail = some p → ∃ e ∈ trail, e.acquires = some p
  | [], h => nomatch h
  | e :: trail, h => by
    rw [heldLock] at h
    split at h
    · cases h
    · rcases he : e.acquires with _ | q
      · rw [he] at h
        obtain ⟨e', hmem, hacquires⟩ := mem_of_heldLock h
        exact ⟨e', List.mem_cons_of_mem _ hmem, hacquires⟩
      · rw [he] at h
        exact ⟨e, List.mem_cons_self, he.trans h⟩

omit [DecidableEq ι] in
/-- A request inside of a player lock has named this player. -/
theorem Scoped.lock (h : Scoped env w) (hphased : Phased env w φ) {i : ι} {task : Task} {p : ℤ}
    (hi : w.tasks i = some task) (hlock : (φ i).lock = some p) : task.request.locks = some p := by
  have hheld := (heldLock_eq (hphased.path i task hi)).trans hlock
  obtain ⟨⟨c, r⟩, hmem, hacquires⟩ := mem_of_heldLock hheld
  have hscoped := h.trail i task hi _ hmem
  unfold Exchange.acquires at hacquires
  split at hacquires
  · rename_i q v ttl r' heq
    split at hacquires
    · obtain rfl := Option.some.inj hacquires
      obtain ⟨rfl, -⟩ := Sigma.mk.inj heq
      obtain ⟨q', hq', hlocks⟩ := hscoped
      rw [RedisKey.playerLock.inj hq']
      exact hlocks
    · cases hacquires
  · cases hacquires

end GameBackend
