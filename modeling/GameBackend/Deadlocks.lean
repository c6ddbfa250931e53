import GameBackend.RowLocks
import Mathlib

/-!
# No deadlock

Without the player lock requests may wait for rows that another one has written. As long
as every battle number is drawn once and no `ROLLBACK` fails, they do not wait in a circle:
the rows are written in ascending order (`RowKey.rank`), first the battle, then the assets,
the progress and the reward log. `EnterDungeon` writes the assets before the battle, but the
battle it inserts is one that nobody else has written. Gap and next-key locks are not
judged.

* `no_deadlock` — the wait-for graph has no cycle, and every request that waits does so,
  over some others, for one whose next command gets its answer.
* `drains` — from every state that is reached all requests can be brought to an end
  without any command failing, and then no row is locked.
-/

namespace GameBackend

variable {ι : Type} [DecidableEq ι] {env : Env} {cfg : DungeonConfig}
variable {w w' w₀ : World ι} {φ φ' : ι → Phase} {l : Label ι}

/-! ## The order of the locks -/

/-- The place of a row in the order in which rows are locked. -/
def RowKey.rank : RowKey → Fin 6
  | .battle _ => 0
  | .asset _ => 1
  | .progress _ _ => 2
  | .reward _ _ rewardType =>
    if rewardType = "gold" then 3 else if rewardType = "diamond" then 4 else 5

/-- A settlement locks its rows in ascending order. -/
theorem rank_plan_settle (cfg : DungeonConfig) (s : Settlement) :
    ((Deed.settle s).plan cfg).Pairwise fun v v' => v.key.rank < v'.key.rank := by
  rw [Deed.plan, Settlement.rewardRows]
  split
  · simp [SqlWrite.key, RowKey.rank]
  · simp [SqlWrite.key, RowKey.rank]

omit [DecidableEq ι] in
/-- A battle that another transaction has locked is used. -/
theorem Mysql.used_of_locked {m : Mysql ι} (hsound : m.Sound) (hm : m.Accounted) {b : String}
    {j : ι} (h : m.locks (.battle b) = some j) : m.Used b := by
  obtain ⟨ws, hws, s, hs, hkey⟩ := hm _ j h
  cases s with
  | insertBattle row => exact .inr ⟨j, ws, row, hws, hs, RowKey.battle.inj hkey⟩
  | updateBattle b' =>
    obtain rfl := RowKey.battle.inj hkey
    obtain ⟨t', hwrote⟩ := hsound.justified j ws hws _ hs
    cases hwrote with
    | updateBattle found unsettled => exact .inl (by rw [found]; rfl)
  | updateAssetStamina p c => cases hkey
  | updateAssetReward p g m => cases hkey
  | upsertProgress p d star first => cases hkey
  | insertRewardLog row => cases hkey

omit [DecidableEq ι] in
/-- As long as battle ids are drawn once, rows are locked in ascending order. -/
theorem ascending (hphased : Phased env w φ) (hcore : Core env w φ)
    (hnumbering : Numbering env.dungeonConfig w φ) (haccounted : w.store.mysql.Accounted) :
    Ascending w.store.mysql.locks w.wants RowKey.rank := by
  rintro i j k k' ⟨-, k₀, hk₀, hheld⟩ hk hk'
  obtain rfl := Option.some.inj (hk.symm.trans hk₀)
  obtain ⟨s, hnext, rfl⟩ := World.wants_eq_some.mp hk
  obtain ⟨deed, done, todo, hφ⟩ := hphased.writes hnext
  have htxn := hcore.txn i
  have hplan : done ++ s :: todo = deed.plan env.dungeonConfig := by
    have hplanned := hnumbering.planned i
    rw [hφ] at hplanned
    exact hplanned
  rw [hφ] at htxn
  -- what the process holds it has written in this transaction
  obtain ⟨ws, hws, v, hv, rfl⟩ := haccounted k' i hk'
  obtain rfl := Option.some.inj ((show _ = some done from htxn).symm.trans hws)
  cases deed with
  | settle settlement =>
    have hpairwise := rank_plan_settle env.dungeonConfig settlement
    rw [← hplan, List.pairwise_append] at hpairwise
    exact hpairwise.2.2 v hv s List.mem_cons_self
  | enter row =>
    -- only the `INSERT` comes after another write, and nobody else knows its battle
    have hinsert : s = .insertBattle row := by
      rcases done with _ | ⟨x, _ | ⟨y, done⟩⟩
      · cases hv
      · simp only [Deed.plan, List.cons_append, List.nil_append, List.cons.injEq] at hplan
        exact hplan.2.1
      · simp [Deed.plan] at hplan
    subst hinsert
    refine absurd (Mysql.used_of_locked hcore.sound haccounted hheld) ?_
    exact (hnumbering.free i row.battleId (by rw [hφ]; rfl)).2

/-! ## A request that does not wait -/

omit [DecidableEq ι] in
/-- A process with an open transaction sends a further command. -/
theorem next_of_txn (hphased : Phased env w φ) (hcore : Core env w φ) (hbudgeted : Budgeted env w φ)
    {i : ι} (h : (w.store.mysql.txns i).isSome = true) : ∃ c, w.next i = some c := by
  have htxn := hcore.txn i
  rcases hi : w.tasks i with _ | ⟨id, request, trail, rest⟩
  · rw [Phase.txn_of_lock (by rw [hphased.idle i hi]; rfl) htxn] at h
    cases h
  · cases rest with
    | call c k => exact ⟨c, by rw [World.next, hi]⟩
    | ret response =>
      have hends : Ends env.dungeonConfig request response (φ i) := hphased.obeys i _ hi
      rw [Phase.txn_of_lock hends.lock htxn] at h
      cases h
    | throw =>
      rw [hbudgeted.txn_of_throw hcore hi rfl] at h
      cases h

/-- What holds of every run in which battle ids are drawn once. -/
theorem World.Run.numbered {ok : World ι → Label ι → Prop} (hw₀ : w₀.Fresh)
    (hroll : ∀ w l, ok w l → ¬w.Fails l (.sql .rollback))
    (hafresh : ∀ w l, ok w l → DrawsAfresh w l) (h : World.Run env ok w₀ w) :
    ∃ φ, Phased env w φ ∧ Core env w φ ∧ Budgeted env w φ ∧ Numbering env.dungeonConfig w φ :=
  h.core (I := fun w φ => Budgeted env w φ ∧ Numbering env.dungeonConfig w φ) hw₀ hroll
    ⟨.init hw₀.tasks, .init hw₀⟩ fun w _ l _ _ hr hphased _ hI hok hmove _ _ =>
      ⟨hI.1.step hphased hmove,
        hI.2.step hphased (World.Run.scoped hw₀ hr) (hafresh w l hok) hmove⟩

omit [DecidableEq ι] in
/-- A process that another one waits for has a transaction open. -/
theorem World.Waits.txn (haccounted : w.store.mysql.Accounted) {i j : ι} (h : w.Waits i j) :
    (w.store.mysql.txns j).isSome = true := by
  obtain ⟨-, k, -, hheld⟩ := h
  obtain ⟨ws, hws, -⟩ := haccounted k j hheld
  rw [hws]
  rfl

/-- **No deadlock.** In every run in which no `ROLLBACK` fails and battle numbers are drawn
once, with or without the player lock, requests never wait in a circle for rows that they
have written, and every request that waits does so, over some others, for one whose next
command gets its answer. -/
theorem no_deadlock {ok : World ι → Label ι → Prop} (hw₀ : w₀.Fresh)
    (hroll : ∀ w l, ok w l → ¬w.Fails l (.sql .rollback))
    (hafresh : ∀ w l, ok w l → DrawsAfresh w l) (h : World.Run env ok w₀ w) :
    (∀ i, ¬Relation.TransGen w.Waits i i) ∧
      ∀ i c, w.next i = some c → ∃ j, Relation.ReflTransGen w.Waits i j ∧
        ∀ fault, ∃ w', w.step env (.exec j fault) = some w' := by
  obtain ⟨φ, hphased, hcore, hbudgeted, hnumbering⟩ := h.numbered hw₀ hroll hafresh
  have haccounted := World.Run.accounted hw₀ h
  have hascending := ascending hphased hcore hnumbering haccounted
  refine ⟨fun i => hascending.acyclic, fun i c hnext => ?_⟩
  obtain ⟨j, hij, hj⟩ := hascending.exists_unblocked i
  refine ⟨j, hij, ?_⟩
  rcases Relation.ReflTransGen.cases_tail hij with rfl | ⟨m, -, hmj⟩
  · exact World.exec_of_not_waits env hnext hj
  · obtain ⟨c', hnext'⟩ := next_of_txn hphased hcore hbudgeted (World.Waits.txn haccounted hmj)
    exact World.exec_of_not_waits env hnext' hj

/-- The steps of a run in which a player lock expires too early: one request is in its
transaction, a second one of the same player has drawn another battle number and waits
for the assets. -/
private def waitingSteps : List (Label Bool) :=
  Label.alone false (.login ⟨"demo2", "demo2"⟩) 9 ++
    .start true (.enterDungeon ⟨"s", 20001, 1001⟩) :: List.replicate 8 (.exec true none) ++
    .tick 11000 :: .start false (.enterDungeon ⟨"s", 20001, 1001⟩) ::
    List.replicate 7 (.exec false none)

private theorem waiting_run :
    ∃ w, World.Run demoEnv (fun w l => l.faultless = true ∧ DrawsAfresh w l) demoWorld w ∧
      w.wants false = some (.asset 20001) ∧ w.store.mysql.locks (.asset 20001) = some true := by
  have hrun : (replay (World.step demoEnv) (fun w l => l.faultless && decide (DrawsAfresh w l))
      demoWorld waitingSteps).any (fun w => w.wants false = some (.asset 20001) ∧
        w.store.mysql.locks (.asset 20001) = some true) = true := by
    decide +kernel
  obtain ⟨w, hreach, hwaits⟩ : ∃ w, World.Run demoEnv
      (fun w l => l.faultless = true ∧ DrawsAfresh w l) demoWorld w ∧
      decide (w.wants false = some (.asset 20001) ∧
        w.store.mysql.locks (.asset 20001) = some true) = true := by
    refine Reach.of_replay_any (fun w l hl => ?_) hrun
    obtain ⟨hfaultless, hafresh⟩ := Bool.and_eq_true_iff.mp hl
    exact ⟨hfaultless, of_decide_eq_true hafresh⟩
  exact ⟨w, hreach, of_decide_eq_true hwaits⟩

/-- The second request waits for the first one, which goes on. -/
theorem no_deadlock_demo :
    ∃ w, World.Run demoEnv (fun w l => l.faultless = true ∧ DrawsAfresh w l) demoWorld w ∧
      w.Waits false true ∧ (∀ i, ¬Relation.TransGen w.Waits i i) ∧
      ∀ i c, w.next i = some c → ∃ j, Relation.ReflTransGen w.Waits i j ∧
        ∀ fault, ∃ w', w.step demoEnv (.exec j fault) = some w' := by
  obtain ⟨w, hreach, hwants, hlock⟩ := waiting_run
  exact ⟨w, hreach, ⟨Bool.false_ne_true, _, hwants, hlock⟩,
    no_deadlock demoWorld_fresh (fun _ _ h => Label.not_fails h.1 _) (fun _ _ h => h.2) hreach⟩

/-! ## Coming to an end -/

/-- The steps in which requests go on: they send their commands, none of which fails,
and return. -/
def Label.goesOn : Label ι → Bool
  | .exec _ none => true
  | .finish _ => true
  | _ => false

/-- Every request has come to an end: it has returned, or an exception has stopped it. -/
def World.Drained (w : World ι) : Prop := ∀ i task, w.tasks i = some task → task.rest = .throw

/-- What process `i` has still to do at most, its return included. -/
def World.left (w : World ι) (i : ι) : ℕ :=
  match w.tasks i with
  | some task => task.request.budget + 1 - task.trail.length
  | none => 0

omit [DecidableEq ι] in
theorem World.left_congr {i : ι} (h : w'.tasks i = w.tasks i) : w'.left i = w.left i := by
  rw [left, left, h]

/-- When one process has less to do and the others have as much as before, less is left. -/
theorem World.sum_left_lt [Fintype ι] {i : ι} (hlt : w'.left i < w.left i)
    (h : ∀ j, j ≠ i → w'.tasks j = w.tasks j) : ∑ j, w'.left j < ∑ j, w.left j := by
  refine Finset.sum_lt_sum (fun j _ => ?_) ⟨i, Finset.mem_univ i, hlt⟩
  by_cases hji : j = i
  · exact (hji ▸ hlt).le
  · exact (World.left_congr (h j hji)).le

/-- A command makes less to do. -/
theorem sum_left_exec [Fintype ι] (hbudgeted : Budgeted env w' φ') {i : ι} {fault : Option String}
    (h : w.step env (.exec i fault) = some w') : ∑ j, w'.left j < ∑ j, w.left j := by
  cases does_of_step h with
  | exec task performed =>
    refine World.sum_left_lt (i := i) ?_ fun j hji => Function.update_of_ne hji ..
    obtain ⟨n, hlength, -⟩ := hbudgeted i _ (Function.update_self ..)
    dsimp only [List.length_cons] at hlength
    simp only [World.left, Function.update_self, task, List.length_cons]
    omega

theorem sum_left_finish [Fintype ι] (hbudgeted : Budgeted env w φ) {i : ι}
    (h : w.step env (.finish i) = some w') : ∑ j, w'.left j < ∑ j, w.left j := by
  cases does_of_step h with
  | finish task =>
    refine World.sum_left_lt (i := i) ?_ fun j hji => Function.update_of_ne hji ..
    obtain ⟨n, hlength, -⟩ := hbudgeted i _ task
    dsimp only at hlength
    simp only [World.left, Function.update_self, task]
    omega

/-- The transactions of others are not concerned by a statement. -/
theorem Mysql.txns_of_execute_ne {m m' : Mysql ι} {i j : ι} {c : SqlCmd} {r : c.Reply}
    (h : m.execute i c = some (r, m')) (hji : j ≠ i) : m'.txns j = m.txns j := by
  have hcommit : (m.commitTxn i).txns j = m.txns j := by
    rw [commitTxn]
    split
    · rfl
    · exact Function.update_of_ne hji ..
  cases c with
  | startTransaction =>
    obtain ⟨-, rfl⟩ := Prod.mk.inj (Option.some.inj h)
    exact (Function.update_of_ne hji ..).trans hcommit
  | commit =>
    obtain ⟨-, rfl⟩ := Prod.mk.inj (Option.some.inj h)
    exact hcommit
  | rollback =>
    obtain ⟨-, rfl⟩ := Prod.mk.inj (Option.some.inj h)
    exact Function.update_of_ne hji ..
  | select q =>
    obtain ⟨-, rfl⟩ := Prod.mk.inj (Option.some.inj h)
    rfl
  | write s =>
    simp only [Mysql.execute] at h
    split at h
    · split at h
      · obtain ⟨-, rfl⟩ := Prod.mk.inj (Option.some.inj h)
        rfl
      · obtain ⟨-, rfl⟩ := Prod.mk.inj (Option.some.inj h)
        rfl
      · split at h
        · obtain ⟨-, rfl⟩ := Prod.mk.inj (Option.some.inj h)
          exact Function.update_of_ne hji ..
        · obtain ⟨-, rfl⟩ := Prod.mk.inj (Option.some.inj h)
          rfl
    · cases h

theorem Store.Performed.txns_ne {s s' : Store ι} {i j : ι} {fault : Option String} {c : Cmd}
    {r : c.Reply} (h : s.Performed i fault c r s') (hji : j ≠ i) :
    s'.mysql.txns j = s.mysql.txns j := by
  cases h with
  | sql executed => exact Mysql.txns_of_execute_ne executed hji
  | _ => rfl

/-- At most one process has a transaction open. -/
def World.OneOpen (w : World ι) : Prop :=
  ∀ i j, (w.store.mysql.txns i).isSome = true → (w.store.mysql.txns j).isSome = true → i = j

/-- What holds of every state that a run of the backend reaches. -/
structure Running (env : Env) (w₀ w : World ι) (φ : ι → Phase) : Prop where
  run : World.Run env (fun _ _ => True) w₀ w
  phased : Phased env w φ
  core : Core env w φ
  budgeted : Budgeted env w φ

namespace Running

/-- It goes on to hold. -/
theorem step (h : Running env w₀ w φ) (hl : l.goesOn = true) (hs : w.step env l = some w') :
    ∃ φ', Moves env w φ l w' φ' ∧ Running env w₀ w' φ' := by
  obtain ⟨φ', hmove, hphased⟩ := h.phased.step hs
  have hroll : ¬w.Fails l (.sql .rollback) := by
    rintro ⟨i, message, rfl, -⟩
    cases hl
  exact ⟨φ', hmove, h.run.tail trivial hs, hphased, (h.core.step hroll hmove).1,
    h.budgeted.step h.phased hmove⟩

omit [DecidableEq ι] in
/-- A process with an open transaction draws no number. -/
theorem drawing_of_txn (hcore : Core env w φ) (hbudgeted : Budgeted env w φ) {i : ι}
    (h : (w.store.mysql.txns i).isSome = true) : w.drawing i = none := by
  rw [World.drawing]
  split
  · rename_i id request trail k hi
    obtain ⟨n, -, -, hspending⟩ := hbudgeted i _ hi
    obtain ⟨φ', hspends, -⟩ := hspending 0 trivial
    have hmode : (φ i).mode = .writing := by
      by_contra hmode
      rw [Phase.txn_of_mode hmode (hcore.txn i)] at h
      cases h
    rw [hmode] at hspends
    cases hspends with
    | pass plain => cases plain
    | draw before => exact absurd rfl before
  · rfl

/-- One more command of a process with an open transaction that waits for nobody. -/
theorem close_step [Fintype ι] (hw₀ : w₀.Fresh) (h : Running env w₀ w φ)
    (hnumbering : Numbering env.dungeonConfig w φ) (hopen : ¬∀ i, w.store.mysql.txns i = none) :
    ∃ l w' φ', l.goesOn = true ∧ w.step env l = some w' ∧ ∑ i, w'.left i < ∑ i, w.left i ∧
      Running env w₀ w' φ' ∧ Numbering env.dungeonConfig w' φ' := by
  obtain ⟨i, hi⟩ : ∃ i, (w.store.mysql.txns i).isSome = true := by
    by_contra hnone
    exact hopen fun i => Option.not_isSome_iff_eq_none.mp fun hi => hnone ⟨i, hi⟩
  have haccounted := World.Run.accounted hw₀ h.run
  obtain ⟨j, hij, hj⟩ :=
    (ascending h.phased h.core hnumbering haccounted).exists_unblocked i
  have hjtxn : (w.store.mysql.txns j).isSome = true := by
    rcases Relation.ReflTransGen.cases_tail hij with rfl | ⟨m, -, hmj⟩
    · exact hi
    · exact World.Waits.txn haccounted hmj
  obtain ⟨c, hnext⟩ := next_of_txn h.phased h.core h.budgeted hjtxn
  obtain ⟨w', hs⟩ := World.exec_of_not_waits env hnext hj none
  obtain ⟨φ', hmove, hrunning⟩ := h.step rfl hs
  -- it has drawn its battle id before
  have hafresh : DrawsAfresh w (.exec j none) := by
    intro draw hdraw
    rw [drawing_of_txn h.core h.budgeted hjtxn] at hdraw
    cases hdraw
  exact ⟨.exec j none, w', φ', rfl, hs, sum_left_exec hrunning.budgeted hs, hrunning,
    hnumbering.step h.phased (World.Run.scoped hw₀ h.run) hafresh hmove⟩

/-- First the open transactions come to an end. -/
theorem close [Fintype ι] (hw₀ : w₀.Fresh) (h : Running env w₀ w φ)
    (hnumbering : Numbering env.dungeonConfig w φ) :
    ∃ w' φ', World.Run env (fun _ l => l.goesOn = true) w w' ∧ Running env w₀ w' φ' ∧
      ∀ i, w'.store.mysql.txns i = none := by
  have hstep : ∀ (w : World ι) (n : ℕ), (∃ φ, Running env w₀ w φ ∧
        Numbering env.dungeonConfig w φ ∧ ∑ i, w.left i = n) →
      ¬(∀ i, w.store.mysql.txns i = none) →
      ∃ l w' n', l.goesOn = true ∧ w.step env l = some w' ∧ n' < n ∧
        ∃ φ, Running env w₀ w' φ ∧ Numbering env.dungeonConfig w' φ ∧
          ∑ i, w'.left i = n' := by
    rintro w n ⟨φ, h, hnumbering, rfl⟩ hopen
    obtain ⟨l, w', φ', hl, hs, hlt, h', hnumbering'⟩ := close_step hw₀ h hnumbering hopen
    exact ⟨l, w', _, hl, hs, hlt, φ', h', hnumbering', rfl⟩
  obtain ⟨w', n', hreach, ⟨φ', hrunning, -, -⟩, hdone⟩ :=
    Reach.descend hstep _ w
      ⟨φ, h, hnumbering, rfl⟩
  exact ⟨w', φ', hreach, hrunning, hdone⟩

/-- One more step, when at most one process has a transaction open: its next command, or,
if there is none, a step of any process. -/
theorem drain_step [Fintype ι] (hw₀ : w₀.Fresh) (h : Running env w₀ w φ)
    (halone : w.OneOpen) (hdrained : ¬w.Drained) :
    ∃ l w' φ', l.goesOn = true ∧ w.step env l = some w' ∧ ∑ i, w'.left i < ∑ i, w.left i ∧
      Running env w₀ w' φ' ∧ w'.OneOpen := by
  have haccounted := World.Run.accounted hw₀ h.run
  -- the command of a process beside which no transaction is open
  have hexec : ∀ i c, w.next i = some c →
      (∀ j, (w.store.mysql.txns j).isSome = true → j = i) →
      ∃ l w' φ', l.goesOn = true ∧ w.step env l = some w' ∧ ∑ i, w'.left i < ∑ i, w.left i ∧
        Running env w₀ w' φ' ∧ w'.OneOpen := by
    intro i c hnext honly
    have hfree : ∀ j, ¬w.Waits i j := fun j hij =>
      hij.1 (honly j (World.Waits.txn haccounted hij)).symm
    obtain ⟨w', hs⟩ := World.exec_of_not_waits env hnext hfree none
    obtain ⟨φ', hmove, hrunning⟩ := h.step rfl hs
    refine ⟨.exec i none, w', φ', rfl, hs, sum_left_exec hrunning.budgeted hs, hrunning, ?_⟩
    have honly' : ∀ j, (w'.store.mysql.txns j).isSome = true → j = i := by
      intro j hj
      by_contra hji
      cases hmove with
      | exec task performed advance =>
        rw [performed.txns_ne hji] at hj
        exact hji (honly j hj)
    exact fun j j' hj hj' => (honly' j hj).trans (honly' j' hj').symm
  by_cases hopen : ∃ i, (w.store.mysql.txns i).isSome = true
  · obtain ⟨i, hi⟩ := hopen
    obtain ⟨c, hnext⟩ := next_of_txn h.phased h.core h.budgeted hi
    exact hexec i c hnext fun j hj => halone j i hj hi
  · obtain ⟨i, ⟨id, request, trail, rest⟩, hi, hrest⟩ :
        ∃ i task, w.tasks i = some task ∧ task.rest ≠ .throw := by
      by_contra hnone
      exact hdrained fun i task hi => by_contra fun hrest => hnone ⟨i, task, hi, hrest⟩
    cases rest with
    | call c k =>
      exact hexec i c (by rw [World.next, hi]) fun j hj => absurd ⟨j, hj⟩ hopen
    | ret response =>
      have hs : w.step env (.finish i) = some { w with
          tasks := Function.update w.tasks i none
          history := .finish id request response :: w.history } := by
        rw [World.step, hi]
      obtain ⟨φ', -, hrunning⟩ := h.step rfl hs
      exact ⟨.finish i, _, φ', rfl, hs, sum_left_finish h.budgeted hs, hrunning, halone⟩
    | throw => exact absurd rfl hrest

/-- Then the requests come to an end, one transaction at a time. -/
theorem drain [Fintype ι] (hw₀ : w₀.Fresh) (h : Running env w₀ w φ)
    (hclosed : ∀ i, w.store.mysql.txns i = none) :
    ∃ w' φ', World.Run env (fun _ l => l.goesOn = true) w w' ∧ Running env w₀ w' φ' ∧
      w'.Drained := by
  have hstep : ∀ (w : World ι) (n : ℕ), (∃ φ, Running env w₀ w φ ∧ w.OneOpen ∧
        ∑ i, w.left i = n) → ¬w.Drained →
      ∃ l w' n', l.goesOn = true ∧ w.step env l = some w' ∧ n' < n ∧
        ∃ φ, Running env w₀ w' φ ∧ w'.OneOpen ∧ ∑ i, w'.left i = n' := by
    rintro w n ⟨φ, h, halone, rfl⟩ hdrained
    obtain ⟨l, w', φ', hl, hs, hlt, h', halone'⟩ := drain_step hw₀ h halone hdrained
    exact ⟨l, w', _, hl, hs, hlt, φ', h', halone', rfl⟩
  have halone : w.OneOpen := by
    intro i j hi
    rw [hclosed i] at hi
    cases hi
  obtain ⟨w', n', hreach, ⟨φ', hrunning, -, -⟩, hdone⟩ :=
    Reach.descend hstep _ w ⟨φ, h, halone, rfl⟩
  exact ⟨w', φ', hreach, hrunning, hdone⟩

end Running

/-- **Every request can be brought to an end.** From every state of a run in which no
`ROLLBACK` fails and battle numbers are drawn once, whatever requests it leaves unfinished
and with or without the player lock, all requests come to an end when they just go on and
no command fails; then no transaction is open and no row is locked. -/
theorem drains [Fintype ι] {ok : World ι → Label ι → Prop} (hw₀ : w₀.Fresh)
    (hroll : ∀ w l, ok w l → ¬w.Fails l (.sql .rollback))
    (hafresh : ∀ w l, ok w l → DrawsAfresh w l) (h : World.Run env ok w₀ w) :
    ∃ w', World.Run env (fun _ l => l.goesOn = true) w w' ∧ w'.Drained ∧
      (∀ i, w'.store.mysql.txns i = none) ∧ ∀ k, w'.store.mysql.locks k = none := by
  obtain ⟨φ, hphased, hcore, hbudgeted, hnumbering⟩ := h.numbered hw₀ hroll hafresh
  have hrunning : Running env w₀ w φ :=
    ⟨h.mono fun _ _ _ => trivial, hphased, hcore, hbudgeted⟩
  obtain ⟨w₁, φ₁, hreach₁, hrunning₁, hclosed⟩ := hrunning.close hw₀ hnumbering
  obtain ⟨w', φ', hreach', hrunning', hdrained⟩ := hrunning₁.drain hw₀ hclosed
  have htxns : ∀ i, w'.store.mysql.txns i = none := by
    intro i
    rcases hi : w'.tasks i with _ | task
    · exact Phase.txn_of_lock (by rw [hrunning'.phased.idle i hi]; rfl) (hrunning'.core.txn i)
    · exact hrunning'.budgeted.txn_of_throw hrunning'.core hi (hdrained i task hi)
  refine ⟨w', hreach₁.trans hreach', hdrained, htxns, fun k => ?_⟩
  rcases hk : w'.store.mysql.locks k with _ | i
  · rfl
  · obtain ⟨ws, hws, -⟩ := World.Run.accounted hw₀ hrunning'.run k i hk
    rw [htxns i] at hws
    cases hws

/-- Both requests for the same player come to an end. -/
theorem drains_demo :
    ∃ w, World.Run demoEnv (fun w l => l.faultless = true ∧ DrawsAfresh w l) demoWorld w ∧
      w.Waits false true ∧
      ∃ w', World.Run demoEnv (fun _ l => l.goesOn = true) w w' ∧ w'.Drained ∧
        (∀ i, w'.store.mysql.txns i = none) ∧ ∀ k, w'.store.mysql.locks k = none := by
  obtain ⟨w, hreach, hwants, hlock⟩ := waiting_run
  exact ⟨w, hreach, ⟨Bool.false_ne_true, _, hwants, hlock⟩,
    drains demoWorld_fresh (fun _ _ h => Label.not_fails h.1 _) (fun _ _ h => h.2) hreach⟩

end GameBackend
