import GameBackend.Locks
import Mathlib.Data.Fintype.Basic

/-!
# One unfinished battle per player

`EnterDungeon` looks for a pending battle with a plain `SELECT` and inserts one
some statements later. No key of the schema and no lock of MySQL keeps a second
request from doing the same in between; only the player lock does, and that may
have expired. So a player can get two pending battles, but only when a request
commits while another one has passed its check.
-/

namespace GameBackend

variable {ι : Type} [DecidableEq ι] {env : Env} {cfg : DungeonConfig}

/-- The number of pending battles of player `p`. -/
def Tables.pendingBattles (t : Tables) (p : ℤ) : ℕ :=
  t.dungeonBattle.count fun r => r.playerId = p ∧ r.status = 0

/-! ## What a deed does to the pending battles -/

section Deeds

variable {t t' : Tables} {deed : Deed}

theorem Transacts.pendingBattles_enter {row : BattleRow} (h : Transacts cfg (.enter row) t t')
    (p : ℤ) : t'.pendingBattles p = t.pendingBattles p + if row.playerId = p then 1 else 0 := by
  rw [Entered.eq h, Tables.pendingBattles, Table.count]
  change (t.dungeonBattle.insert row).rows.countP _ = _
  rw [Table.rows_insert (Entered.free h), List.countP_append]
  refine congrArg (t.pendingBattles p + ·) ?_
  by_cases hp : row.playerId = p
  · simp [hp, Entered.pending h]
  · simp [hp]

theorem Transacts.pendingBattles_settle {s : Settlement} (h : Transacts cfg (.settle s) t t')
    (p : ℤ) : t'.pendingBattles p ≤ t.pendingBattles p := by
  rw [Tables.pendingBattles, Tables.pendingBattles, Settled.battles h, Tables.finishBattle,
    Tables.updateBattle, Table.count, Table.modify, List.countP_map]
  refine List.countP_mono_left fun r _ hr => ?_
  simp only [Function.comp, decide_eq_true_eq] at hr ⊢
  split at hr
  · exact absurd hr.2 (by simp [BattleRow.finish])
  · exact hr

/-- The `SELECT` of the check finds no row exactly if there is no pending
battle. -/
theorem pendingBattle_rows {p : ℤ} :
    (Query.pendingBattle p).rows t = [] ↔ t.pendingBattles p = 0 := by
  rw [Tables.pendingBattles, Table.count, List.countP_eq_zero]
  simp [Query.rows, List.filter_eq_nil_iff]

end Deeds

/-! ## The check in a run -/

/-- The player whose check for a pending battle process `i` has passed, as long
as its transaction can be committed. -/
def World.passedCheck (w : World ι) (i : ι) : Option ℤ :=
  (w.tasks i).bind fun task => pendingPassed task.trail

/-- The step `l` is not the `COMMIT` of a request that has passed its check for a
player while another request has passed it for the same player too. -/
def CommitsAlone (w : World ι) : Label ι → Prop
  | .exec i _ => w.next i = some (.sql .commit) → w.passedCheck i ≠ none →
      ∀ j, w.passedCheck j = w.passedCheck i → j = i
  | _ => True

instance [Fintype ι] (w : World ι) : (l : Label ι) → Decidable (CommitsAlone w l)
  | .exec i _ => inferInstanceAs (Decidable (w.next i = some (.sql .commit) →
      w.passedCheck i ≠ none → ∀ j, w.passedCheck j = w.passedCheck i → j = i))
  | .start _ _ => isTrue trivial
  | .finish _ => isTrue trivial
  | .crash _ => isTrue trivial
  | .tick _ => isTrue trivial
  | .evict _ => isTrue trivial

variable {w w' w₀ : World ι} {φ φ' : ι → Phase} {l : Label ι}

omit [DecidableEq ι] in
theorem Phased.passedCheck (h : Phased env w φ) (i : ι) :
    w.passedCheck i = (φ i).pendingPassed := by
  rw [World.passedCheck]
  rcases hi : w.tasks i with _ | task
  · rw [h.idle i hi]
    rfl
  · exact pendingPassed_eq (h.path i task hi)

/-- A request passes its check by a `SELECT` that finds nothing. -/
theorem Advance.pendingPassed {c : Cmd} {r : c.Reply} {φ ψ : Phase} {p : ℤ}
    (h : Advance cfg φ c r ψ) (hp : ψ.pendingPassed = some p) :
    φ.pendingPassed = some p ∨ ∃ (row : BattleRow) (r' : Option (List String)),
      φ = .opened row ∧ row.playerId = p ∧ emptyReply r' ∧
        (⟨c, r⟩ : Exchange) = ⟨.sql (.select (.pendingBattle p)), r'⟩ := by
  cases h with
  | pass harmless _ => exact .inl hp
  | noPending empty =>
    rename_i row r
    obtain rfl : row.playerId = p := Option.some.inj hp
    exact .inr ⟨row, r, rfl, rfl, empty, rfl⟩
  | write accepted =>
    rename_i deed done todo w n
    cases deed with
    | enter row => exact .inl hp
    | settle s => cases hp
  | _ => cases hp

/-! ## The invariant -/

/-- No player has two pending battles, and a request that has passed its check
can rely on it. -/
structure OnePending (t : Tables) (φ : ι → Phase) : Prop where
  atMostOne : ∀ p, t.pendingBattles p ≤ 1
  passed : ∀ i p, (φ i).pendingPassed = some p → t.pendingBattles p = 0

omit [DecidableEq ι] in
theorem OnePending.init (hw : w.Fresh) : OnePending w.store.mysql.tables fun _ : ι => .outside where
  atMostOne p := by simp [Tables.pendingBattles, Table.count, hw.battles]
  passed i p hp := nomatch hp

/-- A check that did not fail and has found nothing: there is no pending battle. -/
theorem pendingBattles_of_check {s s' : Store ι} {i : ι} {p : ℤ} {r : Option (List String)}
    (hp : s.Performed i none (.sql (.select (.pendingBattle p))) r s')
    (htxn : s.mysql.txns i = some []) (hempty : emptyReply r) :
    s.mysql.tables.pendingBattles p = 0 := by
  obtain ⟨message, hf, -, -⟩ | ⟨-, m, hexec, -⟩ := hp.sql_cases
  · cases hf
  have hview : s.mysql.view i = s.mysql.tables := by
    rw [Mysql.view, htxn]
    rfl
  simp only [Mysql.execute, hview, Option.some.injEq, Prod.mk.injEq] at hexec
  obtain ⟨rfl, -⟩ := hexec
  exact pendingBattle_rows.mp hempty

/-- A deed keeps the invariant, if a battle is entered behind a check and nobody else has
passed the check for this player. -/
theorem OnePending.commit {t t' : Tables} {deed : Deed} {i : ι} (h : OnePending t φ)
    (htransacts : Transacts cfg deed t t')
    (hchecked : ∀ row, deed = .enter row → (φ i).pendingPassed = some row.playerId ∧
      ∀ j, (φ j).pendingPassed = some row.playerId → j = i) :
    OnePending t' (Function.update φ i (.committed deed)) := by
  have hother : ∀ j p, (Function.update φ i (.committed deed) j).pendingPassed = some p →
      j ≠ i ∧ (φ j).pendingPassed = some p := by
    intro j p hp
    by_cases hj : j = i
    · rw [hj, Function.update_self] at hp
      cases hp
    · rw [Function.update_of_ne hj] at hp
      exact ⟨hj, hp⟩
  cases deed with
  | settle s =>
    refine ⟨fun p => (htransacts.pendingBattles_settle p).trans (h.atMostOne p), ?_⟩
    intro j p hp
    have hle := htransacts.pendingBattles_settle p
    rw [h.passed j p (hother j p hp).2] at hle
    exact Nat.le_zero.mp hle
  | enter row =>
    obtain ⟨hpassed, halone⟩ := hchecked row rfl
    refine ⟨fun p => ?_, fun j p hp => ?_⟩
    · rw [htransacts.pendingBattles_enter]
      split
      · rename_i hp
        rw [← hp, h.passed i _ hpassed]
      · exact h.atMostOne p
    · obtain ⟨hj, hp⟩ := hother j p hp
      have hne : row.playerId ≠ p := by
        rintro rfl
        exact hj (halone j hp)
      rw [htransacts.pendingBattles_enter, if_neg hne]
      exact h.passed j p hp

/-- Every move keeps the invariant, unless a check for a pending battle fails or
is overtaken. -/
theorem OnePending.step (h : OnePending w.store.mysql.tables φ) (hphased : Phased env w φ)
    (hcore : Core env w φ)
    (hselect : ∀ p, w.Fails l (.sql (.select (.pendingBattle p))) →
      w.store.mysql.tables.pendingBattles p = 0)
    (halone : CommitsAlone w l) (hmove : Moves env w φ l w' φ')
    (hstep : TableStep env.dungeonConfig w w' φ φ' l) : OnePending w'.store.mysql.tables φ' := by
  rcases hstep with ⟨htables, -⟩ | ⟨rfl, hnext, hbefore, rfl, htransacts, -⟩
  · rw [htables]
    refine ⟨h.atMostOne, ?_⟩
    have hout : ∀ i j p, (Function.update φ i .outside j).pendingPassed = some p →
        w.store.mysql.tables.pendingBattles p = 0 := by
      intro i j p hp
      by_cases hj : j = i
      · rw [hj, Function.update_self] at hp
        cases hp
      · rw [Function.update_of_ne hj] at hp
        exact h.passed j p hp
    cases hmove with
    | start idle => exact h.passed
    | finish task ends => exact hout _
    | crash => exact hout _
    | tick => exact h.passed
    | evict => exact h.passed
    | exec task performed advance =>
      rename_i i fault id request trail c k r store ψ
      intro j p hp
      by_cases hj : j = i
      · rw [hj, Function.update_self] at hp
        rcases advance.pendingPassed hp with hold | ⟨row, r', hopened, rfl, hempty, hexchange⟩
        · exact h.passed i p hold
        · obtain ⟨rfl, hr⟩ := Sigma.mk.inj hexchange
          obtain rfl := eq_of_heq hr
          cases fault with
          | some message => exact hselect _ ⟨i, message, rfl, by rw [World.next, task]⟩
          | none =>
            have htxn := hcore.txn i
            rw [hopened] at htxn
            exact pendingBattles_of_check performed htxn hempty
      · rw [Function.update_of_ne hj] at hp
        exact h.passed j p hp
  · rename_i i fault deed
    refine h.commit htransacts ?_
    rintro row rfl
    have hpassed : (φ i).pendingPassed = some row.playerId := by rw [hbefore]; rfl
    have hpassed' : w.passedCheck i = some row.playerId := (hphased.passedCheck i).trans hpassed
    refine ⟨hpassed, fun j hj => halone hnext (hpassed' ▸ Option.some_ne_none _) j ?_⟩
    rw [hphased.passedCheck j, hj, hpassed']

/-! ## Every run -/

/-- The step `l` keeps what the check for a pending battle is for: the `SELECT`
does not fail when there is a pending battle, no `ROLLBACK` fails, and no request
commits while another one has passed its check for the same player. -/
structure ChecksPending (w : World ι) (l : Label ι) : Prop where
  rollback : ¬w.Fails l (.sql .rollback)
  select : ∀ p, w.Fails l (.sql (.select (.pendingBattle p))) →
    w.store.mysql.tables.pendingBattles p = 0
  alone : CommitsAlone w l

theorem World.Run.onePending (hw₀ : w₀.Fresh) (h : World.Run env ChecksPending w₀ w) :
    ∃ φ, Phased env w φ ∧ Core env w φ ∧ OnePending w.store.mysql.tables φ :=
  h.core (I := fun w φ => OnePending w.store.mysql.tables φ) hw₀ (fun _ _ hok => hok.rollback)
    (.init hw₀) fun _ _ _ _ _ _ hphased hcore hI hok hmove _ hstep =>
      hI.step hphased hcore hok.select hok.alone hmove hstep

/-- **One pending battle per player**, in every run in which no check is
overtaken. The player lock may expire at any time. -/
theorem one_pending_battle (hw₀ : w₀.Fresh) (h : World.Run env ChecksPending w₀ w) (p : ℤ) :
    w.store.mysql.tables.pendingBattles p ≤ 1 := by
  obtain ⟨φ, -, -, hone⟩ := h.onePending hw₀
  exact hone.atMostOne p

/-- A request whose lock has expired stops after its check; another server enters
the dungeon for the same player. -/
theorem one_pending_battle_demo :
    ∃ w, World.Run demoEnv ChecksPending demoWorld w ∧ w.history.length = 29 ∧
      w.store.mysql.tables.pendingBattles 20001 ≤ 1 := by
  have hrun : (replay (World.step demoEnv) (fun w l => l.faultless && decide (CommitsAlone w l))
      demoWorld (.start false (.enterDungeon ⟨"s", 20001, 1001⟩) ::
        List.replicate 7 (.exec false none) ++ .tick 10000 :: .crash false ::
        Label.alone true (.enterDungeon ⟨"s", 20001, 1001⟩) 18)).any
        (fun w => w.history.length = 29) = true := by
    decide +kernel
  obtain ⟨w, hreach, hlength⟩ : ∃ w, World.Run demoEnv ChecksPending demoWorld w ∧
      decide (w.history.length = 29) = true := by
    refine Reach.of_replay_any (fun w l hl => ?_) hrun
    obtain ⟨hfaultless, halone⟩ := Bool.and_eq_true_iff.mp hl
    exact ⟨Label.not_fails hfaultless _, fun p hf => absurd hf (Label.not_fails hfaultless _),
      of_decide_eq_true halone⟩
  exact ⟨w, hreach, of_decide_eq_true hlength, one_pending_battle demoWorld_fresh hreach 20001⟩

/-- **Two pending battles.** A request passes its check, its lock expires, another
server enters the dungeon for the same player, then the first one goes on. -/
theorem two_pending_battles :
    ¬∀ w, World.Run demoEnv (fun _ l => (l.undisturbed && l.ofDungeon) = true) demoWorld w →
      ∀ p, w.store.mysql.tables.pendingBattles p ≤ 1 := by
  have hrun : (replay (World.step demoEnv) (fun _ l => l.undisturbed && l.ofDungeon) demoWorld
      (Label.alone true (.enterDungeon ⟨"t", 20002, 1001⟩) 18 ++
        .start false (.enterDungeon ⟨"s", 20001, 1001⟩) :: List.replicate 7 (.exec false none) ++
        .tick 10000 :: Label.alone true (.enterDungeon ⟨"s", 20001, 1001⟩) 18 ++
        List.replicate 3 (.exec false none))).any
        (fun w => 1 < w.store.mysql.tables.pendingBattles 20001) = true := by
    decide +kernel
  intro hall
  obtain ⟨w, hreach, hmany⟩ := Reach.of_replay_any (fun _ _ hl => hl) hrun
  exact absurd (hall w hreach 20001) (Nat.not_le.mpr (of_decide_eq_true hmany))

end GameBackend
