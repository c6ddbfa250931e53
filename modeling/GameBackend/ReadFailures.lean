import GameBackend.FirstClear

/-!
# Failing statements

`MySqlClient::Query` turns a query that fails into an empty result, and two
decisions of the servers are taken from the absence of a row: whether there is a
pending battle, and whether a settlement is a first clear. So a `SELECT` that
fails lets a second battle start and a first-clear reward be credited again, even
when the requests are processed one at a time. A `ROLLBACK` that fails is as bad:
the next `START TRANSACTION` of the connection commits what it left open.
-/

namespace GameBackend

variable {ι : Type} [DecidableEq ι] {env : Env} {w w' w₀ : World ι} {l : Label ι}

/-! ## One request at a time -/

/-- A request only arrives when no other one is being served. -/
def OneAtATime (w : World ι) : Label ι → Prop
  | .start _ _ => ∀ j, (w.tasks j).isNone
  | _ => True

/-- At most one process is working. -/
def World.Sequential (w : World ι) : Prop :=
  ∀ i j, w.tasks i ≠ none → w.tasks j ≠ none → i = j

omit [DecidableEq ι] in
/-- Nobody starts to work when only running tasks change. -/
theorem World.Sequential.mono (h : w.Sequential)
    (htasks : ∀ i, w'.tasks i ≠ none → w.tasks i ≠ none) : w'.Sequential :=
  fun i j hi hj => h i j (htasks i hi) (htasks j hj)

theorem World.Sequential.step (h : w.Sequential) (hok : OneAtATime w l)
    (hs : w.step env l = some w') : w'.Sequential := by
  have hupdate : ∀ {i : ι} {task : Option Task}, (task ≠ none → w.tasks i ≠ none) →
      ∀ j, Function.update w.tasks i task j ≠ none → w.tasks j ≠ none := by
    intro i task hi j hj
    by_cases hji : j = i
    · subst hji
      rw [Function.update_self] at hj
      exact hi hj
    · rwa [Function.update_of_ne hji] at hj
  cases does_of_step hs with
  | start idle =>
    rename_i i request
    -- everybody else is idle
    have hother : ∀ j, Function.update w.tasks i
        (some ⟨w.history.length, request, [], serve env request⟩) j ≠ none → j = i := by
      intro j hj
      by_contra hji
      rw [Function.update_of_ne hji] at hj
      exact hj (Option.isNone_iff_eq_none.mp (hok j))
    exact fun j k hj hk => (hother j hj).trans (hother k hk).symm
  | exec task performed => exact h.mono (hupdate fun _ => by rw [task]; exact Option.some_ne_none _)
  | finish task => exact h.mono (hupdate fun hne => absurd rfl hne)
  | stop running => exact h.mono (hupdate fun hne => absurd rfl hne)
  | restart idle => exact h.mono (hupdate fun hne => absurd rfl hne)
  | tick => exact h
  | evict => exact h

omit [DecidableEq ι] in
/-- Nobody is overtaken by a request that is served alone. -/
theorem World.Sequential.commitsAlone (h : w.Sequential) (l : Label ι) : CommitsAlone w l := by
  cases l with
  | exec i fault =>
    intro _ hi j hj
    have hrunning : ∀ k, w.passedCheck k ≠ none → w.tasks k ≠ none := by
      intro k hk hnone
      rw [World.passedCheck, hnone] at hk
      exact hk rfl
    exact h j i (hrunning j (hj ▸ hi)) (hrunning i hi)
  | _ => trivial

omit [DecidableEq ι] in
theorem World.Sequential.clearsAlone (h : w.Sequential) (l : Label ι) : ClearsAlone w l := by
  cases l with
  | exec i fault =>
    intro _ hi j hj
    have hrunning : ∀ k, w.firstClearRead k ≠ none → w.tasks k ≠ none := by
      intro k hk hnone
      rw [World.firstClearRead, hnone] at hk
      exact hk rfl
    rw [h j i (hrunning j (hj ▸ hi)) (hrunning i hi)]
  | _ => trivial

/-! ## Every run -/

/-- The step `l` lets no read fail in vain: requests come one at a time, the
`SELECT` for a pending battle fails only if there is none, the one for the
progress only if there is none, and no `ROLLBACK` fails. -/
structure ReadsHold (w : World ι) (l : Label ι) : Prop where
  alone : OneAtATime w l
  pending : ∀ p, w.Fails l (.sql (.select (.pendingBattle p))) →
    w.store.mysql.tables.pendingBattles p = 0
  firstClear : ∀ p d, w.Fails l (.sql (.select (.firstClear p d))) →
    w.store.mysql.tables.playerDungeon.find (p, d) = none
  rollback : ¬w.Fails l (.sql .rollback)

/-- What every step of a sequential run in which reads hold satisfies. -/
theorem World.Run.reads {ok : World ι → Label ι → Prop} (hw₀ : w₀.Fresh)
    (hok : ∀ w l, w.Sequential → ReadsHold w l → ok w l) (h : World.Run env ReadsHold w₀ w) :
    World.Run env ok w₀ w :=
  h.strengthen (I := World.Sequential) (fun i _ hi => absurd (hw₀.tasks i) hi)
    (fun _ _ _ hI hread => hI.step hread.alone) hok

/-- **Requests one at a time.** As long as reads hold, no player has two pending
battles, no first-clear reward is credited twice, and none for a dungeon that was
cleared at the start. -/
theorem reads_fail_closed (hw₀ : w₀.Fresh) (h : World.Run env ReadsHold w₀ w) :
    (∀ p, w.store.mysql.tables.pendingBattles p ≤ 1) ∧ CreditedOnce w.store.mysql ∧
      ∀ ws p d, ws ∈ w.store.mysql.binlog → CreditsFirstClear w.store.mysql.tables ws p d →
        w₀.store.mysql.tables.playerDungeon.find (p, d) = none := by
  have hpending : World.Run env ChecksPending w₀ w := h.reads hw₀
    fun w l hI hread => ⟨hread.rollback, hread.pending, hI.commitsAlone l⟩
  have hclear : World.Run env ChecksFirstClear w₀ w := h.reads hw₀
    fun w l hI hread => ⟨hread.rollback, hread.firstClear, hI.clearsAlone l⟩
  obtain ⟨φ, -, -, hone⟩ := hpending.onePending hw₀
  obtain ⟨deeds, hlog, hledger⟩ := hclear.earned_books hw₀
  refine ⟨hone.atMostOne, hledger.creditedOnce hlog, fun ws p d hmem hw => ?_⟩
  rw [hlog] at hmem
  obtain ⟨deed, hdeed, rfl⟩ := List.mem_map.mp hmem
  exact hledger.fresh_of_cleared hdeed (hledger.cleared_of_credits hdeed hw)

/-- The steps of a backend that serves one dungeon request at a time, in which
only statements in `P` fail. -/
def onlyFails [Fintype ι] (P : SqlCmd → Bool) (w : World ι) : Label ι → Bool
  | .start i request => (Label.start i request).ofDungeon && decide (∀ j, (w.tasks j).isNone)
  | .exec i (some _) =>
    match w.next i with
    | some (.sql c) => P c
    | _ => false
  | .exec _ none => true
  | .finish _ => true
  | .tick _ => true
  | .crash _ => false
  | .evict _ => false

omit [DecidableEq ι] in
theorem fails_of_onlyFails [Fintype ι] {P : SqlCmd → Bool} (h : onlyFails P w l = true) {c : SqlCmd}
    (hf : w.Fails l (.sql c)) : P c = true := by
  obtain ⟨i, message, rfl, hnext⟩ := hf
  simpa only [onlyFails, hnext] using h

omit [DecidableEq ι] in
theorem oneAtATime_of_onlyFails [Fintype ι] {P : SqlCmd → Bool} (h : onlyFails P w l = true) :
    OneAtATime w l := by
  cases l with
  | start i request =>
    have hidle : ∀ j, (w.tasks j).isNone := of_decide_eq_true (Bool.and_eq_true_iff.mp h).2
    exact hidle
  | _ => trivial

/-- A server enters, the `COMMIT` fails, it enters again and settles. -/
theorem reads_fail_closed_demo :
    ∃ w, World.Run demoEnv ReadsHold demoWorld w ∧ w.store.mysql.binlog.length = 2 ∧
      (∀ p, w.store.mysql.tables.pendingBattles p ≤ 1) ∧ CreditedOnce w.store.mysql ∧
      ∀ ws p d, ws ∈ w.store.mysql.binlog → CreditsFirstClear w.store.mysql.tables ws p d →
        demoTables.playerDungeon.find (p, d) = none := by
  have hrun : (replay (World.step demoEnv) (onlyFails (· = .commit)) demoWorld
      (.start false (.enterDungeon ⟨"s", 20001, 1001⟩) :: List.replicate 9 (.exec false none) ++
        .exec false (some "lost") :: List.replicate 2 (.exec false none) ++ .finish false ::
        Label.alone false (.enterDungeon ⟨"s", 20001, 1001⟩) 18 ++
        Label.alone false (.settleDungeon ⟨"s", 20001, "battle-20001-1001-2", 1001, 3, true⟩)
          14)).any (fun w => w.store.mysql.binlog.length = 2) = true := by
    decide +kernel
  obtain ⟨w, hreach, hlength⟩ : ∃ w, World.Run demoEnv ReadsHold demoWorld w ∧
      decide (w.store.mysql.binlog.length = 2) = true := by
    refine Reach.of_replay_any (fun w l hl => ?_) hrun
    have hcommit : ∀ c, w.Fails l (.sql c) → c = .commit :=
      fun c hf => of_decide_eq_true (fails_of_onlyFails hl hf)
    exact ⟨oneAtATime_of_onlyFails hl, fun p hf => absurd (hcommit _ hf) (by simp),
      fun p d hf => absurd (hcommit _ hf) (by simp), fun hf => absurd (hcommit _ hf) (by simp)⟩
  exact ⟨w, hreach, of_decide_eq_true hlength, reads_fail_closed demoWorld_fresh hreach⟩

/-- **Reads fail open.** One request at a time: a second battle starts when the
`SELECT` for a pending battle fails; a first clear is credited twice when the
`SELECT` for the progress fails, and even when all reads succeed and a `ROLLBACK`
fails. -/
theorem reads_fail_open :
    (¬∀ w, World.Run demoEnv (fun w l => onlyFails (· matches .select (.pendingBattle _)) w l)
      demoWorld w → ∀ p, w.store.mysql.tables.pendingBattles p ≤ 1) ∧
    (¬∀ w, World.Run demoEnv (fun w l => onlyFails (· matches .select (.firstClear _ _)) w l)
      demoWorld w → CreditedOnce w.store.mysql) ∧
    ¬∀ w, World.Run demoEnv (fun w l => onlyFails (!· matches .select _) w l) demoWorld w →
      CreditedOnce w.store.mysql := by
  refine ⟨fun hall => ?_, fun hall => ?_, fun hall => ?_⟩
  · have hrun : (replay (World.step demoEnv) (onlyFails (· matches .select (.pendingBattle _)))
        demoWorld (Label.alone false (.enterDungeon ⟨"s", 20001, 1001⟩) 18 ++
          .start false (.enterDungeon ⟨"s", 20001, 1001⟩) :: List.replicate 6 (.exec false none) ++
          .exec false (some "lost") :: List.replicate 11 (.exec false none))).any
          (fun w => 1 < w.store.mysql.tables.pendingBattles 20001) = true := by
      decide +kernel
    obtain ⟨w, hreach, hmany⟩ := Reach.of_replay_any (fun _ _ hl => hl) hrun
    exact absurd (hall w hreach 20001) (Nat.not_le.mpr (of_decide_eq_true hmany))
  · have hrun : (replay (World.step demoEnv) (onlyFails (· matches .select (.firstClear _ _)))
        demoWorld (Label.alone false (.enterDungeon ⟨"s", 20001, 1001⟩) 18 ++
          Label.alone false (.settleDungeon ⟨"s", 20001, "battle-20001-1001-1", 1001, 3, true⟩)
            14 ++
          Label.alone false (.enterDungeon ⟨"s", 20001, 1001⟩) 18 ++
          .start false (.settleDungeon ⟨"s", 20001, "battle-20001-1001-2", 1001, 3, true⟩) ::
          List.replicate 3 (.exec false none) ++ .exec false (some "lost") ::
          List.replicate 10 (.exec false none))).any
          (fun w => w.store.mysql.creditsTwice 0 2 "battle-20001-1001-2" "battle-20001-1001-1"
            20001 1001 100 50) = true := by
      decide +kernel
    obtain ⟨w, hreach, htwice⟩ := Reach.of_replay_any (fun _ _ hl => hl) hrun
    exact not_creditedOnce htwice (by decide) (hall w hreach)
  · -- the `START TRANSACTION` of the next request commits half a settlement
    have hrun : (replay (World.step demoEnv) (onlyFails (!· matches .select _)) demoWorld
        (Label.alone false (.enterDungeon ⟨"s", 20001, 1001⟩) 18 ++
          .start false (.settleDungeon ⟨"s", 20001, "battle-20001-1001-1", 1001, 3, true⟩) ::
          List.replicate 7 (.exec false none) ++ List.replicate 2 (.exec false (some "lost")) ++
          [.exec false none, .finish false] ++
          Label.alone false (.enterDungeon ⟨"s", 20001, 1001⟩) 18 ++
          Label.alone false (.settleDungeon ⟨"s", 20001, "battle-20001-1001-2", 1001, 3, true⟩)
            14)).any
          (fun w => w.store.mysql.creditsTwice 0 2 "battle-20001-1001-2" "battle-20001-1001-1"
            20001 1001 100 50) = true := by
      decide +kernel
    obtain ⟨w, hreach, htwice⟩ := Reach.of_replay_any (fun _ _ hl => hl) hrun
    exact not_creditedOnce htwice (by decide) (hall w hreach)

end GameBackend
