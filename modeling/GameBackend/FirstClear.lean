import GameBackend.ExactlyOnce
import GameBackend.PendingBattle

/-!
# The first-clear reward

`SettleDungeon` decides whether it is a first clear by a `SELECT` before its
transaction. Its guards are about the battle, so two settlements of different
battles that both read before either commits both take the reward. The unique
keys of the schema do not catch this: the upsert of the progress row succeeds
twice, and the rows of the reward log name the battle.

It takes such a race, or a `SELECT` that fails. Settlements of the same battle may
race, the guard on its status decides between them.
-/

namespace GameBackend

variable {ι : Type} [DecidableEq ι] {env : Env} {cfg : DungeonConfig}

/-! ## First clears in the binary log -/

/-- The writes `ws` of a transaction settle a battle of player `p` in dungeon `d`
and credit diamonds for it. -/
def CreditsFirstClear (t : Tables) (ws : List SqlWrite) (p d : ℤ) : Prop :=
  ∃ b row gold diamond, .updateBattle b ∈ ws ∧ t.dungeonBattle.find b = some row ∧
    row.playerId = p ∧ row.dungeonId = d ∧ .updateAssetReward p gold (some diamond) ∈ ws

/-- At most one committed transaction credits the first-clear reward of a player
and a dungeon. -/
def CreditedOnce (m : Mysql ι) : Prop :=
  ∀ (i j : ℕ) ws vs p d, m.binlog[i]? = some ws → m.binlog[j]? = some vs →
    CreditsFirstClear m.tables ws p d → CreditsFirstClear m.tables vs p d → i = j

/-- The player and dungeon whose first-clear reward a deed credits. -/
def Deed.cleared : Deed → Option (ℤ × ℤ)
  | .enter _ => none
  | .settle s => if s.firstClear then some (s.playerId, s.dungeonId) else none

/-- The transaction of a deed credits the first clear the deed names. -/
theorem Ledger.cleared_of_credits {Q : Deed → Tables → Prop} {t₀ t : Tables} {deeds : List Deed}
    (h : Ledger cfg Q t₀ deeds t) {deed : Deed} (hmem : deed ∈ deeds) {p d : ℤ}
    (hcredits : CreditsFirstClear t (deed.plan cfg) p d) : deed.cleared = some (p, d) := by
  obtain ⟨b, row, gold, diamond, hbattle, hrow, rfl, rfl, hasset⟩ := hcredits
  have hsettled := updateBattle_mem_plan.mp hbattle
  cases deed with
  | enter row => cases hsettled
  | settle s =>
    obtain ⟨row', hrow', -, hp, hd⟩ := h.settled hmem
    rw [Option.some.inj hsettled, hrow] at hrow'
    obtain rfl := Option.some.inj hrow'
    simp only [Deed.plan, List.mem_cons, List.mem_map, reduceCtorEq, false_or, and_false,
      exists_false, or_false, SqlWrite.updateAssetReward.injEq, Settlement.diamond] at hasset
    obtain ⟨-, -, hdiamond⟩ := hasset
    cases hf : s.firstClear with
    | false => simp [hf] at hdiamond
    | true => simp [Deed.cleared, hf, hp, hd]

/-! ## Ledgers in which first clears are earned -/

/-- A settlement takes the first-clear reward only if the player has not cleared
the dungeon yet. -/
def Deed.Earned (deed : Deed) (t : Tables) : Prop :=
  ∀ s, deed = .settle s → s.firstClear = true →
    t.playerDungeon.find (s.playerId, s.dungeonId) = none

namespace Ledger

variable {t₀ t : Tables} {deeds : List Deed} {Q : Deed → Tables → Prop}

/-- A dungeon whose first-clear reward was credited has its progress row. -/
theorem progress_of_cleared (h : Ledger cfg Q t₀ deeds t) {deed : Deed} {k : ℤ × ℤ}
    (hmem : deed ∈ deeds) (hk : deed.cleared = some k) : t.playerDungeon.find k ≠ none := by
  induction h with
  | nil => cases hmem
  | cons before condition transacts ih =>
    rcases List.mem_cons.mp hmem with rfl | hmem
    · cases deed with
      | enter row => cases hk
      | settle s =>
        rw [Deed.cleared] at hk
        split at hk
        · exact Option.some.inj hk ▸ transacts.progress_settled
        · cases hk
    · exact transacts.progress_kept (ih hmem)

theorem free_of_cleared {deed : Deed} {k : ℤ × ℤ} (hcondition : deed.Earned t)
    (hk : deed.cleared = some k) : t.playerDungeon.find k = none := by
  cases deed with
  | enter row => cases hk
  | settle s =>
    rw [Deed.cleared] at hk
    split at hk
    · rename_i hf
      exact Option.some.inj hk ▸ hcondition s rfl hf
    · cases hk

/-- No first-clear reward is credited twice. -/
theorem cleared_once (h : Ledger cfg Deed.Earned t₀ deeds t) :
    (deeds.filterMap Deed.cleared).Nodup := by
  induction h with
  | nil => exact List.nodup_nil
  | cons before condition transacts ih =>
    rename_i deeds t t' deed
    rcases hk : deed.cleared with _ | k
    · rw [List.filterMap_cons_none hk]
      exact ih
    · rw [List.filterMap_cons_some hk]
      refine List.nodup_cons.mpr ⟨?_, ih⟩
      intro hmem
      obtain ⟨deed', hdeed', hk'⟩ := List.mem_filterMap.mp hmem
      exact before.progress_of_cleared hdeed' hk' (free_of_cleared condition hk)

/-- Nor one for a dungeon that was cleared at the start. -/
theorem fresh_of_cleared (h : Ledger cfg Deed.Earned t₀ deeds t) {deed : Deed} {k : ℤ × ℤ}
    (hmem : deed ∈ deeds) (hk : deed.cleared = some k) : t₀.playerDungeon.find k = none := by
  induction h with
  | nil => cases hmem
  | cons before condition transacts ih =>
    rcases List.mem_cons.mp hmem with rfl | hmem
    · by_contra hne
      exact before.progress_kept hne (free_of_cleared condition hk)
    · exact ih hmem

omit [DecidableEq ι] in
theorem creditedOnce {m : Mysql ι} (h : Ledger cfg Deed.Earned t₀ deeds m.tables)
    (hlog : m.binlog = deeds.map (Deed.plan cfg)) : CreditedOnce m := by
  have hcleared : ∀ {i : ℕ} {ws : List SqlWrite} {p d : ℤ}, m.binlog[i]? = some ws →
      CreditsFirstClear m.tables ws p d →
      ∃ deed, deeds[i]? = some deed ∧ deed.cleared = some (p, d) := by
    intro i ws p d hi hw
    rw [hlog, List.getElem?_map] at hi
    obtain ⟨deed, hdeed, rfl⟩ := Option.map_eq_some_iff.mp hi
    exact ⟨deed, hdeed, h.cleared_of_credits (List.mem_of_getElem? hdeed) hw⟩
  intro i j ws vs p d hi hj hw hv
  obtain ⟨x, hx, hx'⟩ := hcleared hi hw
  obtain ⟨y, hy, hy'⟩ := hcleared hj hv
  exact eq_of_label h.cleared_once hx hy hx' hy'

end Ledger

/-! ## The decision in a run -/

/-- The player and dungeon for which process `i` has found no progress row, as
long as it can still commit. -/
def World.firstClearRead (w : World ι) (i : ι) : Option (ℤ × ℤ) :=
  (w.tasks i).bind fun task => GameBackend.firstClearRead task.trail

/-- The battle process `i` has looked up last. -/
def World.lookedUp (w : World ι) (i : ι) : Option String :=
  (w.tasks i).bind fun task => GameBackend.lookedUp task.trail

/-- The step `l` is not the `COMMIT` of a request that takes itself for a first
clear while another request about another battle takes itself for the same first
clear. -/
def ClearsAlone (w : World ι) : Label ι → Prop
  | .exec i _ => w.next i = some (.sql .commit) → w.firstClearRead i ≠ none →
      ∀ j, w.firstClearRead j = w.firstClearRead i → w.lookedUp j = w.lookedUp i
  | _ => True

instance [Fintype ι] (w : World ι) : (l : Label ι) → Decidable (ClearsAlone w l)
  | .exec i _ => inferInstanceAs (Decidable (w.next i = some (.sql .commit) →
      w.firstClearRead i ≠ none → ∀ j, w.firstClearRead j = w.firstClearRead i →
        w.lookedUp j = w.lookedUp i))
  | .start _ _ => isTrue trivial
  | .finish _ => isTrue trivial
  | .crash _ => isTrue trivial
  | .tick _ => isTrue trivial
  | .evict _ => isTrue trivial

variable {w w' w₀ : World ι} {φ φ' : ι → Phase} {l : Label ι}

omit [DecidableEq ι] in
theorem Phased.firstClearRead (h : Phased env w φ) (i : ι) :
    w.firstClearRead i = (φ i).firstClearRead := by
  rw [World.firstClearRead]
  rcases hi : w.tasks i with _ | task
  · rw [h.idle i hi]
    rfl
  · exact firstClearRead_eq (h.path i task hi)

omit [DecidableEq ι] in
theorem Phased.lookedUp (h : Phased env w φ) {i : ι} {b : String}
    (hb : (φ i).lookedUp = some b) : w.lookedUp i = some b := by
  rw [World.lookedUp]
  rcases hi : w.tasks i with _ | task
  · rw [h.idle i hi] at hb
    cases hb
  · exact lookedUp_of (h.path i task hi) hb

/-! ## The invariant -/

/-- What a settlement has read of the progress is still true, unless another one
has settled its battle and its first write is still to come. -/
structure Settlement.Sees (s : Settlement) (t : Tables) (done : List SqlWrite) : Prop where
  first : s.firstClear = true → t.playerDungeon.find (s.playerId, s.dungeonId) = none ∨
    ((Deed.settle s).Shown t ∧ done = [])
  again : s.firstClear = false → t.playerDungeon.find (s.playerId, s.dungeonId) ≠ none

/-- A request in this phase sees the progress as it is. -/
def Phase.Sees (t : Tables) : Phase → Prop
  | .decided s => s.Sees t []
  | .writing (.settle s) done _ => s.Sees t done
  | _ => True

theorem Settlement.Sees.mono {s : Settlement} {t t' : Tables} {done : List SqlWrite} {deed : Deed}
    (h : s.Sees t done) (ht : Transacts cfg deed t t')
    (hsame : deed.cleared = some (s.playerId, s.dungeonId) → s.firstClear = true →
      (Deed.settle s).Shown t' ∧ done = [])
    (hagain : ∀ s', deed = .settle s' → s'.firstClear = false →
      t.playerDungeon.find (s'.playerId, s'.dungeonId) ≠ none) : s.Sees t' done where
  again hf := ht.progress_kept (h.again hf)
  first hf := by
    rcases h.first hf with hfree | ⟨hshown, hdone⟩
    · by_cases hk : ∃ s', deed = .settle s' ∧
          (s.playerId, s.dungeonId) = (s'.playerId, s'.dungeonId)
      · obtain ⟨s', rfl, hk⟩ := hk
        cases hf' : s'.firstClear with
        | true => exact .inr (hsame (by simp [Deed.cleared, hf', hk]) hf)
        | false => exact absurd (hk ▸ hfree) (hagain s' rfl hf')
      · refine .inl ((ht.progress_ne fun s' hs' hk' => hk ⟨s', hs', hk'⟩).trans hfree)
    · exact .inr ⟨hshown.mono ht, hdone⟩

/-- A request that has decided sees the progress as it is when its `SELECT` did
not fail in vain. -/
theorem Advance.sees {s s' : Store ι} {i : ι} {fault : Option String} {c : Cmd} {r : c.Reply}
    {φ ψ : Phase} (hadv : Advance cfg φ c r ψ) (hp : s.Performed i fault c r s')
    (hselect : ∀ p d, c = .sql (.select (.firstClear p d)) → fault ≠ none →
      s.mysql.tables.playerDungeon.find (p, d) = none)
    (htxn : φ.Txn (s.mysql.txns i)) (hknows : φ.Knows cfg s.mysql.tables)
    (h : φ.Sees s.mysql.tables) : ψ.Sees s.mysql.tables := by
  cases hadv with
  | pass harmless _ => exact h
  | decide player dungeon unsettled =>
    rename_i p star context r
    obtain ⟨message, rfl, rfl, -⟩ | ⟨-, m, hexec, -⟩ := hp.sql_cases
    · have hfree := hselect p cfg.dungeonId rfl (Option.some_ne_none _)
      exact ⟨fun _ => .inl hfree, fun hf => nomatch hf⟩
    · have hview : s.mysql.view i = s.mysql.tables := by
        rw [Mysql.view, show s.mysql.txns i = none from htxn]
        rfl
      simp only [Mysql.execute, hview, Option.some.injEq, Prod.mk.injEq] at hexec
      obtain ⟨rfl, -⟩ := hexec
      rcases hfind : s.mysql.tables.playerDungeon.find (p, cfg.dungeonId) with _ | row
      · exact ⟨fun _ => .inl hfind, fun hf => by simp [Query.rows, hfind] at hf⟩
      · refine ⟨fun hf => by simp [Query.rows, hfind] at hf, fun _ => ?_⟩
        rw [hfind]
        exact Option.some_ne_none _
  | settleBegin => exact h
  | write accepted =>
    rename_i deed done todo w n
    cases deed with
    | enter row => trivial
    | settle settlement =>
      refine ⟨fun hf => ?_, h.again⟩
      rcases h.first hf with hfree | ⟨hshown, rfl⟩
      · exact .inl hfree
      · -- its first write asks for a pending battle, and the battle is settled
        obtain ⟨row, hrow, hstatus⟩ := hshown
        obtain rfl : w = .updateBattle settlement.battleId := (List.cons.inj hknows.2).1
        obtain rfl := accepted rfl
        have hview : s.mysql.view i = s.mysql.tables := by
          rw [Mysql.view, show s.mysql.txns i = some [] from htxn]
          rfl
        obtain ⟨message, -, hr, -⟩ | ⟨-, m, hexec, -⟩ := hp.sql_cases
        · cases hr
        · simp [Mysql.execute, hview, SqlWrite.run, hrow, hstatus] at hexec
  | noPending empty => trivial
  | _ => trivial

section Commit

variable {i j : ι} {fault : Option String} {deed : Deed} {t' : Tables}
  (hphased : Phased env w φ) (hcore : Core env w φ) (halone : ClearsAlone w (.exec i fault))
  (hnext : w.next i = some (.sql .commit))
  (hbefore : φ i = .writing deed (deed.plan env.dungeonConfig) [])
  (htransacts : Transacts env.dungeonConfig deed w.store.mysql.tables t') (hj : j ≠ i)

include hphased hcore halone hnext hbefore htransacts hj

omit [DecidableEq ι] in
/-- A settlement that reads the first clear of the deed is about the same battle, and has
written nothing: both would have locked the battle. -/
theorem shown_of_cleared {s : Settlement} {done : List SqlWrite}
    (hlooked : (φ j).lookedUp = some s.battleId)
    (hread : (φ j).firstClearRead = some (s.playerId, s.dungeonId))
    (hopen : ∀ v ∈ done, ∃ vs, w.store.mysql.txns j = some vs ∧ v ∈ vs)
    (hdone : done ≠ [] → .updateBattle s.battleId ∈ done)
    (hcleared : deed.cleared = some (s.playerId, s.dungeonId)) :
    (Deed.settle s).Shown t' ∧ done = [] := by
  cases deed with
  | enter row => cases hcleared
  | settle s' =>
    have hcleared' : (φ i).firstClearRead = some (s.playerId, s.dungeonId) := by
      rw [hbefore]
      exact hcleared
    have hbattle : s.battleId = s'.battleId := by
      have hlook : w.lookedUp i = some s'.battleId := hphased.lookedUp (by rw [hbefore]; rfl)
      have heq := halone hnext (by rw [hphased.firstClearRead, hcleared']; simp) j
        (by rw [hphased.firstClearRead, hphased.firstClearRead, hcleared', hread])
      rw [hphased.lookedUp hlooked, hlook] at heq
      exact Option.some.inj heq
    refine ⟨?_, ?_⟩
    · obtain ⟨row, hrow, hstatus⟩ : (Deed.settle s').Shown t' := htransacts.shown
      exact ⟨row, hbattle ▸ hrow, hstatus⟩
    · by_contra hne
      obtain ⟨vs, hvs, hmem⟩ := hopen _ (hdone hne)
      have hplan : w.store.mysql.txns i = some ((Deed.settle s').plan env.dungeonConfig) := by
        have htxn := hcore.txn i
        rwa [hbefore] at htxn
      exact hcore.sound.key_ne hj hvs hplan hmem List.mem_cons_self
        (congrArg RowKey.battle hbattle)

omit [DecidableEq ι] in
/-- A deed that is not the same first clear as another request's leaves what the
request sees true. -/
theorem sees_commit (h : ∀ j, (φ j).Sees w.store.mysql.tables) : (φ j).Sees t' := by
  have hi := h i
  rw [hbefore] at hi
  have hagain : ∀ s', deed = .settle s' → s'.firstClear = false →
      w.store.mysql.tables.playerDungeon.find (s'.playerId, s'.dungeonId) ≠ none := by
    intro s' hs hf
    subst hs
    exact hi.again hf
  have hsee := h j
  cases hφ : φ j with
  | decided s =>
    rw [hφ] at hsee
    refine hsee.mono htransacts (fun hcleared hf => ⟨?_, rfl⟩) hagain
    exact (shown_of_cleared hphased hcore halone hnext hbefore htransacts hj
      (by rw [hφ]; rfl) (by rw [hφ]; simp [Phase.firstClearRead, hf])
      (List.forall_mem_nil _) (absurd rfl) hcleared).1
  | writing deed' done todo =>
    cases deed' with
    | enter row => trivial
    | settle s =>
      rw [hφ] at hsee
      have htxn : w.store.mysql.txns j = some done := by
        have htxn := hcore.txn j
        rwa [hφ] at htxn
      have hplan : done ++ todo = (Deed.settle s).plan env.dungeonConfig := by
        have hknows := hcore.knows j
        rw [hφ] at hknows
        exact hknows.2
      refine hsee.mono htransacts (fun hcleared hf => ?_) hagain
      refine shown_of_cleared hphased hcore halone hnext hbefore htransacts hj
        (by rw [hφ]; rfl) (by rw [hφ]; simp [Phase.firstClearRead, hf])
        (fun v hv => ⟨done, htxn, hv⟩) (fun hne => ?_) hcleared
      cases done with
      | nil => exact absurd rfl hne
      | cons v rest => exact (List.cons.inj hplan).1 ▸ List.mem_cons_self
  | _ => trivial

end Commit

/-- Every move keeps what the requests see true, unless a first clear is read by
a `SELECT` that fails or is overtaken. -/
theorem sees_step (h : ∀ i, (φ i).Sees w.store.mysql.tables) (hphased : Phased env w φ)
    (hcore : Core env w φ)
    (hselect : ∀ p d, w.Fails l (.sql (.select (.firstClear p d))) →
      w.store.mysql.tables.playerDungeon.find (p, d) = none)
    (halone : ClearsAlone w l) (hmove : Moves env w φ l w' φ')
    (hstep : TableStep env.dungeonConfig w w' φ φ' l) :
    ∀ i, (φ' i).Sees w'.store.mysql.tables := by
  rcases hstep with ⟨htables, -⟩ | ⟨rfl, hnext, hbefore, rfl, htransacts, -⟩
  · rw [htables]
    have hout : ∀ i j, (Function.update φ i .outside j).Sees w.store.mysql.tables := by
      intro i j
      by_cases hj : j = i
      · rw [hj, Function.update_self]
        trivial
      · rw [Function.update_of_ne hj]
        exact h j
    cases hmove with
    | start idle => exact h
    | finish task ends => exact hout _
    | crash => exact hout _
    | tick => exact h
    | evict => exact h
    | exec task performed advance =>
      rename_i i fault id request trail c k r store ψ
      intro j
      by_cases hj : j = i
      · rw [hj, Function.update_self]
        refine advance.sees performed ?_ (hcore.txn i) (hcore.knows i) (h i)
        rintro p d rfl hfault
        obtain ⟨message, rfl⟩ := Option.ne_none_iff_exists'.mp hfault
        exact hselect p d ⟨i, message, rfl, by rw [World.next, task]⟩
      · rw [Function.update_of_ne hj]
        exact h j
  · rename_i i fault deed
    intro j
    by_cases hj : j = i
    · rw [hj, Function.update_self]
      trivial
    · rw [Function.update_of_ne hj]
      exact sees_commit hphased hcore halone hnext hbefore htransacts hj h

/-! ## Every run -/

/-- The step `l` keeps what the first-clear decision is for: the `SELECT` does not
fail when there is a progress row, no `ROLLBACK` fails, and no request commits a
first clear while another one, about another battle, is about to. -/
structure ChecksFirstClear (w : World ι) (l : Label ι) : Prop where
  rollback : ¬w.Fails l (.sql .rollback)
  select : ∀ p d, w.Fails l (.sql (.select (.firstClear p d))) →
    w.store.mysql.tables.playerDungeon.find (p, d) = none
  alone : ClearsAlone w l

/-- **Refinement.** As long as first clears are checked, the committed tables are
those of a ledger whose first-clear rewards are earned. -/
theorem World.Run.earned_books (hw₀ : w₀.Fresh) (h : World.Run env ChecksFirstClear w₀ w) :
    World.Books env.dungeonConfig Deed.Earned w₀ w := by
  have hinv : ∃ φ, Phased env w φ ∧ Core env w φ ∧ (∀ i, (φ i).Sees w.store.mysql.tables) ∧
      World.Books env.dungeonConfig Deed.Earned w₀ w := by
    refine h.core (I := fun w φ => (∀ i, (φ i).Sees w.store.mysql.tables) ∧
      World.Books env.dungeonConfig Deed.Earned w₀ w) hw₀ (fun _ _ hok => hok.rollback)
      ⟨fun _ => trivial, hw₀.books _ _⟩ ?_
    rintro w φ l w' φ' - hphased hcore ⟨hsees, hbooks⟩ hok hmove - hstep
    refine ⟨sees_step hsees hphased hcore hok.select hok.alone hmove hstep,
      hbooks.step hstep fun i deed hbefore s hs hf => ?_⟩
    subst hs
    have hi := hsees i
    rw [hbefore] at hi
    exact (hi.first hf).resolve_right fun hdone => List.cons_ne_nil _ _ hdone.2
  obtain ⟨φ, -, -, -, hbooks⟩ := hinv
  exact hbooks

/-- **The first-clear reward is credited once** for each player and dungeon, in
every run in which no first clear is overtaken by one of another battle. The
player lock may expire at any time. -/
theorem first_clear_credited_once (hw₀ : w₀.Fresh) (h : World.Run env ChecksFirstClear w₀ w) :
    CreditedOnce w.store.mysql := by
  obtain ⟨deeds, hlog, hledger⟩ := h.earned_books hw₀
  exact hledger.creditedOnce hlog

/-- Two servers settle the same battle after the lock of the first one expired:
both have read that it is a first clear, one of them is turned away. -/
theorem first_clear_credited_once_demo :
    ∃ w, World.Run demoEnv ChecksFirstClear demoWorld w ∧ w.store.mysql.binlog.length = 2 ∧
      CreditedOnce w.store.mysql := by
  have hrun : (replay (World.step demoEnv) (fun w l => l.faultless && decide (ClearsAlone w l))
      demoWorld (Label.alone false (.enterDungeon ⟨"s", 20001, 1001⟩) 18 ++
        .start false (.settleDungeon ⟨"s", 20001, "battle-20001-1001-1", 1001, 3, true⟩) ::
        List.replicate 4 (.exec false none) ++ .tick 10000 ::
        Label.alone true (.settleDungeon ⟨"s", 20001, "battle-20001-1001-1", 1001, 3, true⟩) 14 ++
        List.replicate 4 (.exec false none) ++ [.finish false])).any
        (fun w => w.store.mysql.binlog.length = 2) = true := by
    decide +kernel
  obtain ⟨w, hreach, hlength⟩ : ∃ w, World.Run demoEnv ChecksFirstClear demoWorld w ∧
      decide (w.store.mysql.binlog.length = 2) = true := by
    refine Reach.of_replay_any (fun w l hl => ?_) hrun
    obtain ⟨hfaultless, halone⟩ := Bool.and_eq_true_iff.mp hl
    exact ⟨Label.not_fails hfaultless _, fun p d hf => absurd hf (Label.not_fails hfaultless _),
      of_decide_eq_true halone⟩
  exact ⟨w, hreach, of_decide_eq_true hlength, first_clear_credited_once demoWorld_fresh hreach⟩

/-- Whether the transactions at positions `i` and `j` of the binary log credit the
first clears of player `p`, by settling the given battles of one dungeon. -/
def Mysql.creditsTwice (m : Mysql ι) (i j : ℕ) (b b' : String) (p d gold diamond : ℤ) : Bool :=
  m.binlog[i]?.any (fun ws => .updateBattle b ∈ ws ∧
      .updateAssetReward p gold (some diamond) ∈ ws) &&
    m.binlog[j]?.any (fun ws => .updateBattle b' ∈ ws ∧
      .updateAssetReward p gold (some diamond) ∈ ws) &&
    (m.tables.dungeonBattle.find b).any (fun row => row.playerId = p ∧ row.dungeonId = d) &&
    (m.tables.dungeonBattle.find b').any fun row => row.playerId = p ∧ row.dungeonId = d

omit [DecidableEq ι] in
theorem not_creditedOnce {m : Mysql ι} {i j : ℕ} {b b' : String} {p d gold diamond : ℤ}
    (h : m.creditsTwice i j b b' p d gold diamond = true) (hij : i ≠ j) : ¬CreditedOnce m := by
  simp only [Mysql.creditsTwice, Bool.and_eq_true, Option.any_eq_true, decide_eq_true_eq] at h
  obtain ⟨⟨⟨⟨ws, hi, hb, hw⟩, ⟨vs, hj, hb', hv⟩⟩, ⟨row, hrow, hp, hd⟩⟩,
    ⟨row', hrow', hp', hd'⟩⟩ := h
  exact fun hall => hij (hall i j ws vs p d hi hj ⟨b, row, gold, diamond, hb, hrow, hp, hd, hw⟩
    ⟨b', row', gold, diamond, hb', hrow', hp', hd', hv⟩)

/-- **The first-clear reward is credited twice.** Two servers have entered the
dungeon for the same player, the lock having expired in between; then the one
settles its battle between the other's reading and its commit. -/
theorem first_clear_credited_twice :
    ¬∀ w, World.Run demoEnv (fun _ l => (l.undisturbed && l.ofDungeon) = true) demoWorld w →
      CreditedOnce w.store.mysql := by
  have hrun : (replay (World.step demoEnv) (fun _ l => l.undisturbed && l.ofDungeon) demoWorld
      (Label.alone true (.enterDungeon ⟨"t", 20002, 1001⟩) 18 ++
        .start false (.enterDungeon ⟨"s", 20001, 1001⟩) :: List.replicate 7 (.exec false none) ++
        .tick 10000 :: Label.alone true (.enterDungeon ⟨"s", 20001, 1001⟩) 18 ++
        List.replicate 11 (.exec false none) ++ .finish false ::
        .start false (.settleDungeon ⟨"s", 20001, "battle-20001-1001-1", 1001, 3, true⟩) ::
        List.replicate 4 (.exec false none) ++ .tick 10000 ::
        Label.alone true (.settleDungeon ⟨"s", 20001, "battle-20001-1001-2", 1001, 3, true⟩) 14 ++
        List.replicate 7 (.exec false none))).any
        (fun w => w.store.mysql.creditsTwice 0 1 "battle-20001-1001-1" "battle-20001-1001-2"
          20001 1001 100 50) = true := by
    decide +kernel
  intro hall
  obtain ⟨w, hreach, htwice⟩ := Reach.of_replay_any (fun _ _ hl => hl) hrun
  exact not_creditedOnce htwice (by decide) (hall w hreach)

end GameBackend
