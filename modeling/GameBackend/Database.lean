import GameBackend.Phases
import GameBackend.Ledger

/-!
# MySQL follows the ledger

What a request does to MySQL in each phase: `Phase.Txn` says what its connection's
open transaction looks like, `Phase.Knows` what it may rely on about the
committed tables. `DbStep` lists the two things a command of a request can do to
MySQL, and `Advance.dbStep` shows that there is no third: nothing committed
changes, or a deed is transacted.

The one assumption is that no `ROLLBACK` fails. A failed `ROLLBACK` leaves the
transaction open, and the next `START TRANSACTION` of that connection commits
what is left of it.
-/

namespace GameBackend

variable {ι : Type} [DecidableEq ι] {cfg : DungeonConfig}

/-! ## Phases and the database -/

/-- The open transaction of a request in a phase. -/
def Phase.Txn : Phase → Option (List SqlWrite) → Prop
  | .opened _, o => o = some []
  | .writing _ done _, o => o = some done
  | .aborting _, o => o.isSome = true
  | _, o => o = none

/-- A deed shows in the tables. -/
def Deed.Shown (t : Tables) : Deed → Prop
  | .enter row => ∃ row', t.dungeonBattle.find row.battleId = some row' ∧ row.Later row'
  | .settle s => ∃ row, t.dungeonBattle.find s.battleId = some row ∧ row.status = 1

/-- What a request in a phase knows of the committed tables. -/
def Phase.Knows (cfg : DungeonConfig) (t : Tables) : Phase → Prop
  | .numbered row => row.status = 0
  | .opened row => row.status = 0
  | .found _ context => ∃ row, t.dungeonBattle.find context.battleId = some row ∧
      row.playerId = context.playerId ∧ row.dungeonId = context.dungeonId
  | .decided s => (Deed.settle s).Known t
  | .writing deed done todo => deed.Known t ∧ done ++ todo = deed.plan cfg
  | .committed deed => deed.Shown t
  | .invalidated deed => deed.Shown t
  | .released (some deed) => deed.Shown t
  | _ => True

section Knowledge

variable {t t' : Tables} {deed deed' : Deed}

theorem Deed.Known.mono (h : Transacts cfg deed' t t') (hk : deed.Known t) : deed.Known t' := by
  cases deed with
  | enter row => exact hk
  | settle s =>
    obtain ⟨row, hrow, hof⟩ := hk
    obtain ⟨row', hrow', rfl | rfl⟩ := h.battle_kept hrow
    · exact ⟨_, hrow', hof⟩
    · exact ⟨_, hrow', hof⟩

theorem Deed.Shown.mono (h : Transacts cfg deed' t t') (hs : deed.Shown t) : deed.Shown t' := by
  cases deed with
  | enter row =>
    obtain ⟨row', hrow', hlater⟩ := hs
    obtain ⟨row'', hrow'', hlater'⟩ := h.battle_kept hrow'
    exact ⟨row'', hrow'', hlater.trans hlater'⟩
  | settle s =>
    obtain ⟨row, hrow, hstatus⟩ := hs
    obtain ⟨row', hrow', rfl | rfl⟩ := h.battle_kept hrow
    · exact ⟨_, hrow', hstatus⟩
    · exact ⟨_, hrow', rfl⟩

/-- Deeds of others do not invalidate what a request knows. -/
theorem Phase.Knows.mono {φ : Phase} (h : Transacts cfg deed' t t') (hk : φ.Knows cfg t) :
    φ.Knows cfg t' := by
  cases φ with
  | found p context =>
    obtain ⟨row, hrow, hp, hd⟩ := hk
    obtain ⟨row', hrow', rfl | rfl⟩ := h.battle_kept hrow
    · exact ⟨_, hrow', hp, hd⟩
    · exact ⟨_, hrow', hp, hd⟩
  | decided s => exact (show (Deed.settle s).Known t from hk).mono h
  | writing deed done todo => exact ⟨hk.1.mono h, hk.2⟩
  | committed deed => exact Deed.Shown.mono h hk
  | invalidated deed => exact Deed.Shown.mono h hk
  | released deed =>
    cases deed with
    | none => trivial
    | some deed => exact Deed.Shown.mono h hk
  | _ => exact hk

/-- A transacted deed shows. -/
theorem Transacts.shown (h : Transacts cfg deed t t') : deed.Shown t' := by
  have hl : Ledger cfg (fun _ _ => True) t [deed] t' := .cons .nil trivial h
  cases deed with
  | enter row => exact hl.find_of_entered List.mem_cons_self
  | settle s =>
    obtain ⟨row, hrow, hstatus, -⟩ := hl.settled List.mem_cons_self
    exact ⟨row, hrow, hstatus⟩

end Knowledge

/-! ## The plan of a deed -/

theorem key_plan_nodup (cfg : DungeonConfig) (deed : Deed) :
    ((deed.plan cfg).map SqlWrite.key).Nodup := by
  cases deed with
  | enter row => simp [Deed.plan, SqlWrite.key]
  | settle s =>
    simp only [Deed.plan, Settlement.rewardRows]
    split
    · simp [SqlWrite.key]
    · simp [SqlWrite.key]

/-- The next statement of a plan writes a row that the plan has not written
yet. -/
theorem key_fresh {deed : Deed} {done todo : List SqlWrite} {w : SqlWrite}
    (h : done ++ w :: todo = deed.plan cfg) : w.key ∉ done.map SqlWrite.key := by
  have hnd := key_plan_nodup cfg deed
  rw [← h, List.map_append, List.map_cons, List.nodup_append] at hnd
  exact fun hmem => hnd.2.2 _ hmem _ List.mem_cons_self rfl

/-- A statement of a plan whose affected rows are not checked always finds its
row. -/
theorem not_unmatched {deed : Deed} {done todo : List SqlWrite} {w : SqlWrite} {t : Tables}
    (hplan : done ++ w :: todo = deed.plan cfg) (hknown : deed.Known t)
    (hasset : ∀ b row, t.dungeonBattle.find b = some row →
      (t.playerAsset.find row.playerId).isSome = true)
    (hw : w.guarded = false) : w.run (applyAll done t) ≠ .unmatched := by
  cases w with
  | updateAssetStamina p c => cases hw
  | updateBattle b => cases hw
  | updateAssetReward p g m =>
    have hmem : SqlWrite.updateAssetReward p g m ∈ deed.plan cfg := by
      rw [← hplan]
      simp
    cases deed with
    | enter row => simp [Deed.plan] at hmem
    | settle s =>
      obtain rfl : p = s.playerId := by
        simp only [Deed.plan, List.mem_cons, List.mem_map, reduceCtorEq, false_or, and_false,
          exists_false, or_false, SqlWrite.updateAssetReward.injEq] at hmem
        exact hmem.1
      obtain ⟨row, hrow, hp, -⟩ := hknown
      have hsome := hasset _ row hrow
      have hview : (applyAll done t).playerAsset.find s.playerId =
          t.playerAsset.find s.playerId :=
        Mysql.row_applyAll_ne (k := .asset s.playerId) (key_fresh hplan)
      rw [hp, ← hview] at hsome
      obtain ⟨a, ha⟩ := Option.isSome_iff_exists.mp hsome
      simp only [SqlWrite.run, ha]
      split <;> simp
  | insertBattle row =>
    simp only [SqlWrite.run]
    split <;> simp
  | upsertProgress p d star first =>
    simp only [SqlWrite.run]
    split
    · split <;> simp
    · simp
  | insertRewardLog row =>
    simp only [SqlWrite.run]
    split <;> simp

/-! ## What a command does to MySQL -/

/-- A transaction is only committed by a `COMMIT`. -/
theorem Advance.commits {deed : Deed} {done todo : List SqlWrite} {c : Cmd} {r : c.Reply}
    (h : Advance cfg (.writing deed done todo) c r (.committed deed)) : c = .sql .commit := by
  cases h with
  | commit => rfl

/-- The two things a command of process `i` does to MySQL as its request goes
from phase `φ` to phase `ψ`. -/
inductive DbStep (cfg : DungeonConfig) (m m' : Mysql ι) (φ ψ : Phase) : Prop where
  /-- nothing committed changes -/
  | quiet (tables : m'.tables = m.tables) (binlog : m'.binlog = m.binlog)
  /-- a deed is committed -/
  | commit {deed : Deed} (before : φ = .writing deed (deed.plan cfg) [])
      (after : ψ = .committed deed) (transacts : Transacts cfg deed m.tables m'.tables)
      (binlog : m'.binlog = deed.plan cfg :: m.binlog)

/-- The open transactions and the committed tables after a command of process
`i`. -/
structure DbStep.Good (cfg : DungeonConfig) (m m' : Mysql ι) (i : ι) (φ ψ : Phase) : Prop where
  sound : m'.Sound
  txn : ψ.Txn (m'.txns i)
  others : ∀ j, j ≠ i → m'.txns j = m.txns j
  step : DbStep cfg m m' φ ψ

namespace DbStep.Good

variable {m m' : Mysql ι} {i : ι} {φ ψ : Phase}

omit [DecidableEq ι] in
/-- A command that MySQL does not see. -/
theorem same (hm : m.Sound) (h : ψ.Txn (m.txns i)) : DbStep.Good cfg m m i φ ψ :=
  ⟨hm, h, fun _ _ => rfl, .quiet rfl rfl⟩

/-- `START TRANSACTION` when none is open. -/
theorem start (hm : m.Sound) (hnone : m.txns i = none)
    (h : ψ.Txn (some [])) {r : Except String Unit}
    (hexec : m.execute i .startTransaction = some (r, m')) : DbStep.Good cfg m m' i φ ψ := by
  have hc : m.commitTxn i = m := by rw [Mysql.commitTxn, hnone]
  simp only [Mysql.execute, hc, Option.some.injEq, Prod.mk.injEq] at hexec
  obtain ⟨-, rfl⟩ := hexec
  refine ⟨?_, ?_, ?_, .quiet rfl rfl⟩
  · have hstart := hm.start (i := i)
    rw [hc] at hstart
    exact hstart
  · simpa using h
  · intro j hj
    exact Function.update_of_ne hj ..

/-- `ROLLBACK`. -/
theorem rollback (hm : m.Sound) (h : ψ.Txn none) {r : Except String Unit}
    (hexec : m.execute i .rollback = some (r, m')) : DbStep.Good cfg m m' i φ ψ := by
  simp only [Mysql.execute, Option.some.injEq, Prod.mk.injEq] at hexec
  obtain ⟨-, rfl⟩ := hexec
  refine ⟨hm.rollback, ?_, ?_, .quiet rfl rfl⟩
  · simpa [Mysql.rollbackTxn] using h
  · intro j hj
    exact Function.update_of_ne hj ..

/-- `COMMIT` of a complete transaction. -/
theorem commit (hm : m.Sound) {deed : Deed} (hopen : m.txns i = some (deed.plan cfg))
    (hknown : deed.Known m.tables) {r : Except String Unit}
    (hexec : m.execute i .commit = some (r, m')) :
    DbStep.Good cfg m m' i (.writing deed (deed.plan cfg) []) (.committed deed) := by
  simp only [Mysql.execute, Option.some.injEq, Prod.mk.injEq] at hexec
  obtain ⟨-, rfl⟩ := hexec
  refine ⟨hm.commit, ?_, ?_, ?_⟩
  · simp [Mysql.commitTxn, hopen, Phase.Txn]
  · intro j hj
    simp only [Mysql.commitTxn, hopen]
    exact Function.update_of_ne hj ..
  · refine .commit rfl rfl ?_ ?_
    · simp only [Mysql.commitTxn, hopen]
      exact transacts_of_justified hknown (hm.justified i _ hopen)
    · simp only [Mysql.commitTxn, hopen]

/-- A write statement of an open transaction: it writes its row, which is noted,
or leaves everything alone. -/
theorem write (hm : m.Sound) {done : List SqlWrite} {w : SqlWrite} {r : Except String ℕ}
    (hopen : m.txns i = some done) (hfresh : w.key ∉ done.map SqlWrite.key)
    (hexec : m.execute i (.write w) = some (r, m'))
    (hhit : ∀ n, r = .ok n → ψ.Txn (some (done ++ [w])))
    (hmiss : w.run (applyAll done m.tables) = .unmatched ∧ r = .ok 0 ∨ (∃ e, r = .error e) →
      ψ.Txn (some done)) :
    DbStep.Good cfg m m' i φ ψ := by
  have hview : m.view i = applyAll done m.tables := by rw [Mysql.view, hopen, Option.getD_some]
  simp only [Mysql.execute] at hexec
  split at hexec
  · rename_i hfree
    split at hexec
    · simp only [Option.some.injEq, Prod.mk.injEq] at hexec
      obtain ⟨rfl, rfl⟩ := hexec
      exact same hm (hopen ▸ hmiss (.inr ⟨_, rfl⟩))
    · rename_i hrun
      simp only [Option.some.injEq, Prod.mk.injEq] at hexec
      obtain ⟨rfl, rfl⟩ := hexec
      exact same hm (hopen ▸ hmiss (.inl ⟨hview ▸ hrun, rfl⟩))
    · rename_i u n hrun
      simp only [hopen, Option.some.injEq, Prod.mk.injEq] at hexec
      obtain ⟨rfl, rfl⟩ := hexec
      refine ⟨hm.write hopen hfresh hfree hrun, ?_, ?_, .quiet rfl rfl⟩
      · simpa using hhit n rfl
      · intro j hj
        exact Function.update_of_ne hj ..
  · cases hexec

end DbStep.Good

/-- The phases in which a request gives the lock back have no open
transaction. -/
theorem Phase.txn_of_exit {φ : Phase} {x : ℤ × Option Deed} (h : φ.exit = some x)
    {o : Option (List SqlWrite)} (ht : φ.Txn o) : o = none := by
  cases φ <;> first | exact ht | cases h

/-- Without the player lock there is no open transaction. -/
theorem Phase.txn_of_lock {φ : Phase} (h : φ.lock = none) {o : Option (List SqlWrite)}
    (ht : φ.Txn o) : o = none := by
  cases φ <;> first | exact ht | cases h

/-- The commands that change nothing in MySQL. -/
def Cmd.readsMysql : Cmd → Bool
  | .sql (.select _) => true
  | .sql _ => false
  | _ => true

theorem Cmd.readsMysql_of_harmless {c : Cmd} (h : c.harmless = true) : c.readsMysql = true := by
  cases c with
  | sql c =>
    cases c with
    | select q => rfl
    | _ => cases h
  | _ => rfl

theorem Store.Performed.mysql_eq {s s' : Store ι} {i : ι} {fault : Option String} {c : Cmd}
    {r : c.Reply} (h : s.Performed i fault c r s') (hc : c.readsMysql = true) :
    s'.mysql = s.mysql := by
  cases h with
  | sql executed =>
    rename_i c r m
    cases c with
    | select q =>
      simp only [Mysql.execute, Option.some.injEq, Prod.mk.injEq] at executed
      exact executed.2.symm
    | _ => cases hc
  | _ => rfl

/-- A statement either fails without effect or is executed. -/
theorem Store.Performed.sql_cases {s s' : Store ι} {i : ι} {fault : Option String} {c : SqlCmd}
    {r : c.Reply} (h : s.Performed i fault (.sql c) r s') :
    (∃ message, fault = some message ∧ r = c.failed message ∧ s' = s) ∨
      (fault = none ∧ ∃ m, s.mysql.execute i c = some (r, m) ∧ s' = { s with mysql := m }) := by
  cases h with
  | sqlFault => exact .inl ⟨_, rfl, rfl, rfl⟩
  | sql executed => exact .inr ⟨rfl, _, executed, rfl⟩

/-- A command of a request leaves MySQL alone, changes its own transaction only,
or commits its deed. -/
theorem Advance.dbStep {s s' : Store ι} {i : ι} {fault : Option String} {c : Cmd} {r : c.Reply}
    {φ ψ : Phase} (hadv : Advance cfg φ c r ψ) (hp : s.Performed i fault c r s')
    (hroll : c = .sql .rollback → fault = none) (hm : s.mysql.Sound)
    (htxn : φ.Txn (s.mysql.txns i)) (hknows : φ.Knows cfg s.mysql.tables)
    (hasset : ∀ b row, s.mysql.tables.dungeonBattle.find b = some row →
      (s.mysql.tables.playerAsset.find row.playerId).isSome = true) :
    DbStep.Good cfg s.mysql s'.mysql i φ ψ := by
  by_cases hreads : c.readsMysql = true
  · rw [hp.mysql_eq hreads]
    refine .same hm ?_
    cases hadv with
    | unlock exit => exact Phase.txn_of_exit exit htxn
    | noPending empty => exact htxn
    | pending nonempty => exact congrArg Option.isSome htxn
    | enterBegin | settleBegin | write _ | refuse _ | commit | rollback => cases hreads
    | enterNoBegin | settleNoBegin | noCommit => cases hreads
    | _ => exact htxn
  · cases hadv with
    | pass harmless _ => exact absurd (Cmd.readsMysql_of_harmless harmless) hreads
    | enterBegin | settleBegin =>
      obtain ⟨message, -, hr, -⟩ | ⟨-, m, hexec, rfl⟩ := hp.sql_cases
      · cases hr
      · exact .start hm htxn rfl hexec
    | enterNoBegin | settleNoBegin =>
      obtain ⟨message, -, -, rfl⟩ | ⟨-, m, hexec, rfl⟩ := hp.sql_cases
      · exact .same hm htxn
      · simp [Mysql.execute] at hexec
    | write accepted =>
      rename_i deed done todo w n
      obtain ⟨message, -, hr, -⟩ | ⟨-, m, hexec, rfl⟩ := hp.sql_cases
      · cases hr
      · refine .write hm htxn (key_fresh hknows.2) hexec (fun _ _ => rfl) ?_
        rintro (⟨hrun, hr⟩ | ⟨e, he⟩)
        · -- an unmatched statement that the code takes for done: not possible
          have hn : n = 0 := Except.ok.inj hr
          have hw : w.guarded = false := by
            rw [Bool.eq_false_iff]
            intro hg
            exact absurd (accepted hg) (by omega)
          exact absurd hrun (not_unmatched hknows.2 hknows.1 hasset hw)
        · cases he
    | refuse refused =>
      obtain ⟨message, -, -, rfl⟩ | ⟨-, m, hexec, rfl⟩ := hp.sql_cases
      · exact .same hm (congrArg Option.isSome htxn)
      · exact .write hm htxn (key_fresh hknows.2) hexec (fun _ _ => rfl) fun _ => rfl
    | commit =>
      obtain ⟨message, -, hr, -⟩ | ⟨-, m, hexec, rfl⟩ := hp.sql_cases
      · cases hr
      · have hplan := hknows.2
        rw [List.append_nil] at hplan
        subst hplan
        exact .commit hm htxn hknows.1 hexec
    | noCommit =>
      obtain ⟨message, -, -, rfl⟩ | ⟨-, m, hexec, rfl⟩ := hp.sql_cases
      · exact .same hm (congrArg Option.isSome htxn)
      · simp [Mysql.execute] at hexec
    | rollback =>
      obtain ⟨message, hf, -, -⟩ | ⟨-, m, hexec, rfl⟩ := hp.sql_cases
      · rw [hroll rfl] at hf
        cases hf
      · exact .rollback hm rfl hexec
    | _ => exact absurd rfl hreads

end GameBackend
