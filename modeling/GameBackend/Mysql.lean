import GameBackend.Tables
import Mathlib.Logic.Function.Basic

/-!
# The MySQL server

One connection per server process, identified by the process `i : ι`. A
transaction is the list of write statements it has executed so far; `view` is
what its own statements see, the committed tables with these writes on top.

* An `UPDATE`, `INSERT` or upsert evaluates its `WHERE` clause on the latest
  committed row and locks the row until the transaction ends; a statement on a
  row locked by another transaction waits (`execute` has no result). Locks on
  rows a statement only looked at are left out, and so are gap and next-key
  locks, as `INSERT … ON DUPLICATE KEY UPDATE` takes them. They make statements
  wait that get their answer here: no interleaving of the database is missing,
  but what is said of waiting is said of the locks on written rows alone.
* Texts are compared as they are. (The deployed collation `utf8mb4_unicode_ci`
  does not tell apart the case of letters, nor blanks at the end.)
* A plain `SELECT` locks nothing and reads the latest committed rows. (A
  consistent read would stay with the snapshot of its transaction's first read;
  the one `SELECT` the servers send inside a transaction is its first read.)
* `START TRANSACTION` commits a transaction that is still open; a write outside
  a transaction commits by itself.
* `binlog` records the write statements of every commit, newest first.

`Mysql.Sound` is the invariant of row locking: everything an open transaction
has written it has locked, once per row, and could write on the committed tables
as well. So a commit does exactly what its statements were told.
-/

namespace GameBackend

/-- What is found after an update is the new value, or was found before in another place. -/
theorem some_of_update {ι β : Type} [DecidableEq ι] {f : ι → Option β} {i j : ι}
    {new : Option β} {b : β} (h : Function.update f i new j = some b) :
    (j = i ∧ new = some b) ∨ (j ≠ i ∧ f j = some b) := by
  by_cases hji : j = i
  · subst hji
    rw [Function.update_self] at h
    exact .inl ⟨rfl, h⟩
  · rw [Function.update_of_ne hji] at h
    exact .inr ⟨hji, h⟩

/-! ## Statements and answers -/

/-- The `SELECT` statements of the servers. -/
inductive Query where
  /-- `player` left joined with `player_asset` -/
  | profile (playerId : ℤ)
  /-- the `player_dungeon` rows of a player -/
  | progress (playerId : ℤ)
  /-- a `dungeon_battle` row of the player with status 0 -/
  | pendingBattle (playerId : ℤ)
  /-- the `dungeon_battle` row of a battle -/
  | battle (battleId : String)
  /-- `is_first_clear` of a `player_dungeon` row -/
  | firstClear (playerId dungeonId : ℤ)
  /-- `account` left joined with `player` -/
  | account (accountName : String)
  deriving DecidableEq, Repr

/-- The type of a result row. -/
abbrev Query.Row : Query → Type
  | profile _ => PlayerProfile
  | progress _ => ProgressRow
  | pendingBattle _ => String
  | battle _ => BattleRow
  | firstClear _ _ => ℤ
  | account _ => Account

/-- The result rows of a `SELECT`. -/
def Query.rows (t : Tables) : (q : Query) → List q.Row
  | profile p => ((t.player.find p).map fun r =>
      let a := t.playerAsset.find p
      { playerId := r.playerId
        accountId := r.accountId
        playerName := r.name
        level := r.level
        stamina := (a.map AssetRow.stamina).getD 0
        gold := (a.map AssetRow.gold).getD 0
        diamond := (a.map AssetRow.diamond).getD 0 }).toList
  | progress p => t.playerDungeon.rows.filter fun r => r.playerId = p
  | pendingBattle p =>
    ((t.dungeonBattle.rows.filter fun r => r.playerId = p ∧ r.status = 0).map
      BattleRow.battleId).take 1
  | battle b => (t.dungeonBattle.find b).toList
  | firstClear p d => ((t.playerDungeon.find (p, d)).map ProgressRow.isFirstClear).toList
  | account name => ((t.account.find name).map fun r =>
      { accountId := r.accountId
        accountName := r.accountName
        passwordHash := r.passwordHash
        defaultPlayerId :=
          ((t.player.rows.filter fun p => p.accountId = r.accountId).map
            PlayerRow.playerId).min?.getD 0
        enabled := r.status = 1 }).toList

/-- What a server process can send to MySQL. -/
inductive SqlCmd where
  | startTransaction
  | commit
  | rollback
  | write (s : SqlWrite)
  | select (q : Query)
  deriving DecidableEq, Repr

/-- What it gets back: an error message or the affected rows of a statement,
the rows of a `SELECT` or nothing when it fails. -/
abbrev SqlCmd.Reply : SqlCmd → Type
  | startTransaction => Except String Unit
  | commit => Except String Unit
  | rollback => Except String Unit
  | write _ => Except String ℕ
  | select q => Option (List q.Row)

/-- The answer to a statement that fails. -/
def SqlCmd.failed (message : String) : (c : SqlCmd) → c.Reply
  | startTransaction => .error message
  | commit => .error message
  | rollback => .error message
  | write _ => .error message
  | select _ => none

/-- The answers a statement can get: result rows satisfy the `WHERE` clause. -/
def SqlCmd.Plausible : (c : SqlCmd) → c.Reply → Prop
  | select (.profile p), r => ∀ rows ∈ r, ∀ row ∈ rows, PlayerProfile.playerId row = p
  | select (.battle b), r => ∀ rows ∈ r, ∀ row ∈ rows, BattleRow.battleId row = b
  | _, _ => True

theorem SqlCmd.plausible_failed (message : String) (c : SqlCmd) :
    c.Plausible (c.failed message) := by
  cases c with
  | select q => cases q <;> simp [Plausible, failed]
  | _ => trivial

theorem Query.plausible_rows (t : Tables) (q : Query) :
    (SqlCmd.select q).Plausible (some (q.rows t)) := by
  cases q with
  | profile p =>
    simp only [SqlCmd.Plausible, Option.mem_def, Option.some.injEq, forall_eq']
    intro row hrow
    obtain ⟨r, hr, rfl⟩ := Option.map_eq_some_iff.mp (Option.mem_toList.mp hrow)
    have hkey := Table.key_of_find hr
    exact hkey
  | battle b =>
    simp only [SqlCmd.Plausible, Option.mem_def, Option.some.injEq, forall_eq']
    intro row hrow
    exact Table.key_of_find (Option.mem_toList.mp hrow)
  | _ => trivial

/-! ## The server -/

/-- Execute write statements one after the other. -/
def applyAll (ws : List SqlWrite) (t : Tables) : Tables := ws.foldl (fun t s => s.apply t) t

/-- The state of the MySQL server. -/
structure Mysql (ι : Type) where
  /-- the committed tables -/
  tables : Tables
  /-- the connection that holds a row lock -/
  locks : RowKey → Option ι
  /-- the writes of the open transaction of each connection -/
  txns : ι → Option (List SqlWrite)
  /-- the writes of each commit, newest first -/
  binlog : List (List SqlWrite)

namespace Mysql

variable {ι : Type} [DecidableEq ι]

/-- What the statements of connection `i` see. -/
def view (m : Mysql ι) (i : ι) : Tables := applyAll ((m.txns i).getD []) m.tables

/-- Give up the row locks of connection `i`. -/
def release (m : Mysql ι) (i : ι) : RowKey → Option ι :=
  fun k => if m.locks k = some i then none else m.locks k

/-- Commit the open transaction of connection `i`, if there is one. -/
def commitTxn (m : Mysql ι) (i : ι) : Mysql ι :=
  match m.txns i with
  | none => m
  | some ws =>
    { tables := applyAll ws m.tables
      locks := m.release i
      txns := Function.update m.txns i none
      binlog := ws :: m.binlog }

/-- Discard the open transaction of connection `i`. -/
def rollbackTxn (m : Mysql ι) (i : ι) : Mysql ι :=
  { m with locks := m.release i, txns := Function.update m.txns i none }

/-- Execute a statement of connection `i`; no result while it waits for a row
lock. -/
def execute (m : Mysql ι) (i : ι) : (c : SqlCmd) → Option (c.Reply × Mysql ι)
  | .startTransaction =>
    let m' := m.commitTxn i
    some (.ok (), { m' with txns := Function.update m'.txns i (some []) })
  | .commit => some (.ok (), m.commitTxn i)
  | .rollback => some (.ok (), m.rollbackTxn i)
  | .select q => some (some (q.rows (m.view i)), m)
  | .write s =>
    if m.locks s.key = none ∨ m.locks s.key = some i then
      match s.run (m.view i) with
      | .rejected message => some (.error message, m)
      | .unmatched => some (.ok 0, m)
      | .hit t n =>
        match m.txns i with
        | some ws =>
          some (.ok n, { m with
            locks := Function.update m.locks s.key (some i)
            txns := Function.update m.txns i (some (ws ++ [s])) })
        | none => some (.ok n, { m with tables := t, binlog := [s] :: m.binlog })
    else none

/-! ## What a transaction sees -/

theorem row_applyAll_ne {ws : List SqlWrite} :
    ∀ {t : Tables} {k : RowKey}, k ∉ ws.map SqlWrite.key → (applyAll ws t).row k = t.row k := by
  induction ws with
  | nil => intro t k _; rfl
  | cons s rest ih =>
    intro t k hk
    rw [List.map_cons, List.mem_cons, not_or] at hk
    exact (ih hk.2).trans (SqlWrite.row_apply_ne t hk.1)

theorem player_applyAll {ws : List SqlWrite} :
    ∀ {t : Tables}, (applyAll ws t).player = t.player := by
  induction ws with
  | nil => intro t; rfl
  | cons s rest ih =>
    intro t
    exact ih.trans (SqlWrite.player_apply s t)

/-! ## The row locking invariant -/

/-- Row locking: what an open transaction has written, it has locked, with one
write per row, and each write also goes through on the committed tables. -/
structure Sound (m : Mysql ι) : Prop where
  /-- written rows are locked -/
  locked : ∀ i ws, m.txns i = some ws → ∀ s ∈ ws, m.locks s.key = some i
  /-- one write per row -/
  distinct : ∀ i ws, m.txns i = some ws → (ws.map SqlWrite.key).Nodup
  /-- every write goes through on the committed tables -/
  justified : ∀ i ws, m.txns i = some ws → ∀ s ∈ ws, ∃ t', SqlWrite.Wrote s m.tables t'
  /-- only open transactions hold locks -/
  held : ∀ k i, m.locks k = some i → (m.txns i).isSome

namespace Sound

variable {m : Mysql ι} {i : ι}

omit [DecidableEq ι] in
/-- A server without transactions satisfies the row locking invariant. -/
theorem of_idle (h : ∀ i, m.txns i = none) (hl : ∀ k, m.locks k = none) : m.Sound where
  locked i ws hi := by rw [h] at hi; cases hi
  distinct i ws hi := by rw [h] at hi; cases hi
  justified i ws hi := by rw [h] at hi; cases hi
  held k i hk := by rw [hl] at hk; cases hk

omit [DecidableEq ι] in
/-- The rows written by different transactions are different. -/
theorem key_ne (hm : m.Sound) {j : ι} {ws vs : List SqlWrite} (hij : i ≠ j)
    (hi : m.txns i = some ws) (hj : m.txns j = some vs) {s v : SqlWrite} (hs : s ∈ ws)
    (hv : v ∈ vs) : s.key ≠ v.key := by
  intro hk
  have h₁ := hm.locked i ws hi s hs
  have h₂ := hm.locked j vs hj v hv
  rw [hk, h₂] at h₁
  exact hij (Option.some.inj h₁).symm

/-- The locks left after connection `i` gives up its own are those of others. -/
theorem of_release {k : RowKey} {j : ι} (h : m.release i k = some j) :
    j ≠ i ∧ m.locks k = some j := by
  rw [release] at h
  split at h
  · cases h
  · rename_i hk
    exact ⟨fun hji => hk (hji ▸ h), h⟩

/-- Ending a transaction without effect on the tables keeps the invariant. -/
theorem rollback (hm : m.Sound) : (m.rollbackTxn i).Sound := by
  have hother : ∀ j ws, (m.rollbackTxn i).txns j = some ws → j ≠ i ∧ m.txns j = some ws := by
    intro j ws hj
    rcases some_of_update hj with ⟨-, heq⟩ | hother
    · cases heq
    · exact hother
  refine ⟨?_, ?_, ?_, ?_⟩
  · intro j ws hj s hs
    obtain ⟨hji, hj'⟩ := hother j ws hj
    have hlock := hm.locked j ws hj' s hs
    simp only [rollbackTxn, release, hlock, Option.some.injEq, hji, if_false]
  · intro j ws hj
    exact hm.distinct j ws (hother j ws hj).2
  · intro j ws hj
    exact hm.justified j ws (hother j ws hj).2
  · intro k j hk
    obtain ⟨hji, hk'⟩ := of_release hk
    exact (congrArg Option.isSome (Function.update_of_ne hji ..)).trans (hm.held k j hk')

/-- Committing a transaction keeps the invariant: the other transactions wrote
other rows. -/
theorem commit (hm : m.Sound) : (m.commitTxn i).Sound := by
  rcases hi : m.txns i with _ | vs
  · rw [commitTxn, hi]
    exact hm
  · have hother : ∀ j ws, (m.commitTxn i).txns j = some ws → j ≠ i ∧ m.txns j = some ws := by
      intro j ws hj
      simp only [commitTxn, hi] at hj
      rcases some_of_update hj with ⟨-, heq⟩ | hother
      · cases heq
      · exact hother
    refine ⟨?_, ?_, ?_, ?_⟩
    · intro j ws hj s hs
      obtain ⟨hji, hj'⟩ := hother j ws hj
      have hlock := hm.locked j ws hj' s hs
      simp only [commitTxn, hi, release, hlock, Option.some.injEq, hji, if_false]
    · intro j ws hj
      exact hm.distinct j ws (hother j ws hj).2
    · intro j ws hj s hs
      obtain ⟨hji, hj'⟩ := hother j ws hj
      obtain ⟨t', hw⟩ := hm.justified j ws hj' s hs
      have hk : s.key ∉ vs.map SqlWrite.key := by
        intro hmem
        obtain ⟨v, hv, hvk⟩ := List.mem_map.mp hmem
        exact hm.key_ne hji hj' hi hs hv hvk.symm
      simp only [commitTxn, hi]
      exact hw.congr (row_applyAll_ne hk) player_applyAll
    · intro k j hk
      simp only [commitTxn, hi] at hk ⊢
      obtain ⟨hji, hk'⟩ := of_release hk
      exact (congrArg Option.isSome (Function.update_of_ne hji ..)).trans (hm.held k j hk')

/-- Starting a transaction keeps the invariant. -/
theorem start (hm : m.Sound) :
    { m.commitTxn i with txns := Function.update (m.commitTxn i).txns i (some []) }.Sound := by
  have hc : (m.commitTxn i).Sound := hm.commit
  refine ⟨?_, ?_, ?_, ?_⟩
  case refine_4 =>
    intro k j hk
    by_cases hji : j = i
    · subst hji
      simp
    · exact (congrArg Option.isSome (Function.update_of_ne hji ..)).trans (hc.held k j hk)
  all_goals intro j ws hj; rcases some_of_update hj with ⟨rfl, heq⟩ | ⟨hji, hj'⟩
  · obtain rfl := Option.some.inj heq
    exact fun s hs => absurd hs List.not_mem_nil
  · exact hc.locked j ws hj'
  · obtain rfl := Option.some.inj heq
    exact List.nodup_nil
  · exact hc.distinct j ws hj'
  · obtain rfl := Option.some.inj heq
    exact fun s hs => absurd hs List.not_mem_nil
  · exact hc.justified j ws hj'

omit [DecidableEq ι] in
/-- A write of a row the transaction has not written yet sees the committed
row. -/
theorem wrote_committed {ws : List SqlWrite} {s : SqlWrite} {t : Tables} {n : ℕ}
    (hi : m.txns i = some ws) (hfresh : s.key ∉ ws.map SqlWrite.key)
    (hrun : s.run (m.view i) = .hit t n) : ∃ t', SqlWrite.Wrote s m.tables t' := by
  have hview : m.view i = applyAll ws m.tables := by rw [view, hi, Option.getD_some]
  exact (SqlWrite.wrote_of_run hrun).congr
    (by rw [hview, row_applyAll_ne hfresh]) (by rw [hview, player_applyAll])

/-- Executing a write of a fresh row keeps the invariant. -/
theorem write (hm : m.Sound) {ws : List SqlWrite} {s : SqlWrite} {t : Tables} {n : ℕ}
    (hi : m.txns i = some ws) (hfresh : s.key ∉ ws.map SqlWrite.key)
    (hfree : m.locks s.key = none ∨ m.locks s.key = some i)
    (hrun : s.run (m.view i) = .hit t n) :
    { m with
      locks := Function.update m.locks s.key (some i)
      txns := Function.update m.txns i (some (ws ++ [s])) }.Sound := by
  refine ⟨?_, ?_, ?_, ?_⟩
  case refine_4 =>
    intro k j hk
    by_cases hji : j = i
    · subst hji
      simp
    · by_cases hks : k = s.key
      · have hki : some i = some j := by simpa [hks] using hk
        exact absurd (Option.some.inj hki).symm hji
      · replace hk : m.locks k = some j := by simpa [hks] using hk
        exact (congrArg Option.isSome (Function.update_of_ne hji ..)).trans (hm.held k j hk)
  all_goals intro j vs hj; rcases some_of_update hj with ⟨rfl, heq⟩ | ⟨hji, hj'⟩
  · obtain rfl := Option.some.inj heq
    intro v hv
    by_cases hk : v.key = s.key
    · rw [hk]
      exact Function.update_self ..
    · rcases List.mem_append.mp hv with hv | hv
      · exact (Function.update_of_ne hk ..).trans (hm.locked j ws hi v hv)
      · exact absurd (congrArg SqlWrite.key (List.mem_singleton.mp hv)) hk
  · intro v hv
    have hlock := hm.locked j vs hj' v hv
    -- the row was free, so no other transaction has written it
    have hk : v.key ≠ s.key := by
      intro hk
      rw [hk] at hlock
      rcases hfree with hfree | hfree
      · rw [hfree] at hlock
        cases hlock
      · rw [hfree] at hlock
        exact hji (Option.some.inj hlock).symm
    exact (Function.update_of_ne hk ..).trans hlock
  · obtain rfl := Option.some.inj heq
    rw [List.map_append, List.map_singleton]
    refine List.nodup_append.mpr ⟨hm.distinct j ws hi, List.nodup_singleton _, ?_⟩
    intro a ha b hb hab
    rw [List.mem_singleton] at hb
    exact hfresh (hb ▸ hab ▸ ha)
  · exact hm.distinct j vs hj'
  · obtain rfl := Option.some.inj heq
    intro v hv
    rcases List.mem_append.mp hv with hv | hv
    · exact hm.justified j ws hi v hv
    · obtain rfl := List.mem_singleton.mp hv
      exact wrote_committed (m := m) hi hfresh hrun
  · exact hm.justified j vs hj'

end Sound

end Mysql

end GameBackend
