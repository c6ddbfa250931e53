import GameBackend.Protocol

/-!
# The ledger

The abstract machine the database is meant to be: its state is the committed
tables, its steps are whole deeds. `Entered` and `Settled` say what a deed needs
and what it changes, table by table, without the order of its statements;
`Ledger cfg Q t₀ deeds t` says that `deeds` (newest first) lead from `t₀` to `t`,
each of them meeting the side condition `Q` on the tables it starts from.

`transacts_of_justified` connects it to MySQL: writes that each go through on the
committed tables amount to the deed.
-/

namespace GameBackend

variable {cfg : DungeonConfig} {t t' t₀ : Tables} {deed : Deed} {deeds : List Deed}

/-! ## The two deeds -/

/-- A battle row is entered: the stamina is there and is taken, the battle id was
free and gets the row. -/
structure Entered (row : BattleRow) (t t' : Tables) : Prop where
  asset : ∃ a, t.playerAsset.find row.playerId = some a ∧ row.costStamina ≤ a.stamina
  free : t.dungeonBattle.find row.battleId = none
  pending : row.status = 0
  eq : t' = (t.spend row.playerId row.costStamina).insertBattle row

/-- The battle of a settlement, as the database knows it. -/
def Settlement.Of (s : Settlement) (row : BattleRow) : Prop :=
  row.playerId = s.playerId ∧ row.dungeonId = s.dungeonId

/-- What a settlement does to `player_dungeon`: it creates the row or improves
it. -/
inductive Progressed (s : Settlement) (t : Table ProgressRow.key) :
    Table ProgressRow.key → Prop where
  | created (free : t.find (s.playerId, s.dungeonId) = none) :
      Progressed s t
        (t.insert ⟨s.playerId, s.dungeonId, s.star, if s.firstClear then 1 else 0⟩)
  | improved {row : ProgressRow} (found : t.find (s.playerId, s.dungeonId) = some row) :
      Progressed s t (t.modify (s.playerId, s.dungeonId)
        (ProgressRow.improve s.star s.firstClear) (ProgressRow.key_improve s.star s.firstClear))

/-- A battle is settled: it was pending, its player is paid, the progress and the
reward log record it. -/
structure Settled (cfg : DungeonConfig) (s : Settlement) (t t' : Tables) : Prop where
  battle : ∃ row, t.dungeonBattle.find s.battleId = some row ∧ row.status = 0 ∧ s.Of row
  asset : ∃ a, t.playerAsset.find s.playerId = some a
  unlogged : ∀ r ∈ s.rewardRows cfg, t.rewardLog.find r.key = none
  player : t'.player = t.player
  account : t'.account = t.account
  battles : t'.dungeonBattle = (t.finishBattle s.battleId).dungeonBattle
  assets : t'.playerAsset = (t.gain s.playerId cfg.normalGoldReward (s.diamond cfg)).playerAsset
  progress : Progressed s t.playerDungeon t'.playerDungeon
  rewards : t'.rewardLog.rows = t.rewardLog.rows ++ s.rewardRows cfg

/-- What a deed needs and changes. -/
def Transacts (cfg : DungeonConfig) : Deed → Tables → Tables → Prop
  | .enter row => Entered row
  | .settle s => Settled cfg s

/-- What is known of a deed before its transaction: a settlement is about a
battle of its player and dungeon. -/
def Deed.Known (t : Tables) : Deed → Prop
  | .enter row => row.status = 0
  | .settle s => ∃ row, t.dungeonBattle.find s.battleId = some row ∧ s.Of row

/-! ## From statements to deeds -/

theorem key_rewardRows_nodup (cfg : DungeonConfig) (s : Settlement) :
    ((s.rewardRows cfg).map RewardRow.key).Nodup := by
  rw [Settlement.rewardRows]
  split
  · simp
  · simp

/-- The rewards of a settlement are those of its player and battle. -/
theorem of_mem_rewardRows {s : Settlement} {row : RewardRow} (h : row ∈ s.rewardRows cfg) :
    row.playerId = s.playerId ∧ row.battleId = s.battleId := by
  rcases List.mem_cons.mp h with rfl | h
  · exact ⟨rfl, rfl⟩
  · split at h
    · rw [List.mem_singleton.mp h]
      exact ⟨rfl, rfl⟩
    · cases h

/-- Inserting reward rows whose keys are free appends them and changes no other
table. -/
theorem rows_insertRewards :
    ∀ {rows : List RewardRow} {t : Tables}, (rows.map RewardRow.key).Nodup →
      (∀ r ∈ rows, t.rewardLog.find r.key = none) →
      ∃ log : Table RewardRow.key, log.rows = t.rewardLog.rows ++ rows ∧
        applyAll (rows.map .insertRewardLog) t = { t with rewardLog := log }
  | [], t, _, _ => ⟨t.rewardLog, (List.append_nil _).symm, rfl⟩
  | r :: rest, t, hnd, hfree => by
    rw [List.map_cons, List.nodup_cons] at hnd
    have hr : t.rewardLog.find r.key = none := hfree r List.mem_cons_self
    have hrest : ∀ q ∈ rest, (t.insertReward r).rewardLog.find q.key = none := by
      intro q hq
      have hne : r.key ≠ q.key := fun h => hnd.1 (h ▸ List.mem_map_of_mem hq)
      exact (Table.find_insert_ne _ hne).trans (hfree q (List.mem_cons_of_mem _ hq))
    obtain ⟨log, hlog, happly⟩ := rows_insertRewards (t := t.insertReward r) hnd.2 hrest
    have hins : (t.insertReward r).rewardLog.rows = t.rewardLog.rows ++ [r] := Table.rows_insert hr
    refine ⟨log, ?_, ?_⟩
    · rw [hlog, hins, List.append_assoc, List.singleton_append]
    · rw [List.map_cons, applyAll, List.foldl_cons, (SqlWrite.Wrote.insertRewardLog hr).apply_eq]
      exact happly

/-- The upsert of a settlement, on tables where it can write. -/
theorem progressed_of_wrote {s : Settlement}
    (h : SqlWrite.Wrote (.upsertProgress s.playerId s.dungeonId s.star s.firstClear) t t') :
    ∃ (progress : Table ProgressRow.key)
      (fk : ∀ r ∈ progress.rows, (t.player.find r.playerId).isSome),
      Progressed s t.playerDungeon progress ∧
        t' = { t with playerDungeon := progress, fkDungeonPlayer := fk } := by
  cases h with
  | insertProgress hplayer free => exact ⟨_, _, .created free, rfl⟩
  | updateProgress found => exact ⟨_, _, .improved found, rfl⟩

/-- Writes that each go through on the tables amount to the deed. -/
theorem transacts_of_justified (hknown : deed.Known t)
    (h : ∀ w ∈ deed.plan cfg, ∃ u, SqlWrite.Wrote w t u) :
    Transacts cfg deed t (applyAll (deed.plan cfg) t) := by
  cases deed with
  | enter row =>
    obtain ⟨u, hu⟩ := h (.updateAssetStamina row.playerId row.costStamina) (by simp [Deed.plan])
    obtain ⟨v, hv⟩ := h (.insertBattle row) (by simp [Deed.plan])
    cases hu with
    | updateAssetStamina found enough fits =>
      cases hv with
      | insertBattle free =>
        refine ⟨⟨_, found, enough⟩, free, hknown, ?_⟩
        have h₁ := (SqlWrite.Wrote.updateAssetStamina found enough fits).apply_eq
        have h₂ := (SqlWrite.Wrote.insertBattle (t := t.spend row.playerId row.costStamina)
          free).apply_eq
        rw [Deed.plan, applyAll, List.foldl_cons, List.foldl_cons, List.foldl_nil, h₁, h₂]
  | settle s =>
    obtain ⟨u₁, h₁⟩ := h (.updateBattle s.battleId) (by simp [Deed.plan])
    obtain ⟨u₂, h₂⟩ := h (.updateAssetReward s.playerId cfg.normalGoldReward (s.diamond cfg))
      (by simp [Deed.plan])
    obtain ⟨u₃, h₃⟩ := h (.upsertProgress s.playerId s.dungeonId s.star s.firstClear)
      (by simp [Deed.plan])
    have hfree : ∀ r ∈ s.rewardRows cfg, t.rewardLog.find r.key = none := by
      intro r hr
      obtain ⟨u, hu⟩ := h (.insertRewardLog r) (by simp [Deed.plan, hr])
      cases hu with
      | insertRewardLog free => exact free
    obtain ⟨row, hrow, hof⟩ := hknown
    cases h₁ with
    | updateBattle found unsettled =>
    cases h₂ with
    | updateAssetReward found₂ fits =>
      obtain rfl := Option.some.inj (found.symm.trans hrow)
      -- each statement finds its own table as it was
      have ha₁ := (SqlWrite.Wrote.updateBattle found unsettled).apply_eq
      have ha₂ := (SqlWrite.Wrote.updateAssetReward (t := t.finishBattle s.battleId)
        found₂ fits).apply_eq
      obtain ⟨u, hu⟩ := h₃.congr (u := (t.finishBattle s.battleId).gain s.playerId
        cfg.normalGoldReward (s.diamond cfg)) rfl rfl
      obtain ⟨progress, fk, hprogress, rfl⟩ := progressed_of_wrote hu
      obtain ⟨log, hlog, hinsert⟩ := rows_insertRewards
        (t := { (t.finishBattle s.battleId).gain s.playerId cfg.normalGoldReward
          (s.diamond cfg) with playerDungeon := progress, fkDungeonPlayer := fk })
        (key_rewardRows_nodup cfg s) hfree
      rw [Deed.plan, applyAll, List.foldl_cons, List.foldl_cons, List.foldl_cons, ha₁, ha₂,
        hu.apply_eq]
      change Settled cfg s t (applyAll ((s.rewardRows cfg).map .insertRewardLog) _)
      rw [hinsert]
      exact ⟨⟨_, found, unsettled, hof⟩, ⟨_, found₂⟩, hfree, rfl, rfl, rfl, rfl, hprogress, hlog⟩

/-! ## What one deed changes -/

/-- A later version of a battle row: at most its status was set. -/
def BattleRow.Later (row row' : BattleRow) : Prop := row' = row ∨ row' = row.finish

theorem BattleRow.Later.trans {row row' row'' : BattleRow} (h : row.Later row')
    (h' : row'.Later row'') : row.Later row'' := by
  obtain rfl | rfl := h
  · exact h'
  · obtain rfl | rfl := h'
    · exact .inr rfl
    · exact .inr rfl

/-- What a deed does to the asset row of its player. -/
def Deed.pay (cfg : DungeonConfig) : Deed → AssetRow → AssetRow
  | .enter row => AssetRow.spend row.costStamina
  | .settle s => AssetRow.gain cfg.normalGoldReward (s.diamond cfg)

namespace Transacts

theorem find_asset (h : Transacts cfg deed t t') (p : ℤ) :
    t'.playerAsset.find p =
      (t.playerAsset.find p).map fun a => if p = deed.player then deed.pay cfg a else a := by
  cases deed with
  | enter row =>
    rw [Entered.eq h]
    exact t.find_spend _ _ p
  | settle s =>
    rw [Settled.assets h]
    exact t.find_gain _ _ p _

/-- Battles stay, with at most their status set. -/
theorem battle_kept (h : Transacts cfg deed t t') {b : String} {row : BattleRow}
    (hrow : t.dungeonBattle.find b = some row) :
    ∃ row', t'.dungeonBattle.find b = some row' ∧ row.Later row' := by
  cases deed with
  | enter new =>
    refine ⟨row, ?_, .inl rfl⟩
    have hne : new.battleId ≠ b := by
      rintro rfl
      rw [Entered.free h] at hrow
      cases hrow
    rw [Entered.eq h]
    exact (Table.find_insert_ne _ hne).trans hrow
  | settle s =>
    have hfind : t'.dungeonBattle.find b =
        (t.dungeonBattle.find b).map fun r => if b = s.battleId then r.finish else r := by
      rw [Settled.battles h]
      exact t.find_finishBattle _ b
    rw [hrow, Option.map_some] at hfind
    refine ⟨_, hfind, ?_⟩
    split
    · exact .inr rfl
    · exact .inl rfl

/-- A battle after a deed was there before, or the deed entered it. -/
theorem battle_from (h : Transacts cfg deed t t') {b : String} {row' : BattleRow}
    (hrow : t'.dungeonBattle.find b = some row') :
    (∃ row, t.dungeonBattle.find b = some row ∧ row.Later row') ∨
      (deed = .enter row' ∧ row'.battleId = b) := by
  rcases hb : t.dungeonBattle.find b with _ | row
  · cases deed with
    | enter new =>
      rw [Entered.eq h] at hrow
      have hins := (Table.find_insert (Entered.free h) b).symm.trans hrow
      split at hins
      · rename_i hnew
        obtain rfl := Option.some.inj hins
        exact .inr ⟨rfl, hnew⟩
      · rw [hb] at hins
        cases hins
    | settle s =>
      rw [Settled.battles h, Tables.find_finishBattle, hb] at hrow
      cases hrow
  · obtain ⟨row'', hrow'', hlater⟩ := h.battle_kept hb
    obtain rfl := Option.some.inj (hrow''.symm.trans hrow)
    exact .inl ⟨row, rfl, hlater⟩

/-- Progress rows stay. -/
theorem progress_kept (h : Transacts cfg deed t t') {k : ℤ × ℤ}
    (hk : t.playerDungeon.find k ≠ none) : t'.playerDungeon.find k ≠ none := by
  cases deed with
  | enter row =>
    rw [Entered.eq h]
    exact hk
  | settle s =>
    rcases hp : t'.playerDungeon, Settled.progress h with ⟨_, free | found⟩
    · have hne : ∀ x c, (⟨s.playerId, s.dungeonId, x, c⟩ : ProgressRow).key ≠ k :=
        fun x c hkey => hk (hkey ▸ free)
      rw [Table.find_insert_ne _ (hne _ _)]
      exact hk
    · rw [Table.find_modify]
      simpa using hk

/-- After a settlement the progress row of its dungeon exists. -/
theorem progress_settled {s : Settlement} (h : Transacts cfg (.settle s) t t') :
    t'.playerDungeon.find (s.playerId, s.dungeonId) ≠ none := by
  rcases hp : t'.playerDungeon, Settled.progress h with ⟨_, free | found⟩
  · rw [Table.find_insert free, if_pos rfl]
    exact Option.some_ne_none _
  · rw [Table.find_modify, found]
    simp

/-- The progress rows of other players and dungeons are as they were. -/
theorem progress_ne (h : Transacts cfg deed t t') {k : ℤ × ℤ}
    (hk : ∀ s, deed = .settle s → k ≠ (s.playerId, s.dungeonId)) :
    t'.playerDungeon.find k = t.playerDungeon.find k := by
  cases deed with
  | enter row => rw [Entered.eq h]; rfl
  | settle s =>
    have hne := hk s rfl
    rcases hp : t'.playerDungeon, Settled.progress h with ⟨_, free | found⟩
    · exact Table.find_insert_ne _ hne.symm
    · exact Table.find_modify_ne _ hne

end Transacts

/-! ## Sequences of deeds -/

/-- The deeds, newest first, lead from `t₀` to `t`, each meeting `Q` on the
tables it starts from. -/
inductive Ledger (cfg : DungeonConfig) (Q : Deed → Tables → Prop) (t₀ : Tables) :
    List Deed → Tables → Prop where
  | nil : Ledger cfg Q t₀ [] t₀
  | cons {deeds : List Deed} {t t' : Tables} {deed : Deed} (before : Ledger cfg Q t₀ deeds t)
      (condition : Q deed t) (transacts : Transacts cfg deed t t') :
      Ledger cfg Q t₀ (deed :: deeds) t'

/-- The battle a deed enters. -/
def Deed.entered : Deed → Option String
  | .enter row => some row.battleId
  | .settle _ => none

/-- The battle a deed settles. -/
def Deed.settled : Deed → Option String
  | .enter _ => none
  | .settle s => some s.battleId

namespace Ledger

variable {Q : Deed → Tables → Prop}

/-- What every deed keeps and the start satisfies holds after all deeds. -/
theorem invariant {I : Tables → Prop} (h : Ledger cfg Q t₀ deeds t) (h₀ : I t₀)
    (hstep : ∀ deed t t', I t → Q deed t → Transacts cfg deed t t' → I t') : I t := by
  induction h with
  | nil => exact h₀
  | cons before condition transacts ih => exact hstep _ _ _ ih condition transacts

/-- A settled battle has status 1, and its row is the settlement's. -/
theorem settled (h : Ledger cfg Q t₀ deeds t) {s : Settlement} (hs : .settle s ∈ deeds) :
    ∃ row, t.dungeonBattle.find s.battleId = some row ∧ row.status = 1 ∧ s.Of row := by
  induction h with
  | nil => cases hs
  | cons before condition transacts ih =>
    rcases List.mem_cons.mp hs with rfl | hs
    · obtain ⟨row, hrow, -, hof⟩ := Settled.battle transacts
      refine ⟨row.finish, ?_, rfl, hof⟩
      rw [Settled.battles transacts, Tables.find_finishBattle, hrow]
      simp
    · obtain ⟨row, hrow, hstatus, hof⟩ := ih hs
      obtain ⟨row', hrow', rfl | rfl⟩ := transacts.battle_kept hrow
      · exact ⟨_, hrow', hstatus, hof⟩
      · exact ⟨_, hrow', rfl, hof⟩

/-- No battle is settled twice. -/
theorem settled_once (h : Ledger cfg Q t₀ deeds t) : (deeds.filterMap Deed.settled).Nodup := by
  induction h with
  | nil => exact List.nodup_nil
  | cons before condition transacts ih =>
    rename_i deeds t t' deed
    cases deed with
    | enter row => exact ih
    | settle s =>
      refine List.nodup_cons.mpr ⟨?_, ih⟩
      -- a battle settled before is not pending any more
      intro hmem
      obtain ⟨deed, hdeed, hb⟩ := List.mem_filterMap.mp hmem
      cases deed with
      | enter row => cases hb
      | settle s' =>
        obtain ⟨row, hrow, hstatus, -⟩ := before.settled hdeed
        obtain ⟨row', hrow', hpending, -⟩ := Settled.battle transacts
        rw [Option.some.inj hb] at hrow
        rw [Option.some.inj (hrow.symm.trans hrow'), hpending] at hstatus
        exact absurd hstatus (by decide)

/-- Every battle was entered by a deed, when there was none at the start. -/
theorem entered_of_find (h : Ledger cfg Q t₀ deeds t) (h₀ : t₀.dungeonBattle.rows = [])
    {b : String} {row : BattleRow} (hrow : t.dungeonBattle.find b = some row) :
    ∃ row₀, .enter row₀ ∈ deeds ∧ row₀.battleId = b ∧ row₀.Later row := by
  induction h generalizing row with
  | nil =>
    have := Table.mem_of_find hrow
    rw [h₀] at this
    cases this
  | cons before condition transacts ih =>
    rcases transacts.battle_from hrow with ⟨row', hrow', hlater⟩ | ⟨rfl, hb⟩
    · obtain ⟨row₀, hmem, hb, hlater₀⟩ := ih hrow'
      exact ⟨row₀, List.mem_cons_of_mem _ hmem, hb, hlater₀.trans hlater⟩
    · exact ⟨row, List.mem_cons_self, hb, .inl rfl⟩

/-- Every entered battle is in the table. -/
theorem find_of_entered (h : Ledger cfg Q t₀ deeds t) {row₀ : BattleRow}
    (hmem : .enter row₀ ∈ deeds) :
    ∃ row, t.dungeonBattle.find row₀.battleId = some row ∧ row₀.Later row := by
  induction h with
  | nil => cases hmem
  | cons before condition transacts ih =>
    rcases List.mem_cons.mp hmem with rfl | hmem
    · refine ⟨row₀, ?_, .inl rfl⟩
      rw [Entered.eq transacts]
      exact (Table.find_insert (Entered.free transacts) _).trans (if_pos rfl)
    · obtain ⟨row, hrow, hlater⟩ := ih hmem
      obtain ⟨row', hrow', hlater'⟩ := transacts.battle_kept hrow
      exact ⟨row', hrow', hlater.trans hlater'⟩

end Ledger

end GameBackend
