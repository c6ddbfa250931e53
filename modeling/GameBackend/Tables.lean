import GameBackend.Model
import GameBackend.Table

/-!
# The MySQL schema and its write statements

The tables of `001_schema.sql` as keyed tables: primary and unique keys are the
keys of the tables, the foreign keys are fields of `Tables`, so a database that
breaks the schema cannot be built. Time stamps, surrogate ids and
`player_item` are left out; no statement of the servers reads them.

`SqlWrite` lists the six write statements of the servers, `SqlWrite.run` what
one of them does. Every statement concerns a single row, named by
`SqlWrite.key`: it looks only at that row (`Wrote.congr`) and changes only that
row (`row_apply_ne`). Row locks and the transactions of `Mysql` rest on this.
-/

namespace GameBackend

/-! ## Rows -/

structure AccountRow where
  accountId : ℤ
  accountName : String
  passwordHash : String
  status : ℤ := 1
  deriving DecidableEq, Repr

structure PlayerRow where
  playerId : ℤ
  accountId : ℤ
  name : String
  level : ℤ := 1
  deriving DecidableEq, Repr

/-- A row of `player_asset`. -/
structure AssetRow where
  playerId : ℤ
  stamina : ℤ := 120
  gold : ℤ := 0
  diamond : ℤ := 0
  deriving DecidableEq, Repr

/-- A row of `player_dungeon`. -/
structure ProgressRow where
  playerId : ℤ
  dungeonId : ℤ
  bestStar : ℤ := 0
  isFirstClear : ℤ := 0
  deriving DecidableEq, Repr

/-- A row of `dungeon_battle`. -/
structure BattleRow where
  battleId : String
  playerId : ℤ
  dungeonId : ℤ
  status : ℤ := 0
  costStamina : ℤ := 0
  deriving DecidableEq, Repr

/-- A row of `reward_log`; `amount` is the one member of `reward_json`. -/
structure RewardRow where
  playerId : ℤ
  battleId : String
  rewardType : String
  amount : ℤ
  deriving DecidableEq, Repr

/-- The unique key `uk_player_dungeon`. -/
abbrev ProgressRow.key (r : ProgressRow) : ℤ × ℤ := (r.playerId, r.dungeonId)

/-- The unique key `uk_reward`. -/
abbrev RewardRow.key (r : RewardRow) : ℤ × String × String :=
  (r.playerId, r.battleId, r.rewardType)

/-! ### What the `SET` clauses compute -/

/-- `stamina = stamina - c` -/
def AssetRow.spend (c : ℤ) (a : AssetRow) : AssetRow := { a with stamina := a.stamina - c }

/-- `gold = gold + g [, diamond = diamond + m]` -/
def AssetRow.gain (g : ℤ) (m : Option ℤ) (a : AssetRow) : AssetRow :=
  { a with gold := a.gold + g, diamond := a.diamond + m.getD 0 }

/-- `status = 1` -/
def BattleRow.finish (r : BattleRow) : BattleRow := { r with status := 1 }

/-- The `ON DUPLICATE KEY UPDATE` clause of the progress upsert. -/
def ProgressRow.improve (star : ℤ) (firstClear : Bool) (r : ProgressRow) : ProgressRow :=
  { r with
    bestStar := max r.bestStar star
    isFirstClear := max r.isFirstClear (if firstClear then 1 else 0) }

@[simp] theorem AssetRow.playerId_spend (c : ℤ) (a : AssetRow) :
    (a.spend c).playerId = a.playerId := rfl

@[simp] theorem AssetRow.playerId_gain (g : ℤ) (m : Option ℤ) (a : AssetRow) :
    (a.gain g m).playerId = a.playerId := rfl

@[simp] theorem BattleRow.battleId_finish (r : BattleRow) : r.finish.battleId = r.battleId := rfl

@[simp] theorem ProgressRow.key_improve (star : ℤ) (firstClear : Bool) (r : ProgressRow) :
    (r.improve star firstClear).key = r.key := rfl

/-! ## Tables -/

/-- A database that satisfies the schema. -/
structure Tables where
  account : Table AccountRow.accountName
  player : Table PlayerRow.playerId
  playerAsset : Table AssetRow.playerId
  playerDungeon : Table ProgressRow.key
  dungeonBattle : Table BattleRow.battleId
  rewardLog : Table RewardRow.key
  /-- `fk_asset_player` -/
  fkAssetPlayer : ∀ a ∈ playerAsset.rows, (player.find a.playerId).isSome
  /-- `fk_dungeon_player` -/
  fkDungeonPlayer : ∀ r ∈ playerDungeon.rows, (player.find r.playerId).isSome

/-- Tables are determined by their rows. -/
@[ext] theorem Tables.ext {t u : Tables} (h₁ : t.account = u.account) (h₂ : t.player = u.player)
    (h₃ : t.playerAsset = u.playerAsset) (h₄ : t.playerDungeon = u.playerDungeon)
    (h₅ : t.dungeonBattle = u.dungeonBattle) (h₆ : t.rewardLog = u.rewardLog) : t = u := by
  cases t; cases u
  cases h₁; cases h₂; cases h₃; cases h₄; cases h₅; cases h₆
  rfl

namespace Tables

/-- Rewrite the asset row of player `p`. -/
def updateAsset (t : Tables) (p : ℤ) (f : AssetRow → AssetRow)
    (hf : ∀ a, (f a).playerId = a.playerId) : Tables :=
  { t with
    playerAsset := t.playerAsset.modify p f hf
    fkAssetPlayer := by
      intro a ha
      obtain ⟨a₀, ha₀, rfl⟩ := List.mem_map.mp ha
      have hkey : (if a₀.playerId = p then f a₀ else a₀).playerId = a₀.playerId := by
        split
        · exact hf a₀
        · rfl
      rw [hkey]
      exact t.fkAssetPlayer a₀ ha₀ }

/-- Append a battle row. -/
def insertBattle (t : Tables) (row : BattleRow) : Tables :=
  { t with dungeonBattle := t.dungeonBattle.insert row }

/-- Rewrite the battle row `b`. -/
def updateBattle (t : Tables) (b : String) (f : BattleRow → BattleRow)
    (hf : ∀ r, (f r).battleId = r.battleId) : Tables :=
  { t with dungeonBattle := t.dungeonBattle.modify b f hf }

/-- Append a progress row of an existing player. -/
def insertProgress (t : Tables) (row : ProgressRow) (h : (t.player.find row.playerId).isSome) :
    Tables :=
  { t with
    playerDungeon := t.playerDungeon.insert row
    fkDungeonPlayer := by
      intro r hr
      rw [Table.insert] at hr
      split at hr
      · exact t.fkDungeonPlayer r hr
      · rcases List.mem_append.mp hr with hr | hr
        · exact t.fkDungeonPlayer r hr
        · rw [List.mem_singleton.mp hr]
          exact h }

/-- Rewrite the progress row `k`. -/
def updateProgress (t : Tables) (k : ℤ × ℤ) (f : ProgressRow → ProgressRow)
    (hf : ∀ r, (f r).key = r.key) : Tables :=
  { t with
    playerDungeon := t.playerDungeon.modify k f hf
    fkDungeonPlayer := by
      intro r hr
      obtain ⟨r₀, hr₀, rfl⟩ := List.mem_map.mp hr
      have hkey : (if r₀.key = k then f r₀ else r₀).playerId = r₀.playerId := by
        split
        · exact congrArg Prod.fst (hf r₀)
        · rfl
      rw [hkey]
      exact t.fkDungeonPlayer r₀ hr₀ }

/-- Take `c` stamina from player `p`. -/
def spend (t : Tables) (p c : ℤ) : Tables :=
  t.updateAsset p (AssetRow.spend c) (AssetRow.playerId_spend c)

/-- Give player `p` gold and perhaps diamonds. -/
def gain (t : Tables) (p g : ℤ) (m : Option ℤ) : Tables :=
  t.updateAsset p (AssetRow.gain g m) (AssetRow.playerId_gain g m)

/-- Set the status of battle `b` to settled. -/
def finishBattle (t : Tables) (b : String) : Tables :=
  t.updateBattle b BattleRow.finish BattleRow.battleId_finish

/-- Raise the recorded progress at `k`. -/
def improveProgress (t : Tables) (k : ℤ × ℤ) (star : ℤ) (firstClear : Bool) : Tables :=
  t.updateProgress k (ProgressRow.improve star firstClear) (ProgressRow.key_improve star firstClear)

/-- Append a reward row. -/
def insertReward (t : Tables) (row : RewardRow) : Tables :=
  { t with rewardLog := t.rewardLog.insert row }

/-! ### What lookups see after a write -/

theorem find_spend (t : Tables) (p c p' : ℤ) :
    (t.spend p c).playerAsset.find p' =
      (t.playerAsset.find p').map fun a => if p' = p then a.spend c else a := by
  rw [spend, updateAsset, Table.find_modify]

theorem find_gain (t : Tables) (p g p' : ℤ) (m : Option ℤ) :
    (t.gain p g m).playerAsset.find p' =
      (t.playerAsset.find p').map fun a => if p' = p then a.gain g m else a := by
  rw [gain, updateAsset, Table.find_modify]

theorem find_finishBattle (t : Tables) (b b' : String) :
    (t.finishBattle b).dungeonBattle.find b' =
      (t.dungeonBattle.find b').map fun r => if b' = b then r.finish else r := by
  rw [finishBattle, updateBattle, Table.find_modify]

end Tables

/-! ## Write statements -/

/-- The range of an `INT` column. -/
def inInt (n : ℤ) : Bool := -2 ^ 31 ≤ n ∧ n < 2 ^ 31

/-- The range of a `BIGINT` column. -/
def inBigint (n : ℤ) : Bool := -2 ^ 63 ≤ n ∧ n < 2 ^ 63

/-- The write statements the servers send, named as the source names them. -/
inductive SqlWrite where
  /-- `UPDATE player_asset SET stamina = stamina - c WHERE player_id = p AND stamina >= c` -/
  | updateAssetStamina (playerId costStamina : ℤ)
  /-- `INSERT INTO dungeon_battle` -/
  | insertBattle (row : BattleRow)
  /-- `UPDATE dungeon_battle SET status = 1 WHERE battle_id = b AND status = 0` -/
  | updateBattle (battleId : String)
  /-- `UPDATE player_asset SET gold = gold + g [, diamond = diamond + m] WHERE player_id = p` -/
  | updateAssetReward (playerId gold : ℤ) (diamond : Option ℤ)
  /-- `INSERT INTO player_dungeon .. ON DUPLICATE KEY UPDATE ..` -/
  | upsertProgress (playerId dungeonId star : ℤ) (firstClear : Bool)
  /-- `INSERT INTO reward_log` -/
  | insertRewardLog (row : RewardRow)
  deriving DecidableEq, Repr

/-- What a write statement does: it is refused by a constraint, its `WHERE`
clause matches no row, or it writes the row it matches. `affected` counts the
rows actually changed, as `mysql_affected_rows` does without
`CLIENT_FOUND_ROWS`. -/
inductive Outcome where
  | rejected (message : String)
  | unmatched
  | hit (tables : Tables) (affected : ℕ)

namespace SqlWrite

/-- Execute a write statement on `t`. -/
def run : SqlWrite → Tables → Outcome
  | updateAssetStamina p c, t =>
    match t.playerAsset.find p with
    | none => .unmatched
    | some a =>
      if c ≤ a.stamina then
        if inInt (a.stamina - c) then
          .hit (t.spend p c) (if c = 0 then 0 else 1)
        else .rejected "Out of range value for column 'stamina' at row 1"
      else .unmatched
  | insertBattle row, t =>
    match t.dungeonBattle.find row.battleId with
    | none => .hit (t.insertBattle row) 1
    | some _ => .rejected "Duplicate entry for key 'dungeon_battle.PRIMARY'"
  | updateBattle b, t =>
    match t.dungeonBattle.find b with
    | none => .unmatched
    | some row =>
      if row.status = 0 then
        .hit (t.finishBattle b) 1
      else .unmatched
  | updateAssetReward p g m, t =>
    match t.playerAsset.find p with
    | none => .unmatched
    | some a =>
      if inBigint (a.gold + g) && inBigint (a.diamond + m.getD 0) then
        .hit (t.gain p g m)
          (if g = 0 ∧ m.getD 0 = 0 then 0 else 1)
      else .rejected "Out of range value for column 'gold' at row 1"
  | upsertProgress p d star first, t =>
    if h : (t.player.find p).isSome then
      match t.playerDungeon.find (p, d) with
      | none => .hit (t.insertProgress ⟨p, d, star, if first then 1 else 0⟩ h) 1
      | some row =>
        .hit (t.improveProgress (p, d) star first) (if row.improve star first = row then 0 else 2)
    else .rejected "Cannot add or update a child row: a foreign key constraint fails"
  | insertRewardLog row, t =>
    match t.rewardLog.find row.key with
    | none => .hit (t.insertReward row) 1
    | some _ => .rejected "Duplicate entry for key 'reward_log.uk_reward'"

/-- The tables after a write statement. -/
def apply (s : SqlWrite) (t : Tables) : Tables :=
  match s.run t with
  | .hit t' _ => t'
  | _ => t

/-- `Wrote s t t'`: on `t` the statement `s` matches a row and writes it, which
gives `t'`. One constructor for each way a statement can write. -/
inductive Wrote : SqlWrite → Tables → Tables → Prop where
  | updateAssetStamina {t : Tables} {p c : ℤ} {a : AssetRow}
      (found : t.playerAsset.find p = some a) (enough : c ≤ a.stamina)
      (fits : inInt (a.stamina - c) = true) :
      Wrote (updateAssetStamina p c) t (t.spend p c)
  | insertBattle {t : Tables} {row : BattleRow} (free : t.dungeonBattle.find row.battleId = none) :
      Wrote (insertBattle row) t (t.insertBattle row)
  | updateBattle {t : Tables} {b : String} {row : BattleRow}
      (found : t.dungeonBattle.find b = some row) (unsettled : row.status = 0) :
      Wrote (updateBattle b) t (t.finishBattle b)
  | updateAssetReward {t : Tables} {p g : ℤ} {m : Option ℤ} {a : AssetRow}
      (found : t.playerAsset.find p = some a)
      (fits : (inBigint (a.gold + g) && inBigint (a.diamond + m.getD 0)) = true) :
      Wrote (updateAssetReward p g m) t (t.gain p g m)
  | insertProgress {t : Tables} {p d star : ℤ} {first : Bool} (h : (t.player.find p).isSome)
      (free : t.playerDungeon.find (p, d) = none) :
      Wrote (upsertProgress p d star first) t
        (t.insertProgress ⟨p, d, star, if first then 1 else 0⟩ h)
  | updateProgress {t : Tables} {p d star : ℤ} {first : Bool} {row : ProgressRow}
      (found : t.playerDungeon.find (p, d) = some row) :
      Wrote (upsertProgress p d star first) t
        (t.improveProgress (p, d) star first)
  | insertRewardLog {t : Tables} {row : RewardRow} (free : t.rewardLog.find row.key = none) :
      Wrote (insertRewardLog row) t (t.insertReward row)

variable {s : SqlWrite} {t t' u : Tables} {n : ℕ}

/-- A statement that hits a row wrote it in one of the listed ways. -/
theorem wrote_of_run (h : s.run t = .hit t' n) : Wrote s t t' := by
  cases s with
  | updateAssetStamina p c =>
    simp only [run] at h
    split at h
    · cases h
    · rename_i a ha
      split at h
      · rename_i hc
        split at h
        · rename_i hfit
          cases h
          exact .updateAssetStamina ha hc hfit
        · cases h
      · cases h
  | insertBattle row =>
    simp only [run] at h
    split at h
    · rename_i hnone
      cases h
      exact .insertBattle hnone
    · cases h
  | updateBattle b =>
    simp only [run] at h
    split at h
    · cases h
    · rename_i row hrow
      split at h
      · rename_i h0
        cases h
        exact .updateBattle hrow h0
      · cases h
  | updateAssetReward p g m =>
    simp only [run] at h
    split at h
    · cases h
    · rename_i a ha
      split at h
      · rename_i hfit
        cases h
        exact .updateAssetReward ha hfit
      · cases h
  | upsertProgress p d star first =>
    simp only [run] at h
    split at h
    · rename_i hp
      split at h
      · rename_i hnone
        cases h
        exact .insertProgress hp hnone
      · rename_i row hrow
        cases h
        exact .updateProgress hrow
    · cases h
  | insertRewardLog row =>
    simp only [run] at h
    split at h
    · rename_i hnone
      cases h
      exact .insertRewardLog hnone
    · cases h

/-- The statement affects a row; the `UPDATE` of a battle exactly one. -/
theorem Wrote.run_eq (h : Wrote s t t') :
    ∃ n, s.run t = .hit t' n ∧ ∀ b, s = .updateBattle b → n = 1 := by
  cases h with
  | updateAssetStamina found enough fits =>
    exact ⟨_, by simp only [run, found, enough, fits, if_true]; rfl, fun b hb => by cases hb⟩
  | insertBattle free => exact ⟨1, by simp only [run, free], fun b hb => by cases hb⟩
  | updateBattle found unsettled =>
    exact ⟨1, by simp only [run, found, unsettled, if_true], fun _ _ => rfl⟩
  | updateAssetReward found fits =>
    exact ⟨_, by simp only [run, found, fits, if_true]; rfl, fun b hb => by cases hb⟩
  | insertProgress hp free =>
    exact ⟨1, by simp only [run, hp, free, dif_pos], fun b hb => by cases hb⟩
  | updateProgress found =>
    rename_i p d star first row
    have hp : (t.player.find p).isSome := by
      have hkey : row.playerId = p := congrArg Prod.fst (Table.key_of_find found)
      exact hkey ▸ t.fkDungeonPlayer row (Table.mem_of_find found)
    exact ⟨_, by simp only [run, hp, found, dif_pos]; rfl, fun b hb => by cases hb⟩
  | insertRewardLog free => exact ⟨1, by simp only [run, free], fun b hb => by cases hb⟩

/-- And so every listed way is what the statement does. -/
theorem Wrote.apply_eq (h : Wrote s t t') : s.apply t = t' := by
  obtain ⟨n, hrun, -⟩ := h.run_eq
  rw [apply, hrun]

/-- A statement either leaves the tables alone or writes a row. -/
theorem apply_cases (s : SqlWrite) (t : Tables) : s.apply t = t ∨ Wrote s t (s.apply t) := by
  rcases h : s.run t with _ | _ | ⟨t', n⟩
  · exact .inl (by rw [apply, h])
  · exact .inl (by rw [apply, h])
  · have ha : s.apply t = t' := by rw [apply, h]
    exact .inr (ha ▸ wrote_of_run h)

end SqlWrite

/-! ## One row per statement -/

/-- The name of a row that write statements lock. -/
inductive RowKey where
  | asset (playerId : ℤ)
  | battle (battleId : String)
  | progress (playerId dungeonId : ℤ)
  | reward (playerId : ℤ) (battleId rewardType : String)
  deriving DecidableEq, Repr

/-- The record type behind a row name. -/
abbrev RowKey.Row : RowKey → Type
  | asset _ => AssetRow
  | battle _ => BattleRow
  | progress _ _ => ProgressRow
  | reward _ _ _ => RewardRow

/-- The row behind a row name, if it exists. -/
def Tables.row (t : Tables) : (k : RowKey) → Option k.Row
  | .asset p => t.playerAsset.find p
  | .battle b => t.dungeonBattle.find b
  | .progress p d => t.playerDungeon.find (p, d)
  | .reward p b y => t.rewardLog.find (p, b, y)

namespace SqlWrite

/-- The row a statement concerns. -/
def key : SqlWrite → RowKey
  | updateAssetStamina p _ => .asset p
  | insertBattle row => .battle row.battleId
  | updateBattle b => .battle b
  | updateAssetReward p _ _ => .asset p
  | upsertProgress p d _ _ => .progress p d
  | insertRewardLog row => .reward row.playerId row.battleId row.rewardType

/-! ### What a write leaves alone -/

variable {s : SqlWrite} {t t' u : Tables}

theorem Wrote.player_eq (h : Wrote s t t') : t'.player = t.player := by
  cases h <;> rfl

theorem Wrote.account_eq (h : Wrote s t t') : t'.account = t.account := by
  cases h <;> rfl

/-- A write changes the one row its key names. -/
theorem Wrote.row_ne (h : Wrote s t t') {k : RowKey} (hk : k ≠ s.key) : t'.row k = t.row k := by
  cases h with
  | updateAssetStamina found enough fits =>
    cases k with
    | asset p =>
      simp only [Tables.row, Tables.spend, Tables.updateAsset]
      rw [Table.find_modify_ne _ fun hp => hk (congrArg RowKey.asset hp)]
    | _ => rfl
  | insertBattle free =>
    cases k with
    | battle b => exact Table.find_insert_ne _ fun hb => hk (congrArg RowKey.battle hb.symm)
    | _ => rfl
  | updateBattle found unsettled =>
    cases k with
    | battle b =>
      simp only [Tables.row, Tables.finishBattle, Tables.updateBattle]
      rw [Table.find_modify_ne _ fun hb => hk (congrArg RowKey.battle hb)]
    | _ => rfl
  | updateAssetReward found fits =>
    cases k with
    | asset p =>
      simp only [Tables.row, Tables.gain, Tables.updateAsset]
      rw [Table.find_modify_ne _ fun hp => hk (congrArg RowKey.asset hp)]
    | _ => rfl
  | insertProgress hp free =>
    cases k with
    | progress p d =>
      refine Table.find_insert_ne _ fun hpd => hk ?_
      obtain ⟨h₁, h₂⟩ := Prod.mk.inj hpd
      exact (congrArg₂ RowKey.progress h₁ h₂).symm
    | _ => rfl
  | updateProgress found =>
    cases k with
    | progress p d =>
      simp only [Tables.row, Tables.improveProgress, Tables.updateProgress]
      rw [Table.find_modify_ne _ fun hpd => hk ?_]
      obtain ⟨h₁, h₂⟩ := Prod.mk.inj hpd
      exact congrArg₂ RowKey.progress h₁ h₂
    | _ => rfl
  | insertRewardLog free =>
    cases k with
    | reward p b y =>
      refine Table.find_insert_ne _ fun hpby => hk ?_
      obtain ⟨h₁, h₂⟩ := Prod.mk.inj hpby
      obtain ⟨h₃, h₄⟩ := Prod.mk.inj h₂
      simp only [key, ← h₁, ← h₃, ← h₄]
    | _ => rfl

@[simp] theorem player_apply (s : SqlWrite) (t : Tables) : (s.apply t).player = t.player := by
  rcases apply_cases s t with h | h
  · rw [h]
  · exact h.player_eq

@[simp] theorem account_apply (s : SqlWrite) (t : Tables) : (s.apply t).account = t.account := by
  rcases apply_cases s t with h | h
  · rw [h]
  · exact h.account_eq

theorem row_apply_ne (t : Tables) {k : RowKey} (hk : k ≠ s.key) :
    (s.apply t).row k = t.row k := by
  rcases apply_cases s t with h | h
  · rw [h]
  · exact h.row_ne hk

/-- Whether a statement writes depends on its own row alone. -/
theorem Wrote.congr (h : Wrote s t t') (hrow : u.row s.key = t.row s.key)
    (hplayer : u.player = t.player) : ∃ u', Wrote s u u' := by
  cases h with
  | updateAssetStamina found enough fits =>
    exact ⟨_, .updateAssetStamina (hrow.trans found) enough fits⟩
  | insertBattle free => exact ⟨_, .insertBattle (hrow.trans free)⟩
  | updateBattle found unsettled => exact ⟨_, .updateBattle (hrow.trans found) unsettled⟩
  | updateAssetReward found fits => exact ⟨_, .updateAssetReward (hrow.trans found) fits⟩
  | insertProgress hp free =>
    exact ⟨_, .insertProgress (hplayer ▸ hp) (hrow.trans free)⟩
  | updateProgress found => exact ⟨_, .updateProgress (hrow.trans found)⟩
  | insertRewardLog free => exact ⟨_, .insertRewardLog (hrow.trans free)⟩

end SqlWrite

end GameBackend
