import GameBackend.Ledger

/-!
# Balances

What a ledger adds up to: stamina, gold and diamonds of a player, the settled
battles, the created progress rows and the rows of the reward log. For each sum
there is one lemma a kind of deed that says how the deed moves it, and one about
whole ledgers.

Stamina and gold add up in every ledger. Diamonds and diamond rows need honest
deeds: a settlement takes itself for a first clear exactly if it is one.
-/

namespace GameBackend

variable {cfg : DungeonConfig} {t t' t₀ : Tables} {deed : Deed} {deeds : List Deed}

/-! ## Balances -/

/-- The stamina spent on the battles of player `p`. -/
def Tables.spentOn (t : Tables) (p : ℤ) : ℤ :=
  t.dungeonBattle.sum fun r => if r.playerId = p then r.costStamina else 0

/-- The number of settled battles of player `p`. -/
def Tables.settledBattles (t : Tables) (p : ℤ) : ℕ :=
  t.dungeonBattle.count fun r => r.playerId = p ∧ r.status = 1

namespace Transacts

theorem spentOn_enter {row : BattleRow} (h : Transacts cfg (.enter row) t t') (p : ℤ) :
    t'.spentOn p = t.spentOn p + if row.playerId = p then row.costStamina else 0 := by
  rw [Entered.eq h]
  exact Table.sum_insert (Entered.free h) _

theorem spentOn_settle {s : Settlement} (h : Transacts cfg (.settle s) t t') (p : ℤ) :
    t'.spentOn p = t.spentOn p := by
  obtain ⟨row, hrow, -, -⟩ := Settled.battle h
  rw [Tables.spentOn, Settled.battles h, Tables.finishBattle, Tables.updateBattle,
    Table.sum_modify hrow]
  exact (congrArg (t.spentOn p + ·) (Int.sub_self _)).trans (Int.add_zero _)

theorem settledBattles_enter {row : BattleRow} (h : Transacts cfg (.enter row) t t') (p : ℤ) :
    t'.settledBattles p = t.settledBattles p := by
  have hsum := Table.sum_insert (Entered.free h)
    fun r => if decide (r.playerId = p ∧ r.status = 1) = true then 1 else 0
  rw [Entered.pending h] at hsum
  have hcount : (t'.settledBattles p : ℤ) = t.settledBattles p := by
    rw [Tables.settledBattles, Tables.settledBattles, Table.count_eq_sum, Table.count_eq_sum,
      Entered.eq h]
    change (t.dungeonBattle.insert row).sum _ = _
    simpa using hsum
  exact Int.ofNat.inj hcount

theorem settledBattles_settle {s : Settlement} (h : Transacts cfg (.settle s) t t') (p : ℤ) :
    t'.settledBattles p = t.settledBattles p + if s.playerId = p then 1 else 0 := by
  obtain ⟨row, hrow, hpending, hof, -⟩ := Settled.battle h
  have hcount : (t'.settledBattles p : ℤ) =
      t.settledBattles p + if s.playerId = p then 1 else 0 := by
    rw [Tables.settledBattles, Tables.settledBattles, Table.count_eq_sum, Table.count_eq_sum,
      Settled.battles h, Tables.finishBattle, Tables.updateBattle, Table.sum_modify hrow, ← hof]
    simp [BattleRow.finish, hpending]
  have hite : ((if s.playerId = p then 1 else 0 : ℕ) : ℤ) = if s.playerId = p then 1 else 0 := by
    split <;> rfl
  omega

end Transacts

namespace Ledger

variable {Q : Deed → Tables → Prop}

/-- Stamina and gold of a player are what they were, less what the battles cost,
plus one reward a settled battle. -/
theorem balance (h : Ledger cfg Q t₀ deeds t) (h₀ : t₀.dungeonBattle.rows = []) {p : ℤ}
    {a₀ : AssetRow} (ha₀ : t₀.playerAsset.find p = some a₀) :
    ∃ a, t.playerAsset.find p = some a ∧ a.stamina = a₀.stamina - t.spentOn p ∧
      a.gold = a₀.gold + cfg.normalGoldReward * t.settledBattles p := by
  induction h with
  | nil => exact ⟨a₀, ha₀, by simp [Tables.spentOn, Table.sum, h₀],
      by simp [Tables.settledBattles, Table.count, h₀]⟩
  | cons before condition transacts ih =>
    rename_i deeds t t' deed
    obtain ⟨a, ha, hstamina, hgold⟩ := ih
    have ha' := transacts.find_asset p
    rw [ha, Option.map_some] at ha'
    refine ⟨_, ha', ?_⟩
    cases deed with
    | enter row =>
      rw [transacts.spentOn_enter, transacts.settledBattles_enter]
      by_cases hp : p = row.playerId
      · rw [if_pos hp.symm]
        simp only [Deed.player, Deed.pay, hp, if_true, AssetRow.spend]
        rw [← hp]
        exact ⟨by omega, hgold⟩
      · rw [if_neg fun h : row.playerId = p => hp h.symm]
        simp only [Deed.player, hp, if_false]
        exact ⟨by omega, hgold⟩
    | settle s =>
      rw [transacts.spentOn_settle, transacts.settledBattles_settle]
      by_cases hp : p = s.playerId
      · rw [if_pos hp.symm]
        simp only [Deed.player, Deed.pay, hp, if_true, AssetRow.gain]
        rw [← hp]
        refine ⟨hstamina, ?_⟩
        push_cast
        rw [hgold, mul_add, mul_one, add_assoc]
      · rw [if_neg fun h : s.playerId = p => hp h.symm]
        simp only [Deed.player, hp, if_false]
        exact ⟨hstamina, hgold⟩

/-- Stamina stays non-negative. -/
theorem stamina_nonneg (h : Ledger cfg Q t₀ deeds t)
    (h₀ : ∀ p a, t₀.playerAsset.find p = some a → 0 ≤ a.stamina) :
    ∀ p a, t.playerAsset.find p = some a → 0 ≤ a.stamina := by
  refine h.invariant (I := fun t => ∀ p a, t.playerAsset.find p = some a → 0 ≤ a.stamina) h₀ ?_
  intro deed t t' ih _ transacts p a' ha'
  rw [transacts.find_asset] at ha'
  obtain ⟨a, ha, rfl⟩ := Option.map_eq_some_iff.mp ha'
  have hnonneg := ih p a ha
  cases deed with
  | enter row =>
    split
    · rename_i hp
      obtain ⟨a₁, ha₁, henough⟩ := Entered.asset transacts
      rw [hp, Deed.player, ha₁] at ha
      obtain rfl := Option.some.inj ha
      simp only [Deed.pay, AssetRow.spend]
      omega
    · exact hnonneg
  | settle s =>
    split
    · exact hnonneg
    · exact hnonneg

end Ledger

/-! ## Honest ledgers -/

/-- A settlement pays the first-clear reward if and only if it is one. -/
def Deed.Honest (deed : Deed) (t : Tables) : Prop :=
  ∀ s, deed = .settle s →
    (s.firstClear = true ↔ t.playerDungeon.find (s.playerId, s.dungeonId) = none)

/-- The number of progress rows of player `p` that were not in `t₀`. -/
def Tables.createdProgress (t₀ t : Tables) (p : ℤ) : ℕ :=
  t.playerDungeon.count fun r => r.playerId = p ∧ t₀.playerDungeon.find r.key = none

/-- The number of gold rows of battle `b` in the reward log. -/
def Tables.goldRows (t : Tables) (b : String) : ℕ :=
  t.rewardLog.count fun r => r.battleId = b ∧ r.rewardType = "gold"

/-- The number of diamond rows of player `p` for battles in dungeon `d`. -/
def Tables.diamondRows (t : Tables) (p d : ℤ) : ℕ :=
  t.rewardLog.count fun r => r.playerId = p ∧ r.rewardType = "diamond" ∧
    (t.dungeonBattle.find r.battleId).map BattleRow.dungeonId = some d

/-- What the reward log says, row by row: it pays the player of a settled battle,
the normal gold reward or the first-clear diamonds. -/
def Tables.RewardsTrue (cfg : DungeonConfig) (t : Tables) : Prop :=
  ∀ r ∈ t.rewardLog.rows,
    (∃ row, t.dungeonBattle.find r.battleId = some row ∧ row.status = 1 ∧
      row.playerId = r.playerId) ∧
    ((r.rewardType = "gold" ∧ r.amount = cfg.normalGoldReward) ∨
      (r.rewardType = "diamond" ∧ r.amount = cfg.firstClearDiamondReward))

namespace Transacts

theorem rewards_enter {row : BattleRow} (h : Transacts cfg (.enter row) t t') :
    t'.rewardLog = t.rewardLog := by
  rw [Entered.eq h]
  rfl

theorem rewardsTrue (h : Transacts cfg deed t t') (hr : t.RewardsTrue cfg) :
    t'.RewardsTrue cfg := by
  -- a row that was true stays true
  have hold : ∀ r ∈ t.rewardLog.rows, ∃ row, t'.dungeonBattle.find r.battleId = some row ∧
      row.status = 1 ∧ row.playerId = r.playerId := by
    intro r hmem
    obtain ⟨⟨row, hrow, hstatus, hp⟩, -⟩ := hr r hmem
    obtain ⟨row', hrow', rfl | rfl⟩ := h.battle_kept hrow
    · exact ⟨_, hrow', hstatus, hp⟩
    · exact ⟨_, hrow', rfl, hp⟩
  intro r hmem
  cases deed with
  | enter row =>
    rw [h.rewards_enter] at hmem
    exact ⟨hold r hmem, (hr r hmem).2⟩
  | settle s =>
    rw [Settled.rewards h] at hmem
    rcases List.mem_append.mp hmem with hmem | hmem
    · exact ⟨hold r hmem, (hr r hmem).2⟩
    · have hl : Ledger cfg (fun _ _ => True) t [.settle s] t' := .cons .nil trivial h
      obtain ⟨row, hrow, hstatus, hp, -⟩ := hl.settled List.mem_cons_self
      simp only [Settlement.rewardRows, List.mem_cons] at hmem
      rcases hmem with rfl | hmem
      · exact ⟨⟨row, hrow, hstatus, hp⟩, .inl ⟨rfl, rfl⟩⟩
      · split at hmem
        · obtain rfl := List.mem_singleton.mp hmem
          exact ⟨⟨row, hrow, hstatus, hp⟩, .inr ⟨rfl, rfl⟩⟩
        · cases hmem

theorem goldRows_settle {s : Settlement} (h : Transacts cfg (.settle s) t t') (b : String) :
    t'.goldRows b = t.goldRows b + if s.battleId = b then 1 else 0 := by
  rw [Tables.goldRows, Table.count, Settled.rewards h, List.countP_append, Settlement.rewardRows]
  refine congrArg (t.goldRows b + ·) ?_
  split
  · by_cases hb : s.battleId = b <;> simp [hb]
  · by_cases hb : s.battleId = b <;> simp [hb]

theorem diamondRows_enter {row : BattleRow} (h : Transacts cfg (.enter row) t t')
    (hr : t.RewardsTrue cfg) (p d : ℤ) : t'.diamondRows p d = t.diamondRows p d := by
  rw [Tables.diamondRows, Tables.diamondRows, h.rewards_enter, Table.count, Table.count]
  refine List.countP_congr fun r hmem => ?_
  obtain ⟨⟨row₀, hrow₀, -⟩, -⟩ := hr r hmem
  obtain ⟨row', hrow', rfl | rfl⟩ := h.battle_kept hrow₀
  · simp [hrow₀, hrow']
  · simp [hrow₀, hrow', BattleRow.finish]

theorem diamondRows_settle {s : Settlement} (h : Transacts cfg (.settle s) t t')
    (hr : t.RewardsTrue cfg) (p d : ℤ) :
    t'.diamondRows p d = t.diamondRows p d +
      if s.firstClear = true ∧ s.playerId = p ∧ s.dungeonId = d then 1 else 0 := by
  have hl : Ledger cfg (fun _ _ => True) t [.settle s] t' := .cons .nil trivial h
  obtain ⟨row, hrow, -, -, hd⟩ := hl.settled List.mem_cons_self
  have hkept : t.rewardLog.rows.countP (fun r => decide (r.playerId = p ∧
      r.rewardType = "diamond" ∧
      (t'.dungeonBattle.find r.battleId).map BattleRow.dungeonId = some d)) =
      t.diamondRows p d := by
    refine List.countP_congr fun r hmem => ?_
    obtain ⟨⟨row₀, hrow₀, -⟩, -⟩ := hr r hmem
    obtain ⟨row', hrow', rfl | rfl⟩ := h.battle_kept hrow₀
    · simp [hrow₀, hrow']
    · simp [hrow₀, hrow', BattleRow.finish]
  rw [Tables.diamondRows, Table.count, Settled.rewards h, List.countP_append, hkept,
    Settlement.rewardRows]
  refine congrArg (t.diamondRows p d + ·) ?_
  cases hf : s.firstClear with
  | false => simp
  | true =>
    by_cases hp : s.playerId = p <;> by_cases hd' : s.dungeonId = d <;>
      simp [hp, hd', hrow, hd]

theorem createdProgress_enter {row : BattleRow} (h : Transacts cfg (.enter row) t t') (p : ℤ) :
    t₀.createdProgress t' p = t₀.createdProgress t p := by
  rw [Entered.eq h]
  rfl

/-- An honest settlement creates a progress row exactly if it is a first
clear. -/
theorem createdProgress_settle {s : Settlement} (h : Transacts cfg (.settle s) t t')
    (hhonest : (Deed.settle s).Honest t)
    (hkept : ∀ k, t₀.playerDungeon.find k ≠ none → t.playerDungeon.find k ≠ none) (p : ℤ) :
    t₀.createdProgress t' p = t₀.createdProgress t p +
      if s.firstClear = true ∧ s.playerId = p then 1 else 0 := by
  have hiff := hhonest s rfl
  have hcount : (t₀.createdProgress t' p : ℤ) = t₀.createdProgress t p +
      if s.firstClear = true ∧ s.playerId = p then 1 else 0 := by
    rw [Tables.createdProgress, Tables.createdProgress, Table.count_eq_sum, Table.count_eq_sum]
    rcases hp : t'.playerDungeon, Settled.progress h with ⟨_, free | found⟩
    · have h₀ : t₀.playerDungeon.find (s.playerId, s.dungeonId) = none := by
        by_contra hne
        exact hkept _ hne free
      rw [Table.sum_insert free]
      simp [hiff.mpr free, h₀]
    · have hfirst : s.firstClear = false := by
        rw [Bool.eq_false_iff]
        intro hf
        rw [hiff.mp hf] at found
        cases found
      rw [Table.sum_modify found]
      simp [hfirst, ProgressRow.improve]
  have hite : ((if s.firstClear = true ∧ s.playerId = p then 1 else 0 : ℕ) : ℤ) =
      if s.firstClear = true ∧ s.playerId = p then 1 else 0 := by
    split <;> rfl
  omega

end Transacts

namespace Ledger

variable {Q : Deed → Tables → Prop}

/-- Progress rows of the start stay. -/
theorem progress_kept (h : Ledger cfg Q t₀ deeds t) {k : ℤ × ℤ}
    (hk : t₀.playerDungeon.find k ≠ none) : t.playerDungeon.find k ≠ none :=
  h.invariant (I := fun t => t.playerDungeon.find k ≠ none) hk
    fun _ _ _ ih _ transacts => transacts.progress_kept ih

theorem rewardsTrue (h : Ledger cfg Q t₀ deeds t) (h₀ : t₀.rewardLog.rows = []) :
    t.RewardsTrue cfg := by
  refine h.invariant (I := Tables.RewardsTrue cfg) ?_ fun _ _ _ ih _ transacts =>
    transacts.rewardsTrue ih
  intro r hr
  rw [h₀] at hr
  cases hr

/-- Every settled battle has exactly one gold row, a pending one none. -/
theorem goldRows (h : Ledger cfg Q t₀ deeds t) (h₀ : t₀.dungeonBattle.rows = [])
    (hr₀ : t₀.rewardLog.rows = []) :
    ∀ {b : String} {row : BattleRow}, t.dungeonBattle.find b = some row →
      t.goldRows b = if row.status = 1 then 1 else 0 := by
  induction h with
  | nil =>
    intro b row hrow
    have hmem := Table.mem_of_find hrow
    rw [h₀] at hmem
    cases hmem
  | cons before condition transacts ih =>
    intro b row hrow
    have htrue := before.rewardsTrue hr₀
    rename_i deeds t t' deed
    cases deed with
    | enter new =>
      have hsame : t'.goldRows b = t.goldRows b := by
        rw [Tables.goldRows, Tables.goldRows, transacts.rewards_enter]
      rw [hsame]
      rcases transacts.battle_from hrow with ⟨row₀, hrow₀, -⟩ | ⟨hnew, hb⟩
      · have hkeep := Entered.eq transacts
        have hne : new.battleId ≠ b := by
          rintro rfl
          rw [Entered.free transacts] at hrow₀
          cases hrow₀
        rw [hkeep] at hrow
        have hrow' : t.dungeonBattle.find b = some row :=
          (Table.find_insert_ne _ hne).symm.trans hrow
        exact ih hrow'
      · -- a new battle has no reward rows yet
        obtain rfl := Deed.enter.inj hnew
        rw [if_neg (by rw [Entered.pending transacts]; decide), Tables.goldRows, Table.count,
          List.countP_eq_zero]
        intro r hmem hr
        obtain ⟨⟨row₀, hrow₀, -⟩, -⟩ := htrue r hmem
        rw [(of_decide_eq_true hr).1, ← hb, Entered.free transacts] at hrow₀
        cases hrow₀
    | settle s =>
      obtain ⟨row₀, hrow₀, hpending, -⟩ := Settled.battle transacts
      rw [transacts.goldRows_settle]
      rw [Settled.battles transacts, Tables.find_finishBattle] at hrow
      by_cases hb : s.battleId = b
      · rw [if_pos hb]
        subst hb
        rw [hrow₀, Option.map_some, if_pos rfl] at hrow
        rw [ih hrow₀, hpending, ← Option.some.inj hrow]
        rfl
      · rw [if_neg hb, Nat.add_zero]
        obtain ⟨row₁, hrow₁, hrow⟩ := Option.map_eq_some_iff.mp hrow
        rw [if_neg (Ne.symm hb)] at hrow
        exact hrow ▸ ih hrow₁

/-- Diamonds of a player are what they were, plus one first-clear reward a created
progress row. -/
theorem diamond (h : Ledger cfg Deed.Honest t₀ deeds t) {p : ℤ} {a₀ : AssetRow}
    (ha₀ : t₀.playerAsset.find p = some a₀) :
    ∃ a, t.playerAsset.find p = some a ∧
      a.diamond = a₀.diamond + cfg.firstClearDiamondReward * t₀.createdProgress t p := by
  have hzero : t₀.createdProgress t₀ p = 0 := by
    rw [Tables.createdProgress, Table.count, List.countP_eq_zero]
    intro r hmem hr
    have hfind := (of_decide_eq_true hr).2
    rw [Table.find_of_mem hmem] at hfind
    cases hfind
  induction h with
  | nil => exact ⟨a₀, ha₀, by simp [hzero]⟩
  | cons before condition transacts ih =>
    rename_i deeds t t' deed
    obtain ⟨a, ha, hdiamond⟩ := ih
    have ha' := transacts.find_asset p
    rw [ha, Option.map_some] at ha'
    refine ⟨_, ha', ?_⟩
    cases deed with
    | enter row =>
      rw [transacts.createdProgress_enter, ← hdiamond]
      split <;> rfl
    | settle s =>
      rw [transacts.createdProgress_settle condition fun _ hk => before.progress_kept hk]
      by_cases hp : p = s.playerId
      · simp only [Deed.player, Deed.pay, hp, if_true, AssetRow.gain, Settlement.diamond]
        rw [← hp, hdiamond]
        cases s.firstClear with
        | false => simp
        | true =>
          simp only [if_true, Option.getD_some, and_self]
          push_cast
          rw [mul_add, mul_one, add_assoc]
      · rw [if_neg fun h : s.firstClear = true ∧ s.playerId = p => hp h.2.symm]
        simp only [Deed.player, hp, if_false]
        exact hdiamond

/-- Every progress row that was created has exactly one diamond row, every other
player and dungeon none. -/
theorem diamondRows (h : Ledger cfg Deed.Honest t₀ deeds t) (hr₀ : t₀.rewardLog.rows = [])
    (p d : ℤ) :
    t.diamondRows p d =
      if t₀.playerDungeon.find (p, d) = none ∧ t.playerDungeon.find (p, d) ≠ none then 1
      else 0 := by
  induction h with
  | nil =>
    rw [if_neg fun h => h.2 h.1, Tables.diamondRows, Table.count, hr₀, List.countP_nil]
  | cons before condition transacts ih =>
    have htrue := before.rewardsTrue hr₀
    rename_i deeds t t' deed
    cases deed with
    | enter row =>
      rw [transacts.diamondRows_enter htrue, ih, transacts.progress_ne fun s hs => by cases hs]
    | settle s =>
      rw [transacts.diamondRows_settle htrue, ih]
      by_cases hk : (p, d) = (s.playerId, s.dungeonId)
      · obtain ⟨rfl, rfl⟩ := Prod.mk.inj hk
        have hsettled := transacts.progress_settled
        have hiff := condition s rfl
        by_cases hfree : t.playerDungeon.find (s.playerId, s.dungeonId) = none
        · have h₀ : t₀.playerDungeon.find (s.playerId, s.dungeonId) = none := by
            by_contra hne
            exact before.progress_kept hne hfree
          simp [hfree, h₀, hsettled, hiff.mpr hfree]
        · have hfirst : s.firstClear = false := by
            rw [Bool.eq_false_iff]
            exact fun hf => hfree (hiff.mp hf)
          simp [hfree, hsettled, hfirst]
      · rw [transacts.progress_ne fun s' hs => Deed.settle.inj hs ▸ hk]
        have hno : ¬(s.firstClear = true ∧ s.playerId = p ∧ s.dungeonId = d) := by
          rintro ⟨-, rfl, rfl⟩
          exact hk rfl
        rw [if_neg hno, Nat.add_zero]

end Ledger

end GameBackend
