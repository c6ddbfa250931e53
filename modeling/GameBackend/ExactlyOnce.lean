import GameBackend.Core
import GameBackend.Balance

/-!
# Exactly-once settlement

What MySQL alone guarantees: the statements of a settlement are guarded by
`status = 0`, so no interleaving settles a battle twice, whatever happens to the
player lock. `ExactlyOnce` states it on the binary log and the committed tables,
without mentioning deeds.
-/

namespace GameBackend

variable {ι : Type} [DecidableEq ι] {env : Env} {cfg : DungeonConfig}

/-! ## Transactions in the binary log -/

/-- The writes `ws` of a transaction settle battle `b` of player `p` in dungeon
`d`. -/
def SettlesBattle (ws : List SqlWrite) (b : String) (p d : ℤ) : Prop :=
  .updateBattle b ∈ ws ∧ (∃ gold diamond, .updateAssetReward p gold diamond ∈ ws) ∧
    ∃ star firstClear, .upsertProgress p d star firstClear ∈ ws

/-- The writes `ws` of a transaction enter battle `b` of player `p` in dungeon
`d`. -/
def EntersBattle (ws : List SqlWrite) (b : String) (p d : ℤ) : Prop :=
  ∃ row, .insertBattle row ∈ ws ∧ row.battleId = b ∧ row.playerId = p ∧ row.dungeonId = d

/-- Exactly-once settlement, as the database shows it. The binary log is newest
first, so an earlier transaction has the greater position. -/
structure ExactlyOnce (cfg : DungeonConfig) (t₀ : Tables) (m : Mysql ι) : Prop where
  /-- a battle is settled by at most one committed transaction -/
  once : ∀ (i j : ℕ) ws vs b, m.binlog[i]? = some ws → m.binlog[j]? = some vs →
    SqlWrite.updateBattle b ∈ ws → SqlWrite.updateBattle b ∈ vs → i = j
  /-- settlements map one to one to earlier entries of the same battle -/
  matched : ∃ f : ℕ → ℕ,
    (∀ (i : ℕ) ws b, m.binlog[i]? = some ws → SqlWrite.updateBattle b ∈ ws →
      i < f i ∧ ∃ vs p d, m.binlog[f i]? = some vs ∧ SettlesBattle ws b p d ∧
        EntersBattle vs b p d) ∧
    ∀ (i j : ℕ) ws vs b b', m.binlog[i]? = some ws → SqlWrite.updateBattle b ∈ ws →
      m.binlog[j]? = some vs → SqlWrite.updateBattle b' ∈ vs → f i = f j → i = j
  /-- gold is credited once a settled battle -/
  gold : ∀ p a₀, t₀.playerAsset.find p = some a₀ → ∃ a, m.tables.playerAsset.find p = some a ∧
    a.gold = a₀.gold + cfg.normalGoldReward * m.tables.settledBattles p
  /-- stamina does not become negative -/
  stamina : (∀ p a, t₀.playerAsset.find p = some a → 0 ≤ a.stamina) →
    ∀ p a, m.tables.playerAsset.find p = some a → 0 ≤ a.stamina

/-! ## Plans of deeds -/

theorem updateBattle_mem_plan {deed : Deed} {b : String} :
    SqlWrite.updateBattle b ∈ deed.plan cfg ↔ deed.settled = some b := by
  cases deed with
  | enter row => simp [Deed.plan, Deed.settled]
  | settle s => simp [Deed.plan, Deed.settled, eq_comm]

theorem settlesBattle_plan (s : Settlement) :
    SettlesBattle ((Deed.settle s).plan cfg) s.battleId s.playerId s.dungeonId :=
  ⟨by simp [Deed.plan], ⟨_, _, List.mem_cons_of_mem _ List.mem_cons_self⟩,
    ⟨s.star, s.firstClear, by simp [Deed.plan]⟩⟩

theorem entersBattle_plan (row : BattleRow) :
    EntersBattle ((Deed.enter row).plan cfg) row.battleId row.playerId row.dungeonId :=
  ⟨row, by simp [Deed.plan], rfl, rfl, rfl⟩

/-- Positions of deeds with the same label coincide when no label occurs
twice. -/
theorem eq_of_label {α : Type} {label : Deed → Option α} {deeds : List Deed}
    (h : (deeds.filterMap label).Nodup) {i j : ℕ} {x y : Deed} {b : α}
    (hi : deeds[i]? = some x) (hj : deeds[j]? = some y) (hx : label x = some b)
    (hy : label y = some b) : i = j := by
  have hpair : deeds.Pairwise fun x y => ∀ b, label x = some b → ∀ b', label y = some b' → b ≠ b' :=
    List.pairwise_filterMap.mp h
  rw [List.pairwise_iff_getElem] at hpair
  obtain ⟨hi', rfl⟩ := List.getElem?_eq_some_iff.mp hi
  obtain ⟨hj', rfl⟩ := List.getElem?_eq_some_iff.mp hj
  rcases Nat.lt_trichotomy i j with hij | hij | hij
  · exact absurd rfl (hpair i j hi' hj' hij b hx b hy)
  · exact hij
  · exact absurd rfl (hpair j i hj' hi' hij b hy b hx)

variable {Q : Deed → Tables → Prop} {t₀ t : Tables} {deeds : List Deed}

/-- A settlement has an earlier entry of its battle, player and dungeon. -/
theorem Ledger.entered_before (h : Ledger cfg Q t₀ deeds t) (h₀ : t₀.dungeonBattle.rows = []) :
    ∀ {i : ℕ} {s : Settlement}, deeds[i]? = some (.settle s) →
      ∃ j row, i < j ∧ deeds[j]? = some (.enter row) ∧ row.battleId = s.battleId ∧ s.Of row := by
  induction h with
  | nil => intro i s hi; simp at hi
  | cons before condition transacts ih =>
    intro i s hi
    cases i with
    | zero =>
      obtain rfl := Option.some.inj hi
      obtain ⟨row, hrow, -, hof⟩ := Settled.battle transacts
      obtain ⟨row₀, hmem, hb, hlater⟩ := before.entered_of_find h₀ hrow
      have hof₀ : s.Of row₀ := by
        obtain rfl | rfl := hlater
        · exact hof
        · exact hof
      obtain ⟨j, hj⟩ := List.mem_iff_getElem?.mp hmem
      exact ⟨j + 1, row₀, Nat.succ_pos j, hj, hb, hof₀⟩
    | succ i =>
      obtain ⟨j, row, hij, hj, hb, hof⟩ := ih hi
      exact ⟨j + 1, row, Nat.succ_lt_succ hij, hj, hb, hof⟩

omit [DecidableEq ι] in
/-- A ledger settles exactly once. -/
theorem Ledger.exactlyOnce {m : Mysql ι} (h : Ledger cfg Q t₀ deeds m.tables)
    (h₀ : t₀.dungeonBattle.rows = []) (hlog : m.binlog = deeds.map (Deed.plan cfg)) :
    ExactlyOnce cfg t₀ m := by
  have hdeed : ∀ {i : ℕ} {ws : List SqlWrite}, m.binlog[i]? = some ws →
      ∃ deed, deeds[i]? = some deed ∧ ws = deed.plan cfg := by
    intro i ws hi
    rw [hlog, List.getElem?_map] at hi
    obtain ⟨deed, hdeed, rfl⟩ := Option.map_eq_some_iff.mp hi
    exact ⟨deed, hdeed, rfl⟩
  have hsettle : ∀ {i : ℕ} {ws : List SqlWrite} {b : String}, m.binlog[i]? = some ws →
      .updateBattle b ∈ ws → ∃ s, deeds[i]? = some (.settle s) ∧ s.battleId = b ∧
        ws = (Deed.settle s).plan cfg := by
    intro i ws b hi hb
    obtain ⟨deed, hdeed, rfl⟩ := hdeed hi
    have hsettled := updateBattle_mem_plan.mp hb
    cases deed with
    | enter row => cases hsettled
    | settle s => exact ⟨s, hdeed, Option.some.inj hsettled, rfl⟩
  -- the entry of the settlement at a position, chosen once for all
  have hentry : ∀ i : ℕ, ∃ j : ℕ, ∀ s, deeds[i]? = some (.settle s) →
      i < j ∧ ∃ row, deeds[j]? = some (.enter row) ∧ row.battleId = s.battleId ∧ s.Of row := by
    intro i
    by_cases hi : ∃ s, deeds[i]? = some (.settle s)
    · obtain ⟨s, hs⟩ := hi
      obtain ⟨j, row, hij, hj, hb, hof⟩ := h.entered_before h₀ hs
      refine ⟨j, fun s' hs' => ?_⟩
      obtain rfl := Deed.settle.inj (Option.some.inj (hs.symm.trans hs'))
      exact ⟨hij, row, hj, hb, hof⟩
    · exact ⟨0, fun s hs => absurd ⟨s, hs⟩ hi⟩
  obtain ⟨f, hf⟩ := Classical.axiomOfChoice hentry
  refine ⟨?_, ⟨f, ?_, ?_⟩, ?_, h.stamina_nonneg⟩
  · intro i j ws vs b hi hj hw hv
    obtain ⟨s, hs, hsb, -⟩ := hsettle hi hw
    obtain ⟨s', hs', hsb', -⟩ := hsettle hj hv
    exact eq_of_label h.settled_once hs hs' (congrArg some hsb) (congrArg some hsb')
  · intro i ws b hi hw
    obtain ⟨s, hs, rfl, rfl⟩ := hsettle hi hw
    obtain ⟨hij, row, hj, hb, hp, hd⟩ := hf i s hs
    refine ⟨hij, (Deed.enter row).plan cfg, s.playerId, s.dungeonId, ?_, settlesBattle_plan s, ?_⟩
    · rw [hlog, List.getElem?_map, hj, Option.map_some]
    · rw [← hp, ← hd, ← hb]
      exact entersBattle_plan row
  · intro i j ws vs b b' hi hw hj hv hfij
    obtain ⟨s, hs, rfl, -⟩ := hsettle hi hw
    obtain ⟨s', hs', rfl, -⟩ := hsettle hj hv
    obtain ⟨-, row, hrow, hb, -⟩ := hf i s hs
    obtain ⟨-, row', hrow', hb', -⟩ := hf j s' hs'
    rw [hfij, hrow'] at hrow
    obtain rfl := Deed.enter.inj (Option.some.inj hrow)
    exact eq_of_label h.settled_once hs hs' rfl (congrArg some (hb'.symm.trans hb))
  · intro p a₀ ha₀
    obtain ⟨a, ha, -, hgold⟩ := h.balance h₀ ha₀
    exact ⟨a, ha, hgold⟩

/-! ## Every run -/

/-- **Exactly-once settlement.** In every run that starts fresh, whatever happens
to the locks, whichever commands fail (except a `ROLLBACK`) and whenever processes
stop, each battle is settled at most once, after having been entered, its gold is
credited once, and no stamina becomes negative. -/
theorem settlement_exactly_once {w₀ w : World ι} (hw₀ : w₀.Fresh)
    (h : World.Run env (fun w l => ¬w.Fails l (.sql .rollback)) w₀ w) :
    ExactlyOnce env.dungeonConfig w₀.store.mysql.tables w.store.mysql := by
  obtain ⟨deeds, hlog, hledger⟩ := h.books hw₀ fun _ _ hok => hok
  exact hledger.exactlyOnce hw₀.battles hlog

/-- A run in which the demo player enters, settles and tries to settle again. -/
theorem settlement_exactly_once_demo :
    ∃ w, World.Run demoEnv (fun w l => ¬w.Fails l (.sql .rollback)) demoWorld w ∧
      w.store.mysql.binlog.length = 2 ∧ w.history.length = 43 ∧
      ExactlyOnce demoEnv.dungeonConfig demoTables w.store.mysql := by
  have hrun : (replay (World.step demoEnv) (fun _ l => l.faultless) demoWorld
      (Label.alone false (.enterDungeon ⟨"s", 20001, 1001⟩) 18 ++
        Label.alone true (.settleDungeon ⟨"s", 20001, "battle-20001-1001-1", 1001, 3, true⟩) 14 ++
        Label.alone false (.settleDungeon ⟨"s", 20001, "battle-20001-1001-1", 1001, 3, true⟩)
          5)).any
        (fun w => w.store.mysql.binlog.length = 2 ∧ w.history.length = 43) = true := by
    decide +kernel
  obtain ⟨w, hreach, hsize⟩ : ∃ w, World.Run demoEnv (fun w l => ¬w.Fails l (.sql .rollback))
      demoWorld w ∧ decide (w.store.mysql.binlog.length = 2 ∧ w.history.length = 43) = true :=
    Reach.of_replay_any (fun _ _ hl => Label.not_fails hl _) hrun
  obtain ⟨hbinlog, hhistory⟩ := of_decide_eq_true hsize
  exact ⟨w, hreach, hbinlog, hhistory, settlement_exactly_once demoWorld_fresh hreach⟩

end GameBackend
