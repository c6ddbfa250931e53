import GameBackend.Locks

/-!
# The dungeon ledger

With the player lock in force the four tables of the dungeon subsystem tell one
story: stamina, gold and diamonds are what they were, less what the battles cost,
plus the rewards of the settled battles, and the reward log has one row for each
reward. Runs refine honest ledgers; `Balance` does the sums.
-/

namespace GameBackend

variable {ι : Type} [DecidableEq ι] {env : Env} {cfg : DungeonConfig}

/-- The ledger invariant between the tables at the start and the committed tables
now. -/
structure DungeonLedger (cfg : DungeonConfig) (t₀ t : Tables) : Prop where
  /-- stamina pays for the battles that were entered -/
  stamina : ∀ p a₀, t₀.playerAsset.find p = some a₀ → ∃ a, t.playerAsset.find p = some a ∧
    a.stamina = a₀.stamina - t.spentOn p
  /-- one gold reward a settled battle -/
  gold : ∀ p a₀, t₀.playerAsset.find p = some a₀ → ∃ a, t.playerAsset.find p = some a ∧
    a.gold = a₀.gold + cfg.normalGoldReward * t.settledBattles p
  /-- one first-clear reward a created progress row -/
  diamond : ∀ p a₀, t₀.playerAsset.find p = some a₀ → ∃ a, t.playerAsset.find p = some a ∧
    a.diamond = a₀.diamond + cfg.firstClearDiamondReward * t₀.createdProgress t p
  /-- exactly one gold row a settled battle, none for a pending one -/
  goldRows : ∀ b row, t.dungeonBattle.find b = some row →
    t.goldRows b = if row.status = 1 then 1 else 0
  /-- exactly one diamond row a created progress row -/
  diamondRows : ∀ p d, t.diamondRows p d =
    if t₀.playerDungeon.find (p, d) = none ∧ t.playerDungeon.find (p, d) ≠ none then 1 else 0
  /-- every reward row pays the player of a settled battle the configured amount -/
  rewards : t.RewardsTrue cfg

/-- Honest ledgers from tables without battles and rewards satisfy the
invariant. -/
theorem Ledger.dungeonLedger {t₀ t : Tables} {deeds : List Deed}
    (h : Ledger cfg Deed.Honest t₀ deeds t) (h₀ : t₀.dungeonBattle.rows = [])
    (hr₀ : t₀.rewardLog.rows = []) : DungeonLedger cfg t₀ t where
  stamina p a₀ ha₀ := by
    obtain ⟨a, ha, hstamina, -⟩ := h.balance h₀ ha₀
    exact ⟨a, ha, hstamina⟩
  gold p a₀ ha₀ := by
    obtain ⟨a, ha, -, hgold⟩ := h.balance h₀ ha₀
    exact ⟨a, ha, hgold⟩
  diamond p a₀ ha₀ := h.diamond ha₀
  goldRows b row hrow := h.goldRows h₀ hr₀ hrow
  diamondRows p d := h.diamondRows hr₀ p d
  rewards := h.rewardsTrue hr₀

variable {w₀ w : World ι}

/-- **Refinement under the lock.** As long as locks are kept and no statement
fails, the committed tables are those of an honest ledger. -/
theorem World.Run.honest_books (hw₀ : w₀.Fresh)
    (h : World.Run env (fun w l => (∀ c, ¬w.Fails l (.sql c)) ∧ KeepsLocks w l) w₀ w) :
    World.Books env.dungeonConfig Deed.Honest w₀ w := by
  have hinv : ∃ φ, Phased env w φ ∧ Core env w φ ∧ Exclusive w φ ∧
      (∀ i, (φ i).Honest w.store.mysql.tables) ∧
      World.Books env.dungeonConfig Deed.Honest w₀ w := by
    refine h.core (I := fun w φ => Exclusive w φ ∧ (∀ i, (φ i).Honest w.store.mysql.tables) ∧
      World.Books env.dungeonConfig Deed.Honest w₀ w) hw₀ (fun _ _ hok => hok.1 _)
      ⟨.init, fun _ => trivial, hw₀.books _ _⟩ ?_
    rintro w φ l w' φ' - hphased hcore ⟨hexclusive, hhonest, hbooks⟩ ⟨hsql, hkeep⟩ hmove - hstep
    refine ⟨hexclusive.step hphased hkeep hmove,
      honest_step hcore hexclusive (fun _ _ => hsql _) hhonest hmove hstep,
      hbooks.step hstep fun i deed hbefore => ?_⟩
    have hi := hhonest i
    rw [hbefore] at hi
    exact hi
  obtain ⟨φ, -, -, -, -, hbooks⟩ := hinv
  exact hbooks

/-- **The ledger invariant.** In every run that starts fresh with an empty reward
log, in which no lock disappears while its holder is running and no statement
fails except by a constraint, the committed tables add up. Any number of servers
may serve any requests, Redis commands may fail and processes may stop. -/
theorem dungeon_ledger (hw₀ : w₀.Fresh) (hr₀ : w₀.store.mysql.tables.rewardLog.rows = [])
    (h : World.Run env (fun w l => (∀ c, ¬w.Fails l (.sql c)) ∧ KeepsLocks w l) w₀ w) :
    DungeonLedger env.dungeonConfig w₀.store.mysql.tables w.store.mysql.tables := by
  obtain ⟨deeds, -, hledger⟩ := h.honest_books hw₀
  exact hledger.dungeonLedger hw₀.battles hr₀

/-- Two servers: while one enters, the other is turned away; then the battle is
settled, and a second one entered. -/
theorem dungeon_ledger_demo :
    ∃ w, World.Run demoEnv (fun w l => (∀ c, ¬w.Fails l (.sql c)) ∧ KeepsLocks w l) demoWorld w ∧
      w.store.mysql.tables.playerAsset.find 20001 = some ⟨20001, 100, 1100, 150⟩ ∧
      w.store.mysql.tables.dungeonBattle.rows.length = 2 ∧
      DungeonLedger demoEnv.dungeonConfig demoTables w.store.mysql.tables := by
  have hrun : (replay (World.step demoEnv) (fun _ l => l.quiet) demoWorld
      (.start false (.enterDungeon ⟨"s", 20001, 1001⟩) :: List.replicate 9 (.exec false none) ++
        Label.alone true (.enterDungeon ⟨"s", 20001, 1001⟩) 2 ++
        List.replicate 9 (.exec false none) ++ [.finish false] ++
        Label.alone true (.settleDungeon ⟨"s", 20001, "battle-20001-1001-1", 1001, 3, true⟩) 14 ++
        Label.alone false (.enterDungeon ⟨"s", 20001, 1001⟩) 18)).any
        (fun w => w.store.mysql.tables.playerAsset.find 20001 = some ⟨20001, 100, 1100, 150⟩ ∧
          w.store.mysql.tables.dungeonBattle.rows.length = 2) = true := by
    decide +kernel
  obtain ⟨w, hreach, hend⟩ : ∃ w, World.Run demoEnv (fun w l => (∀ c, ¬w.Fails l (.sql c)) ∧
      KeepsLocks w l) demoWorld w ∧
      decide (w.store.mysql.tables.playerAsset.find 20001 = some ⟨20001, 100, 1100, 150⟩ ∧
        w.store.mysql.tables.dungeonBattle.rows.length = 2) = true := by
    refine Reach.of_replay_any (fun w l hl => ⟨fun c => ?_, ?_⟩) hrun
    · exact Label.not_fails (Label.faultless_of_quiet hl) _
    · cases l <;> trivial
  obtain ⟨hasset, hbattles⟩ := of_decide_eq_true hend
  exact ⟨w, hreach, hasset, hbattles, dungeon_ledger demoWorld_fresh rfl hreach⟩

end GameBackend
