import GameBackend.Game
import GameBackend.Snapshots
import GameBackend.UsableSessions

/-!
# The game in the stores

`Store.game` is the game that MySQL and Redis hold. A deed is an act of this game: entering
a dungeon is `Game.enter`, and a settlement that is right about the first clear is
`Game.settle`. Whatever requests interleave, fail or stop, the game only goes on
(`never_goes_back`).
-/

namespace GameBackend

variable {ι : Type} [DecidableEq ι] {env : Env} {cfg : DungeonConfig} {t t' : Tables} {p : ℤ}

/-! ## What the tables show -/

/-- The profile of a player row and its asset row. -/
def PlayerRow.profile (r : PlayerRow) (a : Option AssetRow) : PlayerProfile where
  playerId := r.playerId
  accountId := r.accountId
  playerName := r.name
  level := r.level
  stamina := (a.map AssetRow.stamina).getD 0
  gold := (a.map AssetRow.gold).getD 0
  diamond := (a.map AssetRow.diamond).getD 0

/-- What a progress row says. -/
def ProgressRow.mark (r : ProgressRow) : ℤ × Bool := (r.bestStar, r.isFirstClear = 1)

def Tables.hero (t : Tables) (p : ℤ) : Option Hero :=
  (t.player.find p).map fun r =>
    ⟨r.profile (t.playerAsset.find p), fun d => (t.playerDungeon.find (p, d)).map ProgressRow.mark⟩

def BattleRow.battle (r : BattleRow) : Battle := ⟨r.playerId, r.dungeonId, r.status ≠ 0⟩

def Tables.battles (t : Tables) (b : String) : Option Battle :=
  (t.dungeonBattle.find b).map BattleRow.battle

/-- When the entry of a key expires. -/
def Redis.endOf (d : Redis) (k : RedisKey) : Option ℕ := (d.live k).bind RedisEntry.expiresAt

/-- What was read from the entry of a key lasts as long as the entry. -/
def Redis.lasting {α : Type} (d : Redis) (k : RedisKey) (read : Option α) : Option (Lasting α) :=
  read.map fun a => ⟨a, d.endOf k⟩

/-- The game that a store holds. -/
def Store.game (s : Store ι) : Game ι where
  account name := ((Query.account name).rows s.mysql.tables).head?
  hero := s.mysql.tables.hero
  battle := s.mysql.tables.battles
  session sessionId := s.redis.lasting (.session sessionId) (s.redis.session sessionId)
  latest accountId :=
    s.redis.lasting (.accountSession accountId) (s.redis.oldSession none accountId)
  now := s.redis.now
  number := s.sequence

theorem Tables.rows_profile (t : Tables) (p : ℤ) : (Query.profile p).rows t =
    ((t.player.find p).map fun r => r.profile (t.playerAsset.find p)).toList := rfl

theorem Tables.playerState_eq_none : t.playerState p = none ↔ t.hero p = none := by
  rw [Tables.playerState, Tables.rows_profile, Option.head?_toList, Option.map_map,
    Option.map_eq_none_iff, Tables.hero, Option.map_eq_none_iff]

/-- A player has one progress row for a dungeon. -/
theorem Tables.dungeons_nodup (t : Tables) (p : ℤ) :
    ((t.playerDungeon.rows.filter fun r => r.playerId = p).map ProgressRow.dungeonId).Nodup := by
  have hkeys := t.playerDungeon.unique.sublist
    ((List.filter_sublist (p := fun r => r.playerId = p)).map ProgressRow.key)
  refine List.Nodup.of_map (fun d => (p, d)) ?_
  rw [List.map_map]
  refine (List.map_congr_left fun r hr => ?_) ▸ hkeys
  have hplayer : r.playerId = p := of_decide_eq_true (List.mem_filter.mp hr).2
  exact congrArg (·, r.dungeonId) hplayer

/-- What `LoadPlayerState` builds shows the hero. -/
theorem Tables.shown {state : PlayerState} (h : t.playerState p = some state) :
    ∃ hero, t.hero p = some hero ∧ hero.Shown state := by
  rw [Tables.playerState, Tables.rows_profile, Option.head?_toList, Option.map_map,
    Option.map_eq_some_iff] at h
  obtain ⟨r, hr, rfl⟩ := h
  refine ⟨_, by rw [Tables.hero, hr]; rfl, rfl, ?_, fun entry => ?_⟩
  · have hsorted := List.pairwise_insertionSort (fun left right : PlayerDungeonProgress =>
      left.dungeonId ≤ right.dungeonId) (((Query.progress p).rows t).map
        MySqlPlayerRepository.progressOf)
    have hdistinct : ((MySqlPlayerRepository.sortProgress (((Query.progress p).rows t).map
        MySqlPlayerRepository.progressOf)).map PlayerDungeonProgress.dungeonId).Nodup := by
      refine ((List.perm_insertionSort _ _).map _).nodup_iff.mpr ?_
      rw [List.map_map]
      exact t.dungeons_nodup p
    rw [List.Nodup, List.pairwise_map] at hdistinct
    exact hsorted.imp₂ (fun _ _ hle hne => lt_of_le_of_ne hle hne) hdistinct
  · refine (List.mem_insertionSort _).trans (Iff.trans ?_ Option.map_eq_some_iff.symm)
    constructor
    · intro hentry
      obtain ⟨row, hrow, rfl⟩ := List.mem_map.mp hentry
      obtain ⟨hmem, hplayer⟩ := List.mem_filter.mp hrow
      have hkey : row.key = (p, row.dungeonId) :=
        congrArg (·, row.dungeonId) (of_decide_eq_true hplayer)
      exact ⟨row, hkey ▸ Table.find_of_mem hmem, rfl⟩
    · rintro ⟨row, hrow, hmark⟩
      obtain ⟨hmem, hkey⟩ := Table.find_eq_some_iff.mp hrow
      obtain ⟨hplayer, hdungeon⟩ := Prod.mk.inj hkey
      obtain ⟨hstar, hfirst⟩ := Prod.mk.inj hmark
      refine List.mem_map.mpr ⟨row, List.mem_filter.mpr ⟨hmem, decide_eq_true hplayer⟩, ?_⟩
      cases entry
      simp only [MySqlPlayerRepository.progressOf, PlayerDungeonProgress.mk.injEq]
      exact ⟨hdungeon, hstar, hfirst⟩

/-! ## Deeds are acts -/

/-- A deed of another player does not concern a hero. -/
theorem Transacts.hero_ne {deed : Deed} (h : Transacts cfg deed t t') (hp : p ≠ deed.player) :
    t'.hero p = t.hero p := by
  have hasset : t'.playerAsset.find p = t.playerAsset.find p := by
    rw [h.find_asset]
    simp [hp]
  have hprogress : ∀ d, t'.playerDungeon.find (p, d) = t.playerDungeon.find (p, d) := by
    intro d
    refine h.progress_ne fun s hs hk => hp ?_
    rw [hs]
    exact (Prod.mk.inj hk).1
  rw [Tables.hero, Tables.hero, h.player, hasset]
  simp only [hprogress]

/-- A function that differs from another one at most at `p`. -/
theorem eq_update_of_ne {α β : Type} [DecidableEq α] {f f' : α → β} {a : α} {b : β}
    (hself : f' a = b) (hne : ∀ x, x ≠ a → f' x = f x) : f' = Function.update f a b := by
  funext x
  by_cases hx : x = a
  · rw [hx, Function.update_self, hself]
  · rw [Function.update_of_ne hx, hne x hx]

/-- What a deed does to the assets of its own player. -/
theorem Transacts.find_asset_self {deed : Deed} (h : Transacts cfg deed t t') :
    t'.playerAsset.find deed.player = (t.playerAsset.find deed.player).map (deed.pay cfg) := by
  rw [h.find_asset]
  simp only [if_true]

section Entered

variable {row : BattleRow}

/-- Entering a dungeon costs its player stamina. -/
theorem Entered.hero (h : Entered row t t') (hcost : row.costStamina = cfg.costStamina) :
    t'.hero = Function.update t.hero row.playerId
      ((t.hero row.playerId).map (Hero.spend cfg)) := by
  have htransacts : Transacts cfg (.enter row) t t' := h
  refine eq_update_of_ne ?_ fun p hp => htransacts.hero_ne hp
  obtain ⟨a, ha, -⟩ := h.asset
  have hasset : t'.playerAsset.find row.playerId = some (a.spend row.costStamina) :=
    htransacts.find_asset_self.trans (congrArg _ ha)
  have hprogress : t'.playerDungeon = t.playerDungeon := by rw [h.eq]; rfl
  rw [Tables.hero, Tables.hero, htransacts.player, hasset, ha, hprogress, Option.map_map]
  refine Option.map_congr fun r _ => ?_
  rw [hcost]
  rfl

theorem Entered.battles (h : Entered row t t') :
    t'.battles = Function.update t.battles row.battleId
      (some ⟨row.playerId, row.dungeonId, false⟩) := by
  have hfind : ∀ b, t'.dungeonBattle.find b =
      if row.battleId = b then some row else t.dungeonBattle.find b := by
    intro b
    rw [h.eq]
    exact Table.find_insert h.free b
  refine eq_update_of_ne ?_ fun b hb => ?_
  · rw [Tables.battles, hfind, if_pos rfl, Option.map_some, BattleRow.battle, h.pending]
    rfl
  · rw [Tables.battles, Tables.battles, hfind, if_neg hb.symm]

end Entered

section Settled

variable {s : Settlement}

/-- What an honest settlement does to the progress of its player. -/
theorem Settled.find_progress (h : Settled cfg s t t')
    (hfirst : s.firstClear = (t.playerDungeon.find (s.playerId, s.dungeonId)).isNone) (d : ℤ) :
    (t'.playerDungeon.find (s.playerId, d)).map ProgressRow.mark =
      Function.update (fun d => (t.playerDungeon.find (s.playerId, d)).map ProgressRow.mark)
        s.dungeonId (some (Hero.improve s.star
          ((t.playerDungeon.find (s.playerId, s.dungeonId)).map ProgressRow.mark))) d := by
  by_cases hd : d = s.dungeonId
  · subst hd
    rw [Function.update_self]
    rcases hp : t'.playerDungeon, h.progress with ⟨_, free | found⟩
    · rw [free] at hfirst
      rw [Table.find_insert free, if_pos rfl, free, hfirst]
      rfl
    · rename_i row
      rw [found] at hfirst
      rw [Table.find_modify, found, hfirst]
      simp only [Option.map_some, if_true, ProgressRow.mark, ProgressRow.improve, Hero.improve,
        Option.isNone_some, Bool.false_eq_true, if_false]
      have hmark : max row.isFirstClear 0 = 1 ↔ row.isFirstClear = 1 := by omega
      simp only [hmark]
  · rw [Function.update_of_ne hd]
    have htransacts : Transacts cfg (.settle s) t t' := h
    rw [htransacts.progress_ne fun s' hs' hk => ?_]
    obtain rfl := Deed.settle.inj hs'
    exact hd (Prod.mk.inj hk).2

/-- Settling a battle rewards its player, who has cleared the dungeon now. -/
theorem Settled.hero (h : Settled cfg s t t') (hdungeon : s.dungeonId = cfg.dungeonId)
    (hfirst : s.firstClear = (t.playerDungeon.find (s.playerId, s.dungeonId)).isNone) :
    t'.hero = Function.update t.hero s.playerId
      ((t.hero s.playerId).map (Hero.clear cfg s.star)) := by
  have htransacts : Transacts cfg (.settle s) t t' := h
  refine eq_update_of_ne ?_ fun p hp => htransacts.hero_ne hp
  obtain ⟨a, ha⟩ := h.asset
  have hasset : t'.playerAsset.find s.playerId =
      some (a.gain cfg.normalGoldReward (s.diamond cfg)) :=
    htransacts.find_asset_self.trans (congrArg _ ha)
  rw [Tables.hero, Tables.hero, htransacts.player, hasset, ha, Option.map_map]
  refine Option.map_congr fun r _ => ?_
  have hprogress := funext (h.find_progress hfirst)
  rw [hprogress]
  have hnovice : (Option.map ProgressRow.mark
      (t.playerDungeon.find (s.playerId, cfg.dungeonId))).isNone = s.firstClear := by
    rw [Option.isNone_map, hfirst, hdungeon]
  have hdiamond : (s.diamond cfg).getD 0 =
      if s.firstClear then cfg.firstClearDiamondReward else 0 := by
    rw [Settlement.diamond]
    split
    · rfl
    · rfl
  simp only [Function.comp, Hero.clear, Hero.bonus, Hero.Novice, hnovice, ← hdiamond, hdungeon]
  rfl

theorem Settled.battles' (h : Settled cfg s t t') :
    t'.battles = Function.update t.battles s.battleId
      ((t.battles s.battleId).map fun battle => { battle with settled := true }) := by
  have hfind : ∀ b, t'.dungeonBattle.find b =
      (t.dungeonBattle.find b).map fun r => if b = s.battleId then r.finish else r := by
    intro b
    rw [h.battles]
    exact t.find_finishBattle _ b
  refine eq_update_of_ne ?_ fun b hb => ?_
  · rw [Tables.battles, Tables.battles, hfind, Option.map_map, Option.map_map]
    refine Option.map_congr fun r _ => ?_
    simp [BattleRow.battle, BattleRow.finish]
  · rw [Tables.battles, Tables.battles, hfind]
    simp [hb]

end Settled

/-! ## The game goes on -/

section Later

variable {deed : Deed}

/-- A deed leaves the accounts alone. -/
theorem Transacts.account (h : Transacts cfg deed t t') : t'.account = t.account := by
  cases deed with
  | enter row => rw [Entered.eq h]; rfl
  | settle s => exact Settled.account h

/-- No asset row gets poorer, but for the stamina that is spent. -/
theorem Transacts.later_asset (hgold : 0 ≤ cfg.normalGoldReward)
    (hdiamond : 0 ≤ cfg.firstClearDiamondReward) (h : Transacts cfg deed t t') {a : AssetRow}
    (ha : t.playerAsset.find deed.player = some a) :
    a.gold ≤ (deed.pay cfg a).gold ∧ a.diamond ≤ (deed.pay cfg a).diamond ∧
      (0 ≤ a.stamina → 0 ≤ (deed.pay cfg a).stamina) := by
  cases deed with
  | enter row =>
    obtain ⟨a', ha', henough⟩ := Entered.asset h
    obtain rfl := Option.some.inj (ha.symm.trans ha')
    refine ⟨le_rfl, le_rfl, fun _ => ?_⟩
    simp only [Deed.pay, AssetRow.spend]
    omega
  | settle s =>
    have hgain : 0 ≤ (s.diamond cfg).getD 0 := by
      rw [Settlement.diamond]
      split
      · exact hdiamond
      · exact le_rfl
    simp only [Deed.pay, AssetRow.gain]
    refine ⟨by omega, by omega, id⟩

/-- Progress is only added to. -/
theorem Transacts.later_progress (h : Transacts cfg deed t t') {k : ℤ × ℤ} {row : ProgressRow}
    (hrow : t.playerDungeon.find k = some row) : ∃ row', t'.playerDungeon.find k = some row' ∧
      row.bestStar ≤ row'.bestStar ∧ (row.isFirstClear = 1 → row'.isFirstClear = 1) := by
  cases deed with
  | enter new =>
    have hprogress : t'.playerDungeon = t.playerDungeon := by rw [Entered.eq h]; rfl
    exact ⟨row, hprogress ▸ hrow, le_rfl, id⟩
  | settle s =>
    rcases hp : t'.playerDungeon, Settled.progress h with ⟨_, free | found⟩
    · refine ⟨row, (Table.find_insert_ne _ fun hk => ?_).trans hrow, le_rfl, id⟩
      obtain rfl : (s.playerId, s.dungeonId) = k := hk
      rw [hrow] at free
      cases free
    · rw [Table.find_modify, hrow]
      refine ⟨_, rfl, ?_⟩
      split
      · refine ⟨le_max_left _ _, fun hfirst => ?_⟩
        simp only [ProgressRow.improve, hfirst]
        split
        · rfl
        · rfl
      · exact ⟨le_rfl, id⟩

/-- A hero has more after a deed than before. -/
theorem Transacts.later_hero (hgold : 0 ≤ cfg.normalGoldReward)
    (hdiamond : 0 ≤ cfg.firstClearDiamondReward) (h : Transacts cfg deed t t') {hero : Hero}
    (hp : t.hero p = some hero) : ∃ hero', t'.hero p = some hero' ∧ hero.Later hero' := by
  obtain ⟨r, hr, rfl⟩ := Option.map_eq_some_iff.mp hp
  by_cases hself : p = deed.player
  · subst hself
    refine ⟨_, by rw [Tables.hero, h.player, hr, h.find_asset_self]; rfl, ?_⟩
    have hassets : ∀ a, t.playerAsset.find deed.player = some a →
        a.gold ≤ (deed.pay cfg a).gold ∧ a.diamond ≤ (deed.pay cfg a).diamond ∧
          (0 ≤ a.stamina → 0 ≤ (deed.pay cfg a).stamina) :=
      fun a => h.later_asset hgold hdiamond
    refine { playerId := rfl, accountId := rfl, level := rfl, gold := ?_, diamond := ?_,
             stamina := ?_, progress := fun d best first hd => ?_ }
    · cases ha : t.playerAsset.find deed.player with
      | none => exact le_rfl
      | some a => exact (hassets a ha).1
    · cases ha : t.playerAsset.find deed.player with
      | none => exact le_rfl
      | some a => exact (hassets a ha).2.1
    · cases ha : t.playerAsset.find deed.player with
      | none => exact id
      | some a => exact (hassets a ha).2.2
    · obtain ⟨row, hrow, hmark⟩ := Option.map_eq_some_iff.mp hd
      obtain ⟨hbest, hfirst⟩ := Prod.mk.inj hmark
      obtain ⟨row', hrow', hstar, hclear⟩ := h.later_progress hrow
      refine ⟨_, _, congrArg (Option.map ProgressRow.mark) hrow', hbest ▸ hstar, ?_⟩
      rw [← hfirst]
      exact fun hone => decide_eq_true (hclear (of_decide_eq_true hone))
  · exact ⟨_, (h.hero_ne hself).trans hp, .refl _⟩

omit [DecidableEq ι] in
/-- A deed takes the game on. -/
theorem Transacts.later {s s' : Store ι} (hgold : 0 ≤ cfg.normalGoldReward)
    (hdiamond : 0 ≤ cfg.firstClearDiamondReward)
    (h : Transacts cfg deed s.mysql.tables s'.mysql.tables) : s.game.Later s'.game where
  account := by
    simp only [Store.game, Query.rows, h.account, h.player]
  hero p hero hp := h.later_hero hgold hdiamond hp
  nobody p hp := by
    have hplayer : s.mysql.tables.player.find p = none := Option.map_eq_none_iff.mp hp
    show s'.mysql.tables.hero p = none
    rw [Tables.hero, h.player, hplayer]
    rfl
  battle b battle hb := by
    obtain ⟨row, hrow, rfl⟩ := Option.map_eq_some_iff.mp hb
    obtain ⟨row', hrow', rfl | rfl⟩ := h.battle_kept hrow
    · exact ⟨_, congrArg (Option.map BattleRow.battle) hrow', rfl, rfl, id⟩
    · exact ⟨_, congrArg (Option.map BattleRow.battle) hrow', rfl, rfl, fun _ => rfl⟩

end Later

/-! ## Runs -/

section Runs

variable {ok : World ι → Label ι → Prop} {w₀ w₁ w₂ : World ι}

omit [DecidableEq ι] in
/-- The game that goes on is in the tables. -/
theorem Store.later_of_tables {s s' : Store ι} (h : s'.mysql.tables = s.mysql.tables) :
    s.game.Later s'.game where
  account := by simp only [Store.game, h]
  hero p hero hp := ⟨hero, (congrArg (Tables.hero · p) h).trans hp, .refl hero⟩
  nobody p hp := (congrArg (Tables.hero · p) h).trans hp
  battle b battle hb := ⟨battle, (congrArg (Tables.battles · b) h).trans hb, rfl, rfl, id⟩

/-- **The game never goes back.** Between any two states of a run that starts fresh, whatever
requests interleave, whatever commands fail but a `ROLLBACK`, whenever processes stop, locks
expire and keys are evicted: the accounts stay, no hero disappears, appears, gets poorer, goes
into debt for stamina or loses a star or a first clear, and no battle disappears, changes its
player or its dungeon or is on again once it is over. -/
theorem never_goes_back (hw₀ : w₀.Fresh)
    (hroll : ∀ w l, ok w l → ¬w.Fails l (.sql .rollback))
    (hgold : 0 ≤ env.dungeonConfig.normalGoldReward)
    (hdiamond : 0 ≤ env.dungeonConfig.firstClearDiamondReward)
    (h₁ : World.Run env ok w₀ w₁) (h₂ : World.Run env ok w₁ w₂) :
    w₁.store.game.Later w₂.store.game := by
  obtain ⟨φ₁, hphased₁, hcore₁, -⟩ := h₁.core (I := fun _ _ => True) hw₀ hroll trivial
    fun _ _ _ _ _ _ _ _ _ _ _ _ _ => trivial
  have hlast : ∃ φ, Phased env w₂ φ ∧ Core env w₂ φ ∧ w₁.store.game.Later w₂.store.game := by
    refine h₂.invariant (I := fun w => ∃ φ, Phased env w φ ∧ Core env w φ ∧
      w₁.store.game.Later w.store.game) ⟨φ₁, hphased₁, hcore₁, .refl _⟩ ?_
    rintro w l w' - ⟨φ, hphased, hcore, hlater⟩ hok hs
    obtain ⟨φ', hmove, hphased'⟩ := hphased.step hs
    obtain ⟨hcore', hstep⟩ := hcore.step (hroll w l hok) hmove
    refine ⟨φ', hphased', hcore', hlater.trans ?_⟩
    rcases hstep with ⟨htables, -⟩ | ⟨-, -, -, -, htransacts, -⟩
    · exact Store.later_of_tables htables
    · exact htransacts.later hgold hdiamond
  obtain ⟨φ₂, -, -, hlater⟩ := hlast
  exact hlater

/-- A battle is entered; later a server that settles it stops before its commit, and another
one settles it. -/
theorem never_goes_back_demo :
    ∃ w₁ w₂ : World Bool, World.Run demoEnv (fun _ l => l.faultless = true) demoWorld w₁ ∧
      World.Run demoEnv (fun _ l => l.faultless = true) w₁ w₂ ∧
      w₁.store.game.battle "battle-20001-1001-1" = some ⟨20001, 1001, false⟩ ∧
      w₂.store.game.battle "battle-20001-1001-1" = some ⟨20001, 1001, true⟩ ∧
      w₁.store.game.Later w₂.store.game := by
  have hrun : (replay (World.step demoEnv) (fun _ l => l.faultless) demoWorld
      (Label.alone true (.enterDungeon ⟨"s", 20001, 1001⟩) 18)).any (fun w₁ =>
        w₁.store.mysql.tables.battles "battle-20001-1001-1" = some ⟨20001, 1001, false⟩ ∧
        (replay (World.step demoEnv) (fun _ l => l.faultless) w₁
          (.start true (.settleDungeon ⟨"s", 20001, "battle-20001-1001-1", 1001, 3, true⟩) ::
            List.replicate 8 (.exec true none) ++ .crash true :: .tick 10000 ::
            Label.alone false
              (.settleDungeon ⟨"s", 20001, "battle-20001-1001-1", 1001, 3, true⟩) 14)).any
          (fun w₂ => w₂.store.mysql.tables.battles "battle-20001-1001-1" =
            some ⟨20001, 1001, true⟩)) = true := by
    decide +kernel
  obtain ⟨w₁, h₁, hend⟩ := Reach.of_replay_any (fun _ _ hl => hl) hrun
  obtain ⟨hpending, hrun'⟩ := of_decide_eq_true hend
  obtain ⟨w₂, h₂, hsettled⟩ := Reach.of_replay_any (fun _ _ hl => hl) hrun'
  exact ⟨w₁, w₂, h₁, h₂, hpending, of_decide_eq_true hsettled,
    never_goes_back demoWorld_fresh (fun _ _ h => Label.not_fails h _) (by decide) (by decide)
      h₁ h₂⟩

end Runs

end GameBackend
