import GameBackend.Execution

/-!
# A paid battle can be settled

Nothing that happened before can keep a player out of the battle they paid for:
a pending row belongs to the configured dungeon, no reward is logged for it, and a
context, if there is one, agrees with it (`Owed`). So its settlement goes through
all its statements, unless the reward does not fit the columns it is added to.
-/

namespace GameBackend

variable {ι X : Type} [DecidableEq ι] {env : Env} {cfg : DungeonConfig} {i : ι}
  {s s' s₀ : Store ι} {φ ψ : Phase} {c : Cmd} {r : c.Reply} {t t' u : Tables} {deed : Deed}

/-! ## What is owed -/

/-- Battles are about the configured dungeon, and rewards are logged for settled
battles only. -/
structure Owed (cfg : DungeonConfig) (t : Tables) : Prop where
  dungeon : ∀ b row, t.dungeonBattle.find b = some row → row.dungeonId = cfg.dungeonId
  logged : ∀ r ∈ t.rewardLog.rows, ∃ row, t.dungeonBattle.find r.battleId = some row ∧
    row.status = 1

/-- A deed that enters a battle enters one of the configured dungeon. -/
def Deed.Configured (cfg : DungeonConfig) : Deed → Prop
  | .enter row => row.dungeonId = cfg.dungeonId
  | .settle _ => True

/-- And so does the request that prepares it. -/
def Phase.Configured (cfg : DungeonConfig) : Phase → Prop
  | .numbered row => row.dungeonId = cfg.dungeonId
  | .opened row => row.dungeonId = cfg.dungeonId
  | .writing deed _ _ => deed.Configured cfg
  | _ => True

theorem Advance.configured (hadv : Advance cfg φ c r ψ) (h : φ.Configured cfg) :
    ψ.Configured cfg := by
  cases hadv with
  | pass _ _ => exact h
  | number => rfl
  | enterBegin => exact h
  | noPending _ => exact h
  | write _ => exact h
  | unlock exit => trivial
  | _ => trivial

theorem Moves.configured {w w' : World ι} {φ φ' : ι → Phase} {l : Label ι}
    (hmove : Moves env w φ l w' φ') (h : ∀ i, (φ i).Configured env.dungeonConfig) :
    ∀ i, (φ' i).Configured env.dungeonConfig := by
  cases hmove with
  | start idle => exact h
  | exec task performed advance =>
    exact (Function.forall_update_iff φ _).mpr ⟨advance.configured (h _), fun j _ => h j⟩
  | finish task ends => exact (Function.forall_update_iff φ _).mpr ⟨trivial, fun j _ => h j⟩
  | crash noted => exact (Function.forall_update_iff φ _).mpr ⟨trivial, fun j _ => h j⟩
  | tick => exact h
  | evict => exact h

theorem Owed.init (hbattles : t.dungeonBattle.rows = []) (hlog : t.rewardLog.rows = []) :
    Owed cfg t where
  dungeon b row hrow := by
    have := Table.mem_of_find hrow
    rw [hbattles] at this
    cases this
  logged r hr := by
    rw [hlog] at hr
    cases hr

/-- Every deed keeps the debts. -/
theorem Owed.step (h : Owed cfg t) (ht : Transacts cfg deed t t') (hdeed : deed.Configured cfg) :
    Owed cfg t' where
  dungeon b row hrow := by
    rcases ht.battle_from hrow with ⟨row₀, hrow₀, rfl | rfl⟩ | ⟨rfl, -⟩
    · exact h.dungeon b _ hrow₀
    · exact h.dungeon b row₀ hrow₀
    · exact hdeed
  logged r hr := by
    have hold : r ∈ t.rewardLog.rows →
        ∃ row, t'.dungeonBattle.find r.battleId = some row ∧ row.status = 1 := by
      intro hr
      obtain ⟨row, hrow, hstatus⟩ := h.logged r hr
      obtain ⟨row', hrow', rfl | rfl⟩ := ht.battle_kept hrow
      · exact ⟨_, hrow', hstatus⟩
      · exact ⟨_, hrow', rfl⟩
    cases deed with
    | enter row =>
      rw [Entered.eq ht] at hr
      exact hold hr
    | settle settlement =>
      rw [Settled.rewards ht, List.mem_append] at hr
      rcases hr with hr | hr
      · exact hold hr
      · rw [(of_mem_rewardRows hr).2]
        exact ht.shown

/-- What is owed while requests are served together. -/
structure Owing (env : Env) (w : World ι) (φ : ι → Phase) : Prop where
  core : Core env w φ
  owed : Owed env.dungeonConfig w.store.mysql.tables
  configured : ∀ i, (φ i).Configured env.dungeonConfig

theorem Owing.step {w w' : World ι} {φ φ' : ι → Phase} {l : Label ι} (h : Owing env w φ)
    (hroll : ¬w.Fails l (.sql .rollback)) (hmove : Moves env w φ l w' φ') : Owing env w' φ' := by
  obtain ⟨hcore, hstep⟩ := h.core.step hroll hmove
  refine ⟨hcore, ?_, hmove.configured h.configured⟩
  rcases hstep with ⟨htables, -⟩ | ⟨-, -, hbefore, -, htransacts, -⟩
  · exact htables ▸ h.owed
  · rename_i i fault deed
    have hdeed := h.configured i
    rw [hbefore] at hdeed
    exact h.owed.step htransacts hdeed

/-- What is owed survives everything a backend serves. -/
theorem Store.Reached.owed (hs₀ : s₀.Fresh env)
    (hlog : s₀.mysql.tables.rewardLog.rows = []) (h : Store.Reached env s₀ s) :
    Owed env.dungeonConfig s.mysql.tables := by
  induction h with
  | start => exact .init hs₀.battles hlog
  | work hbefore hwork ih =>
    rename_i s s' job
    cases job with
    | serve i request faults =>
      obtain ⟨response, s'', φ, hserve, -, -, howed, -⟩ := (hbefore.atRest hs₀).serve (i := i)
        (J := fun s φ => Owed env.dungeonConfig s.mysql.tables ∧ φ.Configured env.dungeonConfig)
        ⟨ih, trivial⟩ (fun _ hJ _ hadv _ hstep => by
          refine ⟨?_, hadv.configured hJ.2⟩
          rcases hstep with ⟨htables, -⟩ | ⟨rfl, -, htransacts, -⟩
          · exact htables ▸ hJ.1
          · exact hJ.1.step htransacts hJ.2) request faults
      simp only [Store.work, hserve, Option.map_some, Option.some.injEq] at hwork
      exact hwork ▸ howed
    | tick ms => exact Option.some.inj hwork ▸ ih
    | restart i => exact Option.some.inj hwork ▸ ih
    | evict k => exact Option.some.inj hwork ▸ ih
  | together hbefore hrun hidle ih =>
    rename_i s w
    have hrest := hbefore.atRest hs₀
    have hcore : Core env ⟨s, fun _ => none, []⟩ fun _ => .outside :=
      ⟨hrest.sound, hrest.txns, fun _ => trivial, hrest.asset, hrest.contexts⟩
    obtain ⟨φ, -, howing⟩ := hrun.phased (I := Owing env) (fun _ => rfl)
      ⟨hcore, ih, fun _ => trivial⟩
      fun _ _ _ _ _ _ _ howing hok hmove => howing.step hok.1 hmove
    exact howing.owed

/-! ## A transaction that goes through -/

/-- Process `i` alone has a transaction open and has written `ws`. -/
structure Writing (i : ι) (t : Tables) (ws : List SqlWrite) (s : Store ι) : Prop where
  tables : s.mysql.tables = t
  txn : s.mysql.txns i = some ws
  alone : ∀ k j, s.mysql.locks k = some j → j = i

section Transaction

variable {exec : Store ι → X → (c : Cmd) → Option (c.Reply × Store ι)} {ws : List SqlWrite}
  {w : SqlWrite}

theorem ensures_beginTransaction (hexec : Reliable exec i) (hnone : s.mysql.txns i = none)
    (hlocks : ∀ k, s.mysql.locks k = none) :
    MySqlClient.beginTransaction.Ensures exec
      (fun r s' => r = .ok () ∧ Writing i s.mysql.tables [] s') s := by
  have hcommit : s.mysql.commitTxn i = s.mysql := by rw [Mysql.commitTxn, hnone]
  have hstart : s.mysql.execute i .startTransaction = some (.ok (),
      { s.mysql with txns := Function.update s.mysql.txns i (some []) }) := by
    simp only [Mysql.execute, hcommit]
  refine (ensures_sql hexec hstart).mono ?_
  rintro _ s' ⟨rfl, rfl⟩
  refine ⟨rfl, rfl, Function.update_self .., fun k j hk => ?_⟩
  cases (hlocks k).symm.trans hk

/-- A statement that goes through on the committed tables goes through in a
transaction that has not written its row. -/
theorem Writing.ensures_execute (h : Writing i t ws s) (hexec : Reliable exec i)
    (hwrote : SqlWrite.Wrote w t u) (hfresh : w.key ∉ ws.map SqlWrite.key) :
    (MySqlClient.execute w).Ensures exec (fun r s' =>
      (∃ n, r = .ok n ∧ ∀ b, w = .updateBattle b → n = 1) ∧ Writing i t (ws ++ [w]) s') s := by
  have hview : s.mysql.view i = applyAll ws t := by
    rw [Mysql.view, h.txn, h.tables, Option.getD_some]
  obtain ⟨u', hwrote'⟩ := hwrote.congr (Mysql.row_applyAll_ne hfresh) Mysql.player_applyAll
  obtain ⟨n, hrun, hn⟩ := hwrote'.run_eq
  have hfree : s.mysql.locks w.key = none ∨ s.mysql.locks w.key = some i := by
    rcases hk : s.mysql.locks w.key with _ | j
    · exact .inl rfl
    · exact .inr (congrArg some (h.alone _ _ hk))
  have hexecute : s.mysql.execute i (.write w) = some (.ok n, { s.mysql with
      locks := Function.update s.mysql.locks w.key (some i)
      txns := Function.update s.mysql.txns i (some (ws ++ [w])) }) := by
    simp only [Mysql.execute, if_pos hfree, hview, hrun, h.txn]
  refine (ensures_sql hexec hexecute).mono ?_
  rintro _ s' ⟨rfl, rfl⟩
  refine ⟨⟨n, rfl, hn⟩, h.tables, Function.update_self .., fun k j hk => ?_⟩
  by_cases hkey : k = w.key
  · subst hkey
    have hself : some i = some j := by simpa using hk
    exact (Option.some.inj hself).symm
  · exact h.alone k j (by simpa [hkey] using hk)

/-- And then the transaction is committed. -/
theorem ensures_finishTransaction (hexec : Reliable exec i) :
    (MySqlDungeonRepository.finishTransaction (.ok ())).Ensures exec
      (fun r _ => r = .ok ()) s := by
  have hcommit : s.mysql.execute i .commit = some (.ok (), s.mysql.commitTxn i) := rfl
  refine (ensures_sql hexec hcommit).bind ?_
  rintro _ s' ⟨rfl, rfl⟩
  rfl

end Transaction

/-! ## The settlement goes through -/

/-- The reward of a settlement by player `p` fits the columns it is added to. -/
def RewardFits (cfg : DungeonConfig) (t : Tables) (p : ℤ) : Prop :=
  ∀ a, t.playerAsset.find p = some a →
    inBigint (a.gold + cfg.normalGoldReward) = true ∧
    inBigint (a.diamond + if (t.playerDungeon.find (p, cfg.dungeonId)).isNone
      then cfg.firstClearDiamondReward else 0) = true

/-- Each statement of the settlement of a pending battle goes through on the
committed tables. -/
theorem Owed.justified (h : Owed cfg t) {settlement : Settlement} {row : BattleRow}
    (hrow : t.dungeonBattle.find settlement.battleId = some row) (hstatus : row.status = 0)
    (hasset : (t.playerAsset.find settlement.playerId).isSome = true)
    (hfirst : settlement.firstClear =
      (t.playerDungeon.find (settlement.playerId, cfg.dungeonId)).isNone)
    (hfits : RewardFits cfg t settlement.playerId) :
    ∀ w ∈ (Deed.settle settlement).plan cfg, ∃ u, SqlWrite.Wrote w t u := by
  obtain ⟨a, ha⟩ := Option.isSome_iff_exists.mp hasset
  obtain ⟨hgold, hdiamond⟩ := hfits a ha
  intro w hw
  simp only [Deed.plan, List.mem_cons, List.mem_map] at hw
  rcases hw with rfl | rfl | rfl | ⟨reward, hreward, rfl⟩
  · exact ⟨_, .updateBattle hrow hstatus⟩
  · refine ⟨_, .updateAssetReward ha (Bool.and_eq_true_iff.mpr ⟨hgold, ?_⟩)⟩
    rw [← hfirst] at hdiamond
    rw [Settlement.diamond]
    cases hclear : settlement.firstClear with
    | true => simpa [hclear] using hdiamond
    | false => simpa [hclear] using hdiamond
  · have hplayer : (t.player.find settlement.playerId).isSome := by
      have hkey : a.playerId = settlement.playerId := Table.key_of_find ha
      exact hkey ▸ t.fkAssetPlayer a (Table.mem_of_find ha)
    rcases hp : t.playerDungeon.find (settlement.playerId, settlement.dungeonId) with _ | progress
    · exact ⟨_, .insertProgress hplayer hp⟩
    · exact ⟨_, .updateProgress hp⟩
  · refine ⟨_, .insertRewardLog ?_⟩
    rcases hlogged : t.rewardLog.find reward.key with _ | logged
    · rfl
    · -- a logged reward belongs to a settled battle
      obtain ⟨row', hrow', hsettled⟩ := h.logged logged (Table.mem_of_find hlogged)
      have hkey : logged.battleId = reward.battleId :=
        congrArg (fun k => k.2.1) (Table.key_of_find hlogged)
      rw [hkey, (of_mem_rewardRows hreward).2, hrow] at hrow'
      rw [← Option.some.inj hrow', hstatus] at hsettled
      exact absurd hsettled (by decide)

section Settlement

variable {exec : Store ι → X → (c : Cmd) → Option (c.Reply × Store ι)}

/-- The statements of a settlement, each of which goes through. -/
theorem Writing.ensures_settle {settlement : Settlement} {context : BattleContext}
    (h : Writing i t [] s) (hexec : Reliable exec i)
    (hjustified : ∀ w ∈ (Deed.settle settlement).plan cfg, ∃ u, SqlWrite.Wrote w t u)
    (hbattle : context.battleId = settlement.battleId)
    (hplayer : context.playerId = settlement.playerId)
    (hdungeon : cfg.dungeonId = settlement.dungeonId) :
    (MySqlDungeonRepository.settleStatements context cfg settlement.star
      settlement.firstClear).Ensures exec (fun r _ => r = .ok ()) s := by
  have hfresh := fun (done todo : List SqlWrite) w
    (hplan : done ++ w :: todo = (Deed.settle settlement).plan cfg) => key_fresh hplan
  rw [MySqlDungeonRepository.settleStatements, hbattle, hplayer, hdungeon]
  obtain ⟨u₁, hwrote₁⟩ := hjustified (.updateBattle settlement.battleId) (by simp [Deed.plan])
  refine (h.ensures_execute hexec hwrote₁ (hfresh [] _ _ rfl)).bind ?_
  rintro _ s₁ ⟨⟨n, rfl, hn⟩, h₁⟩
  obtain rfl := hn _ rfl
  obtain ⟨u₂, hwrote₂⟩ := hjustified (.updateAssetReward settlement.playerId cfg.normalGoldReward
    (settlement.diamond cfg)) (by simp [Deed.plan])
  refine (h₁.ensures_execute hexec hwrote₂ (hfresh _ _ _ rfl)).bind ?_
  rintro _ s₂ ⟨⟨n, rfl, -⟩, h₂⟩
  obtain ⟨u₃, hwrote₃⟩ := hjustified (.upsertProgress settlement.playerId settlement.dungeonId
    settlement.star settlement.firstClear) (by simp [Deed.plan])
  refine (h₂.ensures_execute hexec hwrote₃ (hfresh _ _ _ rfl)).bind ?_
  rintro _ s₃ ⟨⟨n, rfl, -⟩, h₃⟩
  obtain ⟨u₄, hwrote₄⟩ := hjustified (.insertRewardLog ⟨settlement.playerId, settlement.battleId,
    "gold", cfg.normalGoldReward⟩) (by simp [Deed.plan, Settlement.rewardRows])
  refine (h₃.ensures_execute hexec hwrote₄ (hfresh _ _ _ rfl)).bind ?_
  rintro _ s₄ ⟨⟨n, rfl, -⟩, h₄⟩
  dsimp only
  split
  · rename_i hclear
    obtain ⟨u₅, hwrote₅⟩ := hjustified (.insertRewardLog ⟨settlement.playerId, settlement.battleId,
      "diamond", cfg.firstClearDiamondReward⟩) (by simp [Deed.plan, Settlement.rewardRows, hclear])
    refine (h₄.ensures_execute hexec hwrote₅ (hfresh _ [] _ ?_)).bind ?_
    · simp [Deed.plan, Settlement.rewardRows, Settlement.diamond, hclear]
    rintro _ s₅ ⟨⟨n, rfl, -⟩, -⟩
    rfl
  · rfl

/-- The transaction of the settlement of a pending battle goes through. -/
theorem ensures_settleDungeon (hexec : Reliable exec i) (hnone : s.mysql.txns i = none)
    (hlocks : ∀ k, s.mysql.locks k = none) (howed : Owed cfg s.mysql.tables) {row : BattleRow}
    {context : BattleContext}
    (hrow : s.mysql.tables.dungeonBattle.find context.battleId = some row)
    (hstatus : row.status = 0)
    (hasset : (s.mysql.tables.playerAsset.find context.playerId).isSome = true)
    (hfits : RewardFits cfg s.mysql.tables context.playerId) (star : ℤ) :
    (MySqlDungeonRepository.settleDungeon context cfg star).Ensures exec
      (fun result _ => result.success = true) s := by
  refine (ensures_queryOne hexec hnone _).bind ?_
  rintro first s' ⟨hfirst, rfl⟩
  have hclear : first.isNone =
      (s'.mysql.tables.playerDungeon.find (context.playerId, cfg.dungeonId)).isNone := by
    rw [hfirst, Query.rows, Option.head?_toList, Option.isNone_map]
  refine (ensures_beginTransaction hexec hnone hlocks).bind ?_
  rintro _ s₁ ⟨rfl, hwriting⟩
  let settlement : Settlement :=
    ⟨context.battleId, context.playerId, cfg.dungeonId, star, first.isNone⟩
  have hjustified : ∀ w ∈ (Deed.settle settlement).plan cfg,
      ∃ u, SqlWrite.Wrote w s'.mysql.tables u :=
    howed.justified hrow hstatus hasset hclear hfits
  refine (hwriting.ensures_settle hexec hjustified rfl rfl rfl).bind ?_
  rintro _ s₂ rfl
  refine (ensures_finishTransaction hexec).bind ?_
  rintro _ s₃ rfl
  rfl

omit [DecidableEq ι] in
/-- The battle of a pending row is found, and it is pending. -/
theorem Store.AtRest.found (h : s.AtRest env) {b : String} {row : BattleRow}
    (hrow : s.mysql.tables.dungeonBattle.find b = some row) (hstatus : row.status = 0) :
    ∃ context, (s.redis.context b).or (s.mysql.tables.battle b) = some context ∧
      context.battleId = b ∧ context.playerId = row.playerId ∧
      context.dungeonId = row.dungeonId ∧ context.settled = false := by
  have hkey : row.battleId = b := Table.key_of_find hrow
  rcases hcontext : s.redis.context b with _ | context
  · refine ⟨MySqlDungeonRepository.contextOf row, congrArg (Option.map _) hrow, hkey, rfl, rfl, ?_⟩
    exact decide_eq_false fun hsettled => absurd (hstatus.symm.trans hsettled) (by decide)
  · obtain ⟨row', hrow', rfl⟩ := h.context hcontext
    obtain rfl := Option.some.inj (hrow.symm.trans hrow')
    exact ⟨_, rfl, hkey, rfl, rfl, rfl⟩

/-- The request to settle a pending battle succeeds. -/
theorem Store.AtRest.ensures_settleDungeon (h : s.AtRest env) (hexec : Reliable exec i)
    (howed : Owed env.dungeonConfig s.mysql.tables) {request : SettleDungeonRequest}
    {row : BattleRow} (hrow : s.mysql.tables.dungeonBattle.find request.battleId = some row)
    (hstatus : row.status = 0) (hplayer : row.playerId = request.playerId)
    (hdungeon : row.dungeonId = request.dungeonId) (hresult : request.result = true)
    (hsession : (s.redis.session request.sessionId).map Session.playerId = some request.playerId)
    (hstar : 1 ≤ request.star ∧ request.star ≤ env.dungeonConfig.maxStar)
    (hlock : s.redis.live (.playerLock request.playerId) = none)
    (hfits : RewardFits env.dungeonConfig s.mysql.tables request.playerId) :
    (DungeonService.settleDungeon env request).Ensures exec
      (fun response _ => response.success = true) s := by
  have hdecodes := Redis.decodes_of_filled h.filled
  have hconfig : InMemoryDungeonConfigRepository.findByDungeonId env request.dungeonId =
      some env.dungeonConfig :=
    if_neg (not_not.mpr (hdungeon.symm.trans (howed.dungeon _ row hrow)))
  rw [DungeonService.settleDungeon, if_neg (by simp [hresult])]
  refine (ensures_findById hexec hdecodes _).bind ?_
  rintro session s' ⟨rfl, rfl⟩
  rw [if_neg (not_not.mpr hsession), hconfig]
  dsimp only
  rw [if_neg (by omega)]
  refine (ensures_acquire hexec _).bind ?_
  rintro acquired s₁ ⟨rfl, rfl⟩
  rw [hlock, if_neg (by simp)]
  -- under the lock
  obtain ⟨context, hfound, hbattle, hplayer', hdungeon', hpending⟩ := h.found hrow hstatus
  have hfind := ensures_findBattle hexec (s := s'.attemptLock env request.playerId) (h.txns i)
    (hdecodes.attemptLock _) request.battleId
  rw [Store.context_attemptLock] at hfind
  have hsettled : (DungeonService.settleLocked env.dungeonConfig request).Ensures exec
      (fun response _ => response.success = true) (s'.attemptLock env request.playerId) := by
    refine hfind.bind ?_
    rintro found s₂ ⟨rfl, rfl⟩
    rw [show (s'.redis.context request.battleId).or
      ((s'.attemptLock env request.playerId).mysql.tables.battle request.battleId) = some context
      from hfound]
    dsimp only
    have hmatch :
        ¬(context.playerId ≠ request.playerId ∨ context.dungeonId ≠ request.dungeonId) := by
      rw [hplayer', hdungeon', hplayer, hdungeon]
      simp
    have hsame : context.playerId = request.playerId := hplayer'.trans hplayer
    rw [if_neg hmatch, hpending, if_neg Bool.false_ne_true]
    have hasset := h.asset _ row hrow
    rw [← hplayer'] at hasset
    rw [← hbattle] at hrow
    rw [← hsame] at hfits
    refine Prog.Ensures.bind (ensures_settleDungeon (s := s'.attemptLock env request.playerId) hexec
      (h.txns i) h.unlocked howed hrow hstatus hasset hfits request.star) ?_
    rintro result s₃ hsuccess
    rw [hsuccess, if_neg (by simp)]
    refine (hexec.ensures_redis _ _).bind fun _ _ _ => ?_
    exact (hexec.ensures_redis _ _).bind fun _ _ _ => rfl
  refine hsettled.bind fun response s₂ hsuccess => ?_
  exact Prog.Ensures.bind (P := fun _ _ => True)
    ((hexec.ensures_redis _ _).bind fun _ _ _ => trivial) fun _ _ _ => hsuccess

end Settlement

/-- Player 20001 settles their first battle. -/
def demoSettlement : SettleDungeonRequest :=
  ⟨"sess-10001-20001-1", 20001, "battle-20001-1001-1", 1001, 3, true⟩

end GameBackend
