import GameBackend.Faults

/-!
# Entering a dungeon alone

What `EnterDungeon` answers when it is processed alone, as a function of the store
and of the faults of its commands: `Store.enterCode` is the decision table,
`yields_enterDungeon` says that the program follows it. Command 0 looks up the
session, 1 acquires the lock, 2 and 3 load the player, 4 draws the battle number, 5
opens the transaction, 6 asks for a pending battle, 7 pays, 8 inserts the battle and
9 commits.

An eligible player who pays nothing is turned away: the `UPDATE` that subtracts 0
changes no row, and no changed row is read as "stamina not enough".
-/

namespace GameBackend

variable {ι : Type} [DecidableEq ι] {env : Env} {i : ι} {s : Store ι} {cfg : DungeonConfig}
  {t : Tables} {p : ℤ} {faults : ℕ → Option String} {n : ℕ} {stuck : Prop}

/-! ## What the tables say -/

/-- The stamina of player `p` as a profile shows it. -/
def Tables.stamina (t : Tables) (p : ℤ) : ℤ :=
  ((t.playerAsset.find p).map AssetRow.stamina).getD 0

/-- Player `p` has a battle with status 0. -/
def Tables.HasPending (t : Tables) (p : ℤ) : Prop :=
  ∃ row ∈ t.dungeonBattle.rows, row.playerId = p ∧ row.status = 0

instance (t : Tables) (p : ℤ) : Decidable (t.HasPending p) :=
  inferInstanceAs (Decidable (∃ row ∈ t.dungeonBattle.rows, row.playerId = p ∧ row.status = 0))

/-- The statement that takes the stamina changes a row. -/
def Tables.Pays (t : Tables) (p cost : ℤ) : Prop :=
  cost ≠ 0 ∧ ∃ a ∈ t.playerAsset.find p, cost ≤ a.stamina ∧ inInt (a.stamina - cost) = true

instance (t : Tables) (p cost : ℤ) : Decidable (t.Pays p cost) :=
  inferInstanceAs (Decidable (_ ∧ ∃ a ∈ t.playerAsset.find p, _))

/-- The session is there and belongs to player `p`. -/
def Redis.Admits (d : Redis) (sessionId : String) (p : ℤ) : Prop :=
  (d.session sessionId).map Session.playerId = some p

instance (d : Redis) (sessionId : String) (p : ℤ) : Decidable (d.Admits sessionId p) :=
  inferInstanceAs (Decidable (_ = _))

theorem isSome_pendingBattle (t : Tables) (p : ℤ) :
    ((Query.pendingBattle p).rows t).head?.isSome = true ↔ t.HasPending p := by
  rw [List.isSome_head?]
  simp [Query.rows, Tables.HasPending, List.filter_eq_nil_iff]

/-- The row of a profile query. -/
theorem head_profile (t : Tables) (p : ℤ) :
    ((Query.profile p).rows t).head?.map (fun profile =>
        (profile.playerId, profile.level, profile.stamina)) =
      (t.player.find p).map fun r => (p, r.level, t.stamina p) := by
  rw [Query.rows, Option.head?_toList, Option.map_map]
  refine Option.map_congr fun r hr => ?_
  have hkey : r.playerId = p := Table.key_of_find hr
  simp [hkey, Tables.stamina]

theorem affectedOne_spend (t : Tables) (p cost : ℤ) :
    MySqlDungeonRepository.affectedOne "stamina not enough"
        (SqlWrite.answer ((SqlWrite.updateAssetStamina p cost).run t)) =
      if t.Pays p cost then .ok () else .error "stamina not enough" := by
  by_cases hpays : t.Pays p cost
  · obtain ⟨hcost, a, ha, henough, hfits⟩ := hpays
    rw [if_pos ⟨hcost, a, ha, henough, hfits⟩]
    simp [SqlWrite.run, Option.mem_def.mp ha, henough, hfits, hcost, SqlWrite.answer,
      MySqlDungeonRepository.affectedOne]
  · rw [if_neg hpays, SqlWrite.run]
    split
    · rfl
    · rename_i a ha
      -- enough stamina that fits is only left as it is if nothing is taken
      by_cases henough : cost ≤ a.stamina
      · by_cases hfits : inInt (a.stamina - cost) = true
        · have hcost : cost = 0 := by
            by_contra hcost
            exact hpays ⟨hcost, a, ha, henough, hfits⟩
          rw [if_pos henough, if_pos hfits, if_pos hcost]
          rfl
        · rw [if_pos henough, if_neg hfits]
          rfl
      · rw [if_neg henough]
        rfl

/-! ## The transaction -/

/-- What the statements of the transaction come to; command `n` asks for a pending
battle. -/
def entryResult (cfg : DungeonConfig) (t : Tables) (p : ℤ) (battleId : String)
    (faults : ℕ → Option String) (n : ℕ) : Except String Unit :=
  if faults n = none ∧ t.HasPending p then .error "unfinished battle exists"
  else if faults (n + 1) ≠ none ∨ ¬t.Pays p cfg.costStamina then .error "stamina not enough"
  else match faults (n + 2) with
    | some message => .error message
    | none =>
      if (t.dungeonBattle.find battleId).isSome then
        .error "Duplicate entry for key 'dungeon_battle.PRIMARY'"
      else .ok ()

/-- What the transaction comes to; command `n` opens it. -/
def enterResult (cfg : DungeonConfig) (t : Tables) (p : ℤ) (battleId : String)
    (faults : ℕ → Option String) (n : ℕ) : Except String Unit :=
  match faults n with
  | some message => .error message
  | none =>
    match entryResult cfg t p battleId faults (n + 1) with
    | .error message => .error message
    | .ok () =>
      match faults (n + 4) with
      | some message => .error message
      | none => .ok ()

/-- The insertion of the new battle behind the payment. -/
theorem answer_insertBattle (t : Tables) (p cost : ℤ) (row : BattleRow) :
    SqlWrite.answer
        ((SqlWrite.insertBattle row).run ((SqlWrite.updateAssetStamina p cost).apply t)) =
      if (t.dungeonBattle.find row.battleId).isSome then
        .error "Duplicate entry for key 'dungeon_battle.PRIMARY'"
      else .ok 1 := by
  have hsame : ((SqlWrite.updateAssetStamina p cost).apply t).dungeonBattle.find row.battleId =
      t.dungeonBattle.find row.battleId :=
    SqlWrite.row_apply_ne t (k := .battle row.battleId) (by simp [SqlWrite.key])
  rw [SqlWrite.run, hsame]
  rcases t.dungeonBattle.find row.battleId with _ | found
  · rfl
  · rfl

theorem yields_enterStatements {ws : List SqlWrite} (hopen : s.mysql.txns i = some ws)
    (profile : PlayerProfile) (battleId : String)
    (hfree : (s.Accessible i (.asset profile.playerId) ∧ s.Accessible i (.battle battleId)) ∨
      stuck) :
    (MySqlDungeonRepository.enterStatements profile cfg battleId).Yields (Store.failing i) faults
      stuck
      (fun r n' _ =>
        r = entryResult cfg (s.mysql.view i) profile.playerId battleId faults n ∧
        (r = .ok () → n' = n + 3)) n s := by
  refine (yields_queryOne _).bind ?_
  rintro pending _ s₁ ⟨rfl, rfl, hpending⟩
  have hsome : pending.isSome = true ↔
      faults n = none ∧ (s₁.mysql.view i).HasPending profile.playerId := by
    rw [hpending, ← isSome_pendingBattle]
    by_cases hfault : faults n = none
    · simp [hfault]
    · simp [hfault]
  unfold entryResult
  by_cases hstop : pending.isSome = true
  · rw [if_pos hstop, if_pos (hsome.mp hstop)]
    exact ⟨rfl, fun h => by cases h⟩
  · rw [if_neg hstop, if_neg (hstop ∘ hsome.mpr)]
    refine (yields_execute hopen (.updateAssetStamina profile.playerId cfg.costStamina)
      (hfree.imp_left And.left)).bind ?_
    rintro paid _ s₂ ⟨rfl, ⟨ws₂, hopen₂⟩, hkeep,
      ⟨message, hfault, rfl, -⟩ | ⟨hfault, rfl, hview⟩⟩
    · rw [if_pos (.inl (by simp [hfault]))]
      exact ⟨rfl, fun h => by cases h⟩
    · rw [affectedOne_spend]
      by_cases hpays : (s₁.mysql.view i).Pays profile.playerId cfg.costStamina
      · rw [if_pos hpays, if_neg (by simp [hfault, hpays])]
        refine (yields_execute hopen₂
          (.insertBattle ⟨battleId, profile.playerId, cfg.dungeonId, 0, cfg.costStamina⟩)
          (hfree.imp_left fun h => hkeep _ h.2)).bind ?_
        rintro inserted _ s₃ ⟨rfl, -, -, ⟨message, hfault₃, rfl, -⟩ | ⟨hfault₃, rfl, -⟩⟩
        · rw [show n + 2 = n + 1 + 1 from rfl, hfault₃]
          exact ⟨rfl, fun h => by cases h⟩
        · rw [show n + 2 = n + 1 + 1 from rfl, hfault₃, hview, answer_insertBattle]
          dsimp only
          split
          · exact ⟨rfl, fun h => by cases h⟩
          · exact ⟨rfl, fun _ => rfl⟩
      · rw [if_neg hpays, if_pos (.inr hpays)]
        exact ⟨rfl, fun h => by cases h⟩

theorem yields_finishTransaction (transaction : Except String Unit) :
    (MySqlDungeonRepository.finishTransaction transaction).Yields (Store.failing i) faults stuck
      (fun r _ _ => r = match transaction with
        | .error message => .error message
        | .ok () =>
          match faults n with
          | some message => .error message
          | none => .ok ()) n s := by
  cases transaction with
  | error message =>
    refine (yields_sql .rollback nofun).bind ?_
    rintro _ _ _ -
    exact rfl
  | ok u =>
    refine (yields_sql .commit nofun).bind ?_
    rintro r _ s' ⟨rfl, ⟨message, hfault, rfl, rfl⟩ | ⟨m, hfault, hexec, rfl⟩⟩
    · rw [hfault]
      refine (yields_sql .rollback nofun).bind ?_
      rintro _ _ _ -
      exact rfl
    · obtain ⟨rfl, rfl⟩ := Prod.mk.inj (Option.some.inj hexec)
      rw [hfault]
      exact rfl

/-- The transaction succeeds or fails with the message of the table. -/
theorem yields_repository_enterDungeon (playerState : PlayerState) (battleId : String)
    (hfree : (s.Accessible i (.asset playerState.profile.playerId) ∧
      s.Accessible i (.battle battleId)) ∨ stuck) :
    (MySqlDungeonRepository.enterDungeon playerState cfg battleId).Yields (Store.failing i) faults
      stuck
      (fun result _ _ =>
        match enterResult cfg (s.mysql.view i) playerState.profile.playerId battleId faults n with
        | .error message => result.success = false ∧ result.errorMessage = message
        | .ok () => result.success = true) n s := by
  unfold enterResult
  refine yields_beginTransaction.bind ?_
  rintro r _ s₁ ⟨rfl, ⟨message, hfault, rfl⟩ | ⟨hfault, rfl, hopen, hview, hkeep⟩⟩
  · rw [hfault]
    exact ⟨rfl, rfl⟩
  · rw [hfault]
    have hfree₁ := hfree.imp_left fun h => And.intro (hkeep _ h.1) (hkeep _ h.2)
    refine (yields_enterStatements hopen _ _ hfree₁).bind ?_
    rintro transaction n₂ s₂ ⟨htransaction, hn₂⟩
    rw [hview] at htransaction
    dsimp only
    rw [← htransaction]
    refine (yields_finishTransaction transaction).bind ?_
    rintro r n₃ s₃ rfl
    cases transaction with
    | error message => exact ⟨rfl, rfl⟩
    | ok u =>
      obtain rfl := hn₂ rfl
      rw [show n + 4 = n + 1 + 3 from rfl]
      dsimp only
      cases hcommit : faults (n + 1 + 3) with
      | some message => exact ⟨rfl, rfl⟩
      | none => exact rfl

/-! ## The answer -/

/-- What the services test after they have looked up a session. -/
theorem not_admitted_iff (faults : ℕ → Option String) (d : Redis) (sessionId : String) (p : ℤ) :
    (if faults 0 = none then d.session sessionId else none).map Session.playerId ≠ some p ↔
      ¬(faults 0 = none ∧ d.Admits sessionId p) := by
  by_cases hfault : faults 0 = none
  · simp [hfault, Redis.Admits]
  · simp [hfault]

/-- The lock of player `p` is acquired. -/
def Store.Locks (s : Store ι) (p : ℤ) (faults : ℕ → Option String) : Prop :=
  faults 1 = none ∧ s.redis.live (.playerLock p) = none

instance (s : Store ι) (p : ℤ) (faults : ℕ → Option String) : Decidable (s.Locks p faults) :=
  inferInstanceAs (Decidable (_ ∧ _))

/-- What is answered with the lock held. -/
def Store.enterLockedCode (cfg : DungeonConfig) (s : Store ι) (i : ι)
    (request : EnterDungeonRequest) (faults : ℕ → Option String) : ErrorCode :=
  match if faults 2 = none then (s.mysql.view i).player.find request.playerId else none with
  | none => .playerNotFound
  | some player =>
    if player.level < cfg.requiredLevel then .dungeonLocked
    else if (s.mysql.view i).stamina request.playerId < cfg.costStamina then .staminaNotEnough
    else
      match enterResult cfg (s.mysql.view i) request.playerId (DungeonService.battleIdText
          request.playerId request.dungeonId (s.sequence i)) faults 5 with
      | .error message => DungeonService.enterErrorCode message
      | .ok () => .ok

/-- The decision table of `EnterDungeon`. -/
def Store.enterCode (env : Env) (s : Store ι) (i : ι) (request : EnterDungeonRequest)
    (faults : ℕ → Option String) : ErrorCode :=
  if ¬(faults 0 = none ∧ s.redis.Admits request.sessionId request.playerId) then .sessionInvalid
  else if request.dungeonId ≠ env.dungeonConfig.dungeonId then .dungeonNotFound
  else if ¬s.Locks request.playerId faults then .playerBusy
  else s.enterLockedCode env.dungeonConfig i request faults

/-- No other connection has locked the rows that `EnterDungeon` writes. -/
def Store.EntryFree (s : Store ι) (i : ι) (request : EnterDungeonRequest) : Prop :=
  s.Accessible i (.asset request.playerId) ∧ s.Accessible i
    (.battle (DungeonService.battleIdText request.playerId request.dungeonId (s.sequence i)))

theorem enterErrorCode_ne_ok (message : String) : DungeonService.enterErrorCode message ≠ .ok := by
  unfold DungeonService.enterErrorCode
  split
  · simp
  · split <;> simp

/-- The answer is the one of the table, and it is a success when its code is `kOk`. -/
def Answers (code : ErrorCode) (success : Bool) (expected : ErrorCode) : Prop :=
  code = expected ∧ (success = true ↔ expected = .ok)

theorem answers_refuseEnter {code : ErrorCode} (h : code ≠ .ok) (message : String) :
    Answers (DungeonService.refuseEnter code message).errorCode
      (DungeonService.refuseEnter code message).success code :=
  ⟨rfl, by simp [DungeonService.refuseEnter, h]⟩

/-- The state that is loaded shows the rows of the player. -/
theorem yields_loadPlayerRow (p : ℤ) :
    (MySqlPlayerRepository.loadPlayerState p).Yields (Store.failing i) faults stuck
      (fun state n' s' => s' = s ∧
        match state with
        | none => (if faults n = none then (s.mysql.view i).player.find p else none) = none
        | some state => n' = n + 2 ∧ ∃ player,
          (if faults n = none then (s.mysql.view i).player.find p else none) = some player ∧
            p = state.profile.playerId ∧ player.level = state.profile.level ∧
            (s.mysql.view i).stamina p = state.profile.stamina) n s := by
  refine (yields_loadPlayerState p).mono ?_
  rintro state n' s' ⟨rfl, hn', hstate⟩
  have hprofile : (if faults n = none then
        ((Query.profile p).rows (s'.mysql.view i)).head? else none).map
      (fun profile => (profile.playerId, profile.level, profile.stamina)) =
      (if faults n = none then (s'.mysql.view i).player.find p else none).map
        fun r => (p, r.level, (s'.mysql.view i).stamina p) := by
    split
    · exact head_profile _ _
    · rfl
  rw [← hstate] at hprofile
  cases state with
  | none => exact ⟨rfl, Option.map_eq_none_iff.mp hprofile.symm⟩
  | some state =>
    obtain ⟨player, hplayer, hshown⟩ := Option.map_eq_some_iff.mp hprofile.symm
    obtain ⟨hid, hlevel, hstamina⟩ : p = state.profile.playerId ∧
        player.level = state.profile.level ∧
        (s'.mysql.view i).stamina p = state.profile.stamina := by
      simpa only [Prod.mk.injEq] using hshown
    exact ⟨rfl, hn' rfl, player, hplayer, hid, hlevel, hstamina⟩

theorem yields_generateBattleId (p d : ℤ) :
    (DungeonService.generateBattleId p d).Yields (Store.failing i) faults stuck
      (fun battleId n' s' => n' = n + 1 ∧ s'.mysql = s.mysql ∧
        battleId = DungeonService.battleIdText p d (s.sequence i)) n s := by
  refine ⟨nofun, fun _ _ hs => ?_⟩
  obtain ⟨rfl, rfl⟩ := Prod.mk.inj (Option.some.inj hs)
  exact ⟨rfl, rfl, rfl⟩

theorem yields_enterLocked (request : EnterDungeonRequest) (hfree : s.EntryFree i request ∨ stuck) :
    (DungeonService.enterLocked env cfg request).Yields (Store.failing i) faults stuck
      (fun response _ _ => Answers response.errorCode response.success
        (s.enterLockedCode cfg i request faults)) 2 s := by
  unfold Store.enterLockedCode
  refine (yields_loadPlayerRow _).bind ?_
  rintro (_ | state) n₁ s₁ ⟨rfl, hloaded⟩
  · rw [hloaded]
    exact answers_refuseEnter (by simp) _
  · obtain ⟨rfl, player, hplayer, hid, hlevel, hstamina⟩ := hloaded
    rw [hplayer]
    dsimp only
    rw [hlevel, hstamina]
    split
    · exact answers_refuseEnter (by simp) _
    · split
      · exact answers_refuseEnter (by simp) _
      · refine (yields_generateBattleId _ _).bind ?_
        rintro battleId _ s₂ ⟨rfl, hmysql, rfl⟩
        -- neither the lock nor the battle number touches MySQL
        have hfree₂ : (s₂.Accessible i (.asset state.profile.playerId) ∧ s₂.Accessible i
            (.battle (DungeonService.battleIdText request.playerId request.dungeonId
              (s₁.sequence i)))) ∨ stuck := by
          rw [← hid, Store.Accessible, Store.Accessible, hmysql]
          exact hfree
        refine (yields_repository_enterDungeon state _ hfree₂).bind ?_
        rintro result n₃ s₃ hresult
        rw [hmysql, ← hid] at hresult
        cases hcode : enterResult cfg (s₁.mysql.view i) request.playerId
            (DungeonService.battleIdText request.playerId request.dungeonId (s₁.sequence i))
            faults 5 with
        | error message =>
          rw [hcode] at hresult
          obtain ⟨hfail, rfl⟩ := hresult
          simp only [hfail, Bool.not_false, if_true]
          exact answers_refuseEnter (enterErrorCode_ne_ok _) _
        | ok u =>
          rw [hcode] at hresult
          simp only [hresult, Bool.not_true, Bool.false_eq_true, if_false]
          refine (yields_hSet_top _ _ _ _ _).bind fun _ _ _ _ => ?_
          exact (yields_redis_top _ _ _).bind fun _ _ _ _ => ⟨rfl, by simp⟩

/-- `EnterDungeon` follows the table. -/
theorem yields_enterDungeon (request : EnterDungeonRequest)
    (hdecode : (∀ values, s.redis.hGetAll (.session request.sessionId) = some values →
      RedisSessionRepository.decode request.sessionId values = none → stuck))
    (hrows : s.EntryFree i request ∨ stuck) :
    (DungeonService.enterDungeon env request).Yields (Store.failing i) faults stuck
      (fun response _ _ => Answers response.errorCode response.success
        (s.enterCode env i request faults)) 0 s := by
  unfold Store.enterCode
  refine (yields_findById _ hdecode).bind ?_
  rintro session _ s₁ ⟨rfl, rfl, rfl⟩
  have hadmits := not_admitted_iff faults s₁.redis request.sessionId request.playerId
  by_cases hno : faults 0 = none ∧ s₁.redis.Admits request.sessionId request.playerId
  · rw [if_neg (not_not_intro hno ∘ hadmits.mp), if_neg (not_not_intro hno)]
    unfold InMemoryDungeonConfigRepository.findByDungeonId
    by_cases hdungeon : request.dungeonId ≠ env.dungeonConfig.dungeonId
    · rw [if_pos hdungeon, if_pos hdungeon]
      exact answers_refuseEnter (by simp) _
    · rw [if_neg hdungeon, if_neg hdungeon]
      refine (yields_acquire request.playerId).bind ?_
      rintro acquired _ s₂ ⟨rfl, hs₂, hacquired⟩
      by_cases hfree : s₁.Locks request.playerId faults
      · rw [if_neg (not_not_intro hfree)]
        obtain rfl := hacquired.mpr hfree
        have hmysql : s₂.mysql = s₁.mysql := by rw [hs₂, if_pos hfree.1]; rfl
        have hsequence : s₂.sequence = s₁.sequence := by rw [hs₂, if_pos hfree.1]; rfl
        have hfree₂ : s₂.EntryFree i request ∨ stuck := by
          rw [Store.EntryFree, Store.Accessible, Store.Accessible, hmysql, hsequence]
          exact hrows
        refine (yields_enterLocked request hfree₂).bind ?_
        rintro response n₃ s₃ hresponse
        rw [Store.enterLockedCode, hmysql, hsequence] at hresponse
        exact (yields_redis_top _ _ _).bind fun _ _ _ _ => hresponse
      · rw [if_pos hfree]
        obtain rfl : acquired = false := Bool.eq_false_iff.mpr (hfree ∘ hacquired.mp)
        exact answers_refuseEnter (by simp) _
  · rw [if_pos (hadmits.mpr hno), if_pos hno]
    exact answers_refuseEnter (by simp) _

/-! ## Eligible players -/

/-- Nothing in the store keeps the player from entering: the session is live, the
dungeon is configured, the player's lock is free, level and stamina are enough, there
is no pending battle, the battle id is new, and the deduction fits its column. -/
structure Store.Eligible (env : Env) (s : Store ι) (i : ι) (request : EnterDungeonRequest) :
    Prop where
  session : s.redis.Admits request.sessionId request.playerId
  dungeon : request.dungeonId = env.dungeonConfig.dungeonId
  lock : s.redis.live (.playerLock request.playerId) = none
  player : ∃ r, (s.mysql.view i).player.find request.playerId = some r ∧
    env.dungeonConfig.requiredLevel ≤ r.level
  asset : ∃ a, (s.mysql.view i).playerAsset.find request.playerId = some a ∧
    env.dungeonConfig.costStamina ≤ a.stamina ∧
    inInt (a.stamina - env.dungeonConfig.costStamina) = true
  idle : ¬(s.mysql.view i).HasPending request.playerId
  unused : (s.mysql.view i).dungeonBattle.find
    (DungeonService.battleIdText request.playerId request.dungeonId (s.sequence i)) = none

omit [DecidableEq ι] in
theorem Store.Eligible.stamina {request : EnterDungeonRequest} (h : s.Eligible env i request) :
    env.dungeonConfig.costStamina ≤ (s.mysql.view i).stamina request.playerId := by
  obtain ⟨a, ha, henough, -⟩ := h.asset
  simpa [Tables.stamina, ha] using henough

omit [DecidableEq ι] in
/-- An eligible player pays when there is something to pay. -/
theorem Store.Eligible.pays {request : EnterDungeonRequest} (h : s.Eligible env i request) :
    (s.mysql.view i).Pays request.playerId env.dungeonConfig.costStamina ↔
      env.dungeonConfig.costStamina ≠ 0 :=
  ⟨And.left, fun hcost => ⟨hcost, h.asset⟩⟩

omit [DecidableEq ι] in
/-- What the table says about an eligible player when nothing fails. -/
theorem Store.Eligible.enterCode {request : EnterDungeonRequest} (h : s.Eligible env i request) :
    s.enterCode env i request (fun _ => none) =
      if env.dungeonConfig.costStamina = 0 then .staminaNotEnough else .ok := by
  obtain ⟨player, hplayer, hlevel⟩ := h.player
  rw [Store.enterCode, Store.enterLockedCode]
  simp only [h.session, h.dungeon, Store.Locks, h.lock, hplayer, and_self, not_true_eq_false,
    if_false, ne_eq, if_true, not_lt.mpr hlevel, not_lt.mpr h.stamina, enterResult, entryResult,
    h.idle, and_false, h.pays]
  have hunused := h.unused
  rw [h.dungeon] at hunused
  by_cases hcost : env.dungeonConfig.costStamina = 0
  · simp [hcost, DungeonService.enterErrorCode]
  · simp [hcost, hunused]

/-- **An eligible player enters**, when no command fails, unless entering is free: then
the answer is `kStaminaNotEnough`. -/
theorem eligible_player_enters {request : EnterDungeonRequest} (h : s.Eligible env i request) :
    (s.EntryFree i request → ∃ response s', s.runFailing i
      (DungeonService.enterDungeon env request) (fun _ => none) = some (response, s')) ∧
    ∀ response s', s.runFailing i (DungeonService.enterDungeon env request) (fun _ => none) =
      some (response, s') → (response.success = true ↔ env.dungeonConfig.costStamina ≠ 0) := by
  constructor
  · intro hfree
    obtain ⟨session, hsession, -⟩ := Option.map_eq_some_iff.mp h.session
    have hreadable : ∀ values, s.redis.hGetAll (.session request.sessionId) = some values →
        RedisSessionRepository.decode request.sessionId values ≠ none :=
      fun _ => Redis.readable_of_session hsession
    exact (yields_enterDungeon request hreadable (.inl hfree)).runFailing_returns id
  · intro response s' hrun
    obtain ⟨_, -, hsuccess⟩ := (yields_enterDungeon request (fun _ _ _ => trivial)
      (.inr trivial)).runFailing hrun
    rw [hsuccess, h.enterCode]
    by_cases hcost : env.dungeonConfig.costStamina = 0
    · simp [hcost]
    · simp [hcost]

/-- The first player of the demo data is eligible for a dungeon that costs up to all
of their stamina. -/
theorem eligible_demo (cost : ℤ) (hcost : 0 ≤ cost ∧ cost ≤ 120) :
    demoWorld.store.Eligible
      { demoEnv with dungeonConfig := { dungeonId := 1001, costStamina := cost } }
      false ⟨"s", 20001, 1001⟩ where
  session := rfl
  dungeon := rfl
  lock := rfl
  player := ⟨⟨20001, 10001, "hero_demo", 10⟩, rfl, (by decide : (1 : ℤ) ≤ 10)⟩
  asset := by
    refine ⟨⟨20001, 120, 1000, 100⟩, rfl, hcost.2, ?_⟩
    simp only [inInt, decide_eq_true_eq]
    omega
  idle := by decide +kernel
  unused := rfl

theorem eligible_player_enters_demo :
    ∃ response s', demoWorld.store.runFailing false
        (DungeonService.enterDungeon demoEnv ⟨"s", 20001, 1001⟩) (fun _ => none) =
      some (response, s') ∧ response.success = true := by
  obtain ⟨hreturns, hsuccess⟩ := eligible_player_enters (eligible_demo 10 (by decide))
  obtain ⟨response, s', hrun⟩ := hreturns ⟨.inl rfl, .inl rfl⟩
  exact ⟨response, s', hrun, (hsuccess response s' hrun).mpr (by decide)⟩

/-- A dungeon that costs nothing lets nobody in. -/
theorem free_dungeon_refuses :
    ¬∀ (env : Env) (s : Store Bool) (i : Bool) (request : EnterDungeonRequest),
      s.Eligible env i request → s.EntryFree i request →
      ∃ response s', s.runFailing i (DungeonService.enterDungeon env request) (fun _ => none) =
        some (response, s') ∧ response.success = true := by
  intro h
  obtain ⟨response, s', hrun, hsuccess⟩ := h _ _ _ _ (eligible_demo 0 (by decide))
    ⟨.inl rfl, .inl rfl⟩
  have hrefused : (demoWorld.store.runFailing false (DungeonService.enterDungeon
      { demoEnv with dungeonConfig := { dungeonId := 1001, costStamina := 0 } }
      ⟨"s", 20001, 1001⟩) (fun _ => none)).all (fun r => !r.1.success) = true := by
    decide +kernel
  rw [hrun] at hrefused
  simp [hsuccess] at hrefused

end GameBackend
