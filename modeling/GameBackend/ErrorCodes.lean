import GameBackend.Eligibility

/-!
# Error codes

Whether the error code of a dungeon request tells the truth about the store, when the
request is processed alone and any command may fail. Of a settlement command 0 looks
up the session, 1 acquires the lock, 2 reads the context and, if there is none, 3 the
battle; the next ones ask for the first clear, open the transaction and mark the
battle as settled.

A `SELECT` that fails looks like a missing row, a `SET NX` that fails like a lock that
is held, and an `UPDATE` that fails like one that changed no row.
-/

namespace GameBackend

variable {ι : Type} [DecidableEq ι] {env : Env} {i : ι} {s : Store ι} {cfg : DungeonConfig}
  {t : Tables} {p : ℤ} {faults : ℕ → Option String} {n : ℕ}

/-! ## What the codes say -/

/-- The error texts of the repositories themselves. -/
def ownTexts : List String :=
  ["stamina not enough", "unfinished battle exists", "battle already settled"]

/-- The messages of MySQL are none of them. -/
def ForeignTexts (faults : ℕ → Option String) : Prop :=
  ∀ n, ∀ message ∈ faults n, message ∉ ownTexts

/-- One command fails. -/
theorem ForeignTexts.single {k : ℕ} {message : String} (h : message ∉ ownTexts) :
    ForeignTexts fun n => if n = k then some message else none := by
  intro n other hother
  dsimp only at hother
  split at hother
  · exact Option.some.inj hother ▸ h
  · cases hother

/-- The battle has not been settled. -/
def Tables.Unsettled (t : Tables) (battleId : String) : Prop :=
  ∃ row ∈ t.dungeonBattle.find battleId, row.status = 0

instance (t : Tables) (battleId : String) : Decidable (t.Unsettled battleId) :=
  inferInstanceAs (Decidable (∃ row ∈ t.dungeonBattle.find battleId, _))

/-- The battle has been settled. -/
def Tables.HasSettled (t : Tables) (battleId : String) : Prop :=
  ∃ row ∈ t.dungeonBattle.find battleId, row.status = 1

/-- The lock of player `p` is held, or they have an unfinished battle. -/
def Store.Busy (s : Store ι) (i : ι) (p : ℤ) : Prop :=
  (s.redis.live (.playerLock p)).isSome = true ∨ (s.mysql.view i).HasPending p

/-- What a code says about the store, to player `p` with a request about this battle. -/
def Store.TellsTruth (s : Store ι) (i : ι) (cfg : DungeonConfig) (p : ℤ)
    (battle : Option String) : ErrorCode → Prop
  | .staminaNotEnough => (s.mysql.view i).stamina p < cfg.costStamina
  | .battleAlreadySettled => ∃ b ∈ battle, (s.mysql.view i).HasSettled b
  | .battleNotFound => ∃ b ∈ battle, (s.mysql.view i).dungeonBattle.find b = none
  | .playerNotFound => (s.mysql.view i).player.find p = none
  | .playerBusy => s.Busy i p
  | _ => True

/-- Nothing in the store keeps the battle from being settled. -/
structure Store.Settleable (env : Env) (s : Store ι) (i : ι) (request : SettleDungeonRequest) :
    Prop where
  result : request.result = true
  session : s.redis.Admits request.sessionId request.playerId
  dungeon : request.dungeonId = env.dungeonConfig.dungeonId
  star : ¬(request.star ≤ 0 ∨ request.star > env.dungeonConfig.maxStar)
  lock : s.redis.live (.playerLock request.playerId) = none
  battle : ∃ row, (s.mysql.view i).dungeonBattle.find request.battleId = some row ∧
    row.playerId = request.playerId ∧ row.dungeonId = request.dungeonId ∧ row.status = 0
  context : ∀ context, s.redis.context request.battleId = some context →
    context.playerId = request.playerId ∧ context.dungeonId = request.dungeonId ∧
      context.settled = false

/-- The answer tells the truth: its code is right about the store, and a request that
only a failing store keeps from succeeding is answered `kStorageError`. -/
def Truthful (truth : ErrorCode → Prop) (granted : Prop) (code : ErrorCode) (success : Bool) :
    Prop :=
  truth code ∧ (granted → success = true ∨ code = .storageError)

/-! ## The answer to a settlement -/

/-- The context a settlement works with, and its next command. -/
def Store.consulted (s : Store ι) (i : ι) (battleId : String) (faults : ℕ → Option String) :
    Option (BattleContext × ℕ) :=
  match if faults 2 = none then s.redis.context battleId else none with
  | some context => some (context, 3)
  | none => (if faults 3 = none then (s.mysql.view i).battle battleId else none).map (·, 4)

/-- What the transaction of a settlement can come to; command `n` asks for the first
clear. -/
def SettleResult (t : Tables) (battleId : String) (faults : ℕ → Option String) (n : ℕ)
    (code : ErrorCode) : Prop :=
  if faults (n + 1) = none ∧ (faults (n + 2) ≠ none ∨ ¬t.Unsettled battleId) then
    code = .battleAlreadySettled
  else code = .storageError ∨ code = .ok

/-- What is answered with the lock held. -/
def Store.SettleLocked (s : Store ι) (i : ι) (request : SettleDungeonRequest)
    (faults : ℕ → Option String) (code : ErrorCode) : Prop :=
  match s.consulted i request.battleId faults with
  | none => code = .battleNotFound
  | some (context, n) =>
    if context.playerId ≠ request.playerId ∨ context.dungeonId ≠ request.dungeonId then
      code = .battleMismatch
    else if context.settled then code = .battleAlreadySettled
    else SettleResult (s.mysql.view i) request.battleId faults n code

/-- The decision table of `SettleDungeon`. -/
def Store.SettleCode (env : Env) (s : Store ι) (i : ι) (request : SettleDungeonRequest)
    (faults : ℕ → Option String) (code : ErrorCode) : Prop :=
  if request.result = false then code = .storageError
  else if ¬(faults 0 = none ∧ s.redis.Admits request.sessionId request.playerId) then
    code = .sessionInvalid
  else if request.dungeonId ≠ env.dungeonConfig.dungeonId then code = .dungeonNotFound
  else if request.star ≤ 0 ∨ request.star > env.dungeonConfig.maxStar then code = .invalidStar
  else if ¬s.Locks request.playerId faults then code = .playerBusy
  else s.SettleLocked i request faults code

theorem affectedOne_finish (t : Tables) (battleId : String) :
    MySqlDungeonRepository.affectedOne "battle already settled"
        (SqlWrite.answer ((SqlWrite.updateBattle battleId).run t)) =
      if t.Unsettled battleId then .ok () else .error "battle already settled" := by
  by_cases hunsettled : t.Unsettled battleId
  · obtain ⟨row, hrow, hstatus⟩ := hunsettled
    rw [if_pos ⟨row, hrow, hstatus⟩]
    simp [SqlWrite.run, Option.mem_def.mp hrow, hstatus, SqlWrite.answer,
      MySqlDungeonRepository.affectedOne]
  · rw [if_neg hunsettled, SqlWrite.run]
    split
    · rfl
    · rename_i row hrow
      rw [if_neg fun hstatus => hunsettled ⟨row, hrow, hstatus⟩]
      rfl

/-- A rejected statement has a message of MySQL. -/
theorem foreign_of_rejected {w : SqlWrite} {message : String} (h : w.run t = .rejected message) :
    message ∉ ownTexts := by
  cases w with
  | updateAssetStamina p c =>
    simp only [SqlWrite.run] at h
    repeat' split at h
    all_goals cases h
    simp [ownTexts]
  | insertBattle row =>
    simp only [SqlWrite.run] at h
    split at h <;> cases h
    simp [ownTexts]
  | updateBattle b =>
    simp only [SqlWrite.run] at h
    repeat' split at h
    all_goals cases h
  | updateAssetReward p g m =>
    simp only [SqlWrite.run] at h
    repeat' split at h
    all_goals cases h
    simp [ownTexts]
  | upsertProgress p d star first =>
    simp only [SqlWrite.run] at h
    repeat' split at h
    all_goals cases h
    simp [ownTexts]
  | insertRewardLog row =>
    simp only [SqlWrite.run] at h
    split at h <;> cases h
    simp [ownTexts]

/-- A failure that is not one of the repositories' own. -/
def Foreign {α : Type} (r : Except String α) : Prop :=
  ∀ message, r = .error message → message ∉ ownTexts

theorem yields_execute_foreign {ws : List SqlWrite} (hopen : s.mysql.txns i = some ws)
    (hforeign : ForeignTexts faults) (w : SqlWrite) :
    (MySqlClient.execute w).Yields (Store.failing i) faults True (fun r _ s' =>
      (∃ ws', s'.mysql.txns i = some ws') ∧ Foreign r) n s := by
  refine (yields_execute hopen w (.inr trivial)).mono ?_
  rintro r _ s' ⟨rfl, hopen', -, ⟨message, hfault, rfl, -⟩ | ⟨-, rfl, -⟩⟩
  · refine ⟨hopen', ?_⟩
    rintro _ ⟨⟩
    exact hforeign n message hfault
  · refine ⟨hopen', fun message hmessage => ?_⟩
    cases hrun : w.run (s.mysql.view i) with
    | rejected message' =>
      rw [hrun] at hmessage
      cases hmessage
      exact foreign_of_rejected hrun
    | unmatched =>
      rw [hrun] at hmessage
      cases hmessage
    | hit t affected =>
      rw [hrun] at hmessage
      cases hmessage

/-- Behind the statement that marks the battle only MySQL's own messages come up. -/
theorem yields_settleStatements {ws : List SqlWrite} (hopen : s.mysql.txns i = some ws)
    (hforeign : ForeignTexts faults) (context : BattleContext) (star : ℤ) (firstClear : Bool) :
    (MySqlDungeonRepository.settleStatements context cfg star firstClear).Yields (Store.failing i)
      faults True (fun r _ _ =>
        if faults n = none ∧ (s.mysql.view i).Unsettled context.battleId then Foreign r
        else r = .error "battle already settled") n s := by
  -- whoever fails to mark the battle is told that it is settled, also by a lost connection
  refine (yields_execute hopen (.updateBattle context.battleId) (.inr trivial)).bind ?_
  rintro marked _ s₁ ⟨rfl, ⟨ws₁, hopen₁⟩, -, hmarked⟩
  by_cases hmark : faults n = none ∧ (s.mysql.view i).Unsettled context.battleId
  · obtain ⟨message, hfault, -⟩ | ⟨-, rfl, -⟩ := hmarked
    · rw [hmark.1] at hfault
      cases hfault
    rw [affectedOne_finish, if_pos hmark.2]
    refine Prog.Yields.mono (fun r _ _ (hr : Foreign r) => by rwa [if_pos hmark]) ?_
    refine (yields_execute_foreign hopen₁ hforeign _).bind ?_
    rintro (message | _) _ s₂ ⟨⟨ws₂, hopen₂⟩, hr₂⟩
    · exact fun m hm => hr₂ m (by cases hm; rfl)
    refine (yields_execute_foreign hopen₂ hforeign _).bind ?_
    rintro (message | _) _ s₃ ⟨⟨ws₃, hopen₃⟩, hr₃⟩
    · exact fun m hm => hr₃ m (by cases hm; rfl)
    refine (yields_execute_foreign hopen₃ hforeign _).bind ?_
    rintro (message | _) _ s₄ ⟨⟨ws₄, hopen₄⟩, hr₄⟩
    · exact fun m hm => hr₄ m (by cases hm; rfl)
    dsimp only
    split
    · refine (yields_execute_foreign hopen₄ hforeign _).bind ?_
      rintro (message | _) _ s₅ ⟨-, hr₅⟩
      · exact fun m hm => hr₅ m (by cases hm; rfl)
      · exact fun m hm => by cases hm
    · exact fun m hm => by cases hm
  · have hfailed : MySqlDungeonRepository.affectedOne "battle already settled" marked =
        .error "battle already settled" := by
      obtain ⟨message, -, rfl, -⟩ | ⟨hfault, rfl, -⟩ := hmarked
      · rfl
      · rw [affectedOne_finish, if_neg fun h => hmark ⟨hfault, h⟩]
    rw [hfailed]
    exact (show if _ then Foreign (.error "battle already settled" : Except String Unit) else _ by
      rw [if_neg hmark])

/-- The transaction of a settlement. -/
theorem yields_repository_settleDungeon (hforeign : ForeignTexts faults)
    (context : BattleContext) (star : ℤ) :
    (MySqlDungeonRepository.settleDungeon context cfg star).Yields (Store.failing i) faults True
      (fun result _ _ =>
        if faults (n + 1) = none ∧
            (faults (n + 2) ≠ none ∨ ¬(s.mysql.view i).Unsettled context.battleId) then
          result.success = false ∧ result.errorMessage = "battle already settled"
        else result.success = true ∨
          result.success = false ∧ result.errorMessage ∉ ownTexts) n s := by
  refine (yields_queryOne _).bind ?_
  rintro first _ s₁ ⟨rfl, rfl, -⟩
  refine yields_beginTransaction.bind ?_
  rintro r _ s₂ ⟨rfl, ⟨message, hfault, rfl⟩ | ⟨hfault, rfl, hopen, hview, -⟩⟩
  · have hbegin : ¬(faults (n + 1) = none ∧ (faults (n + 2) ≠ none ∨
        ¬(s₁.mysql.view i).Unsettled context.battleId)) := by simp [hfault]
    exact (show if _ then _ else _ by
      rw [if_neg hbegin]
      exact .inr ⟨rfl, hforeign _ message hfault⟩)
  · refine (yields_settleStatements hopen hforeign context star _).bind ?_
    rintro transaction n₃ s₃ htransaction
    rw [hview] at htransaction
    refine (yields_finishTransaction transaction).bind ?_
    rintro r n₄ s₄ rfl
    by_cases hmark : faults (n + 1 + 1) = none ∧ (s₁.mysql.view i).Unsettled context.battleId
    · rw [if_pos hmark] at htransaction
      have hgood : ¬(faults (n + 1) = none ∧ (faults (n + 2) ≠ none ∨
          ¬(s₁.mysql.view i).Unsettled context.battleId)) := by simp [hmark.1, hmark.2]
      simp only [if_neg hgood]
      cases transaction with
      | error message => exact .inr ⟨rfl, htransaction message rfl⟩
      | ok u =>
        dsimp only
        cases hcommit : faults n₃ with
        | some message => exact .inr ⟨rfl, hforeign n₃ message hcommit⟩
        | none => exact .inl rfl
    · rw [if_neg hmark] at htransaction
      obtain rfl := htransaction
      have hbad : faults (n + 1) = none ∧ (faults (n + 2) ≠ none ∨
          ¬(s₁.mysql.view i).Unsettled context.battleId) :=
        ⟨hfault, by by_contra h; exact hmark (by simpa [not_or] using h)⟩
      simp only [if_pos hbad]
      exact ⟨rfl, rfl⟩

theorem yields_findBattle (battleId : String) :
    (DungeonService.findBattle battleId).Yields (Store.failing i) faults True
      (fun context n' s' => s' = s ∧ s.consulted i battleId faults = context.map (·, n') ∧
        ∀ c ∈ context, BattleContext.battleId c = battleId) 2 s := by
  refine (yields_findByBattleId battleId fun _ _ _ => trivial).bind ?_
  rintro context _ _ ⟨rfl, rfl, hcontext⟩
  -- the row in MySQL is asked for only if Redis has no context, or did not answer
  cases context with
  | some context =>
    refine ⟨rfl, by rw [Store.consulted, ← hcontext]; rfl, ?_⟩
    rintro _ ⟨⟩
    by_cases hfault : faults 2 = none
    · rw [if_pos hfault] at hcontext
      obtain ⟨values, -, hdecode⟩ := Option.bind_eq_some_iff.mp hcontext.symm
      exact RedisBattleContextRepository.battleId_decode hdecode
    · rw [if_neg hfault] at hcontext
      cases hcontext
  | none =>
    refine (yields_findBattleById battleId).mono ?_
    rintro found _ _ ⟨rfl, rfl, hfound⟩
    refine ⟨rfl, by rw [Store.consulted, ← hcontext, ← hfound], ?_⟩
    rintro c ⟨⟩
    by_cases hfault : faults (2 + 1) = none
    · rw [if_pos hfault] at hfound
      obtain ⟨row, hrow, rfl⟩ := Option.map_eq_some_iff.mp hfound.symm
      have hkey : row.battleId = battleId := Table.key_of_find hrow
      exact hkey
    · rw [if_neg hfault] at hfound
      cases hfound

/-- Success is what `kOk` stands for. -/
def Consistent (code : ErrorCode) (success : Bool) : Prop := success = true ↔ code = .ok

theorem consistent_refuseSettle {code : ErrorCode} (h : code ≠ .ok) (message : String) :
    Consistent (DungeonService.refuseSettle code message).errorCode
      (DungeonService.refuseSettle code message).success := by
  simp [Consistent, DungeonService.refuseSettle, h]

theorem yields_settleLocked (hforeign : ForeignTexts faults) (request : SettleDungeonRequest) :
    (DungeonService.settleLocked cfg request).Yields (Store.failing i) faults True
      (fun response _ _ => s.SettleLocked i request faults response.errorCode ∧
        Consistent response.errorCode response.success) 2 s := by
  refine (yields_findBattle _).bind ?_
  rintro context n s₁ ⟨rfl, hconsulted, hbattle⟩
  cases context with
  | none =>
    refine ⟨?_, consistent_refuseSettle (by simp) _⟩
    rw [Store.SettleLocked, hconsulted]
    exact rfl
  | some context =>
    obtain hb : context.battleId = request.battleId := hbattle context rfl
    dsimp only
    split
    · rename_i hmismatch
      refine ⟨?_, consistent_refuseSettle (by simp) _⟩
      simp only [Store.SettleLocked, hconsulted, Option.map_some, if_pos hmismatch]
      rfl
    · rename_i hmatch
      split
      · rename_i hsettled
        refine ⟨?_, consistent_refuseSettle (by simp) _⟩
        simp only [Store.SettleLocked, hconsulted, Option.map_some, if_neg hmatch, if_pos hsettled]
        rfl
      · rename_i hopen
        refine (yields_repository_settleDungeon hforeign context request.star).bind ?_
        rintro result n₂ s₂ hresult
        simp only [Store.SettleLocked, hconsulted, Option.map_some, if_neg hmatch, if_neg hopen,
          SettleResult]
        rw [hb] at hresult
        split at hresult
        · rename_i hbad
          obtain ⟨hfail, htext⟩ := hresult
          simp only [hfail, Bool.not_false, if_true, htext, if_pos hbad]
          exact ⟨rfl, consistent_refuseSettle (by simp [DungeonService.settleErrorCode]) _⟩
        · rename_i hgood
          simp only [if_neg hgood]
          rcases hresult with hok | ⟨hfail, htext⟩
          · simp only [hok, Bool.not_true, Bool.false_eq_true, if_false]
            refine (yields_redis_top _ _ _).bind fun _ _ _ _ => ?_
            exact (yields_redis_top _ _ _).bind fun _ _ _ _ => ⟨.inr rfl, by simp [Consistent]⟩
          · have hcode : DungeonService.settleErrorCode result.errorMessage = .storageError := by
              rw [DungeonService.settleErrorCode, if_neg]
              rintro htext'
              exact htext (by simp [ownTexts, htext'])
            simp only [hfail, Bool.not_false, if_true, hcode]
            exact ⟨.inl rfl, consistent_refuseSettle (by simp) _⟩

/-- `SettleDungeon` follows the table. -/
theorem yields_settleDungeon (hforeign : ForeignTexts faults) (request : SettleDungeonRequest) :
    (DungeonService.settleDungeon env request).Yields (Store.failing i) faults True
      (fun response _ _ => s.SettleCode env i request faults response.errorCode ∧
        Consistent response.errorCode response.success) 0 s := by
  unfold Store.SettleCode DungeonService.settleDungeon
  by_cases hresult : request.result = false
  · simp only [hresult, Bool.not_false, if_true]
    exact ⟨rfl, consistent_refuseSettle (by simp) _⟩
  have hasked : request.result = true := by simpa using hresult
  simp only [hasked, Bool.not_true, Bool.false_eq_true, if_false, Bool.true_eq_false]
  refine (yields_findById _ fun _ _ _ => trivial).bind ?_
  rintro session _ s₁ ⟨rfl, rfl, rfl⟩
  have hadmits := not_admitted_iff faults s₁.redis request.sessionId request.playerId
  by_cases hno : ¬(faults 0 = none ∧ s₁.redis.Admits request.sessionId request.playerId)
  · simp only [if_pos hno, if_pos (hadmits.mpr hno)]
    exact ⟨rfl, consistent_refuseSettle (by simp) _⟩
  simp only [if_neg hno, if_neg (hno ∘ hadmits.mp)]
  unfold InMemoryDungeonConfigRepository.findByDungeonId
  by_cases hdungeon : request.dungeonId ≠ env.dungeonConfig.dungeonId
  · simp only [if_pos hdungeon]
    exact ⟨rfl, consistent_refuseSettle (by simp) _⟩
  simp only [if_neg hdungeon]
  by_cases hstar : request.star ≤ 0 ∨ request.star > env.dungeonConfig.maxStar
  · simp only [if_pos hstar]
    exact ⟨rfl, consistent_refuseSettle (by simp) _⟩
  simp only [if_neg hstar]
  refine (yields_acquire request.playerId).bind ?_
  rintro acquired _ s₂ ⟨rfl, hs₂, hacquired⟩
  by_cases hfree : s₁.Locks request.playerId faults
  · simp only [if_neg (not_not_intro hfree)]
    obtain rfl := hacquired.mpr hfree
    rw [if_pos hfree.1] at hs₂
    refine (yields_settleLocked hforeign request).bind ?_
    rintro response n₃ s₃ ⟨hcode, hconsistent⟩
    -- the lock is a key of its own, so the table reads the same with it held
    have hsame : s₂.SettleLocked i request faults response.errorCode ↔
        s₁.SettleLocked i request faults response.errorCode := by
      rw [hs₂, Store.SettleLocked, Store.SettleLocked, Store.consulted, Store.consulted,
        Store.context_attemptLock]
      rfl
    exact (yields_redis_top _ _ _).bind fun _ _ _ _ => ⟨hsame.mp hcode, hconsistent⟩
  · simp only [if_pos hfree]
    obtain rfl : acquired = false := Bool.eq_false_iff.mpr (hfree ∘ hacquired.mp)
    exact ⟨rfl, consistent_refuseSettle (by simp) _⟩

/-! ## When the codes tell the truth -/

section Enter

variable {request : EnterDungeonRequest}

/-- The request is admitted. -/
def Store.EnterAsked (env : Env) (s : Store ι) (request : EnterDungeonRequest)
    (faults : ℕ → Option String) : Prop :=
  (faults 0 = none ∧ s.redis.Admits request.sessionId request.playerId) ∧
    request.dungeonId = env.dungeonConfig.dungeonId

/-- The faults under which `EnterDungeon` answers truthfully. -/
structure Store.EnterSound (env : Env) (s : Store ι) (i : ι) (request : EnterDungeonRequest)
    (faults : ℕ → Option String) : Prop where
  /-- the session of an eligible player can be looked up -/
  session : faults 0 ≠ none → ¬s.Eligible env i request
  /-- `SET NX` does not fail, unless the player is busy -/
  lock : s.EnterAsked env request faults → faults 1 ≠ none → s.Busy i request.playerId
  /-- the player can be loaded, unless there is none -/
  player : s.EnterAsked env request faults → s.Locks request.playerId faults →
    faults 2 ≠ none → (s.mysql.view i).player.find request.playerId = none
  /-- the `UPDATE` that takes the stamina does not fail and changes the row -/
  payment : s.EnterAsked env request faults → s.Locks request.playerId faults →
    faults 2 = none → ∀ player, (s.mysql.view i).player.find request.playerId = some player →
    env.dungeonConfig.requiredLevel ≤ player.level →
    env.dungeonConfig.costStamina ≤ (s.mysql.view i).stamina request.playerId →
    faults 5 = none → ¬(faults 6 = none ∧ (s.mysql.view i).HasPending request.playerId) →
    faults 7 = none ∧ (s.mysql.view i).Pays request.playerId env.dungeonConfig.costStamina

omit [DecidableEq ι] in
/-- Nobody eligible is busy. -/
theorem Store.Eligible.not_busy (h : s.Eligible env i request) : ¬s.Busy i request.playerId := by
  rintro (hlock | hpending)
  · rw [h.lock] at hlock
    cases hlock
  · exact h.idle hpending

/-- A refusal with a code that is not `kStorageError`. -/
theorem truthful_refused {truth : ErrorCode → Prop} {granted : Prop} {code : ErrorCode}
    {success : Bool} (hcode : code ≠ .ok) (hstorage : code ≠ .storageError)
    (hsuccess : success = true ↔ code = .ok) :
    Truthful truth granted code success ↔ truth code ∧ ¬granted := by
  have hfail : success ≠ true := hcode ∘ hsuccess.mp
  simp [Truthful, hfail, hstorage]

/-- A success, or a store that fails. -/
theorem truthful_storage {truth : ErrorCode → Prop} {granted : Prop} {code : ErrorCode}
    {success : Bool} (hcode : code = .storageError ∨ code = .ok)
    (htruth : truth .storageError ∧ truth .ok) (hsuccess : success = true ↔ code = .ok) :
    Truthful truth granted code success := by
  rcases hcode with rfl | rfl
  · exact ⟨htruth.1, fun _ => .inr rfl⟩
  · exact ⟨htruth.2, fun _ => .inl (hsuccess.mpr rfl)⟩

theorem enterErrorCode_foreign {message : String} (h : message ∉ ownTexts) :
    DungeonService.enterErrorCode message = .storageError := by
  simp only [ownTexts, List.mem_cons, List.not_mem_nil, or_false, not_or] at h
  rw [DungeonService.enterErrorCode, if_neg h.1, if_neg h.2.1]

/-- The transaction fails on the payment, or with a pending battle, or because of the
store. -/
theorem enterResult_cases (hforeign : ForeignTexts faults) (battleId : String) :
    (faults 5 = none ∧ (faults 6 = none ∧ t.HasPending p) ∧
      enterResult cfg t p battleId faults 5 = .error "unfinished battle exists") ∨
    (faults 5 = none ∧ ¬(faults 6 = none ∧ t.HasPending p) ∧
      (faults 7 ≠ none ∨ ¬t.Pays p cfg.costStamina) ∧
      enterResult cfg t p battleId faults 5 = .error "stamina not enough") ∨
    ((faults 5 = none → ¬(faults 6 = none ∧ t.HasPending p) →
        faults 7 = none ∧ t.Pays p cfg.costStamina) ∧
      ∀ message, enterResult cfg t p battleId faults 5 = .error message →
        message ∉ ownTexts) := by
  unfold enterResult entryResult
  cases hbegin : faults 5 with
  | some message =>
    refine .inr (.inr ⟨nofun, ?_⟩)
    rintro _ ⟨⟩
    exact hforeign 5 message hbegin
  | none =>
    by_cases hpending : faults (5 + 1) = none ∧ t.HasPending p
    · exact .inl ⟨rfl, hpending, by simp only [if_pos hpending]⟩
    · by_cases hpaid : faults (5 + 1 + 1) ≠ none ∨ ¬t.Pays p cfg.costStamina
      · exact .inr (.inl ⟨rfl, hpending, hpaid, by simp only [if_neg hpending, if_pos hpaid]⟩)
      · refine .inr (.inr ⟨fun _ _ => ?_, ?_⟩)
        · simpa only [not_or, not_not] using hpaid
        · simp only [if_neg hpending, if_neg hpaid]
          intro message hmessage
          cases hinsert : faults (5 + 1 + 2) with
          | some text =>
            rw [hinsert] at hmessage
            cases hmessage
            exact hforeign _ _ hinsert
          | none =>
            by_cases hused : (t.dungeonBattle.find battleId).isSome = true
            · simp only [hinsert, if_pos hused, Except.error.injEq] at hmessage
              subst hmessage
              simp [ownTexts]
            · simp only [hinsert, if_neg hused] at hmessage
              cases hcommit : faults (5 + 4) with
              | some text =>
                rw [hcommit] at hmessage
                cases hmessage
                exact hforeign _ _ hcommit
              | none =>
                rw [hcommit] at hmessage
                cases hmessage

omit [DecidableEq ι] in
/-- A request that is not admitted needs its session at most. -/
theorem Store.EnterSound.of_not_asked (hunasked : ¬s.EnterAsked env request faults)
    (hsession : faults 0 ≠ none → ¬s.Eligible env i request) :
    s.EnterSound env i request faults where
  session := hsession
  lock h := absurd h hunasked
  player h := absurd h hunasked
  payment h := absurd h hunasked

section Locked

variable (hasked : s.EnterAsked env request faults) (hlocks : s.Locks request.playerId faults)

include hasked hlocks

omit [DecidableEq ι] in
/-- With the lock held and no player found it is about this player only. -/
theorem Store.enterSound_iff_missing
    (hloaded : (if faults 2 = none then (s.mysql.view i).player.find request.playerId else none) =
      none) :
    s.EnterSound env i request faults ↔
      (s.mysql.view i).player.find request.playerId = none := by
  constructor
  · intro hsound
    by_cases hfault : faults 2 = none
    · rwa [if_pos hfault] at hloaded
    · exact hsound.player hasked hlocks hfault
  · refine fun hnone => ⟨fun h => absurd hasked.1.1 h, fun _ h => absurd hlocks.1 h,
      fun _ _ _ => hnone, fun _ _ _ player h => ?_⟩
    rw [hnone] at h
    cases h

omit [DecidableEq ι] in
/-- With the lock held and a player loaded it is about the payment. -/
theorem Store.enterSound_iff_payment {player : PlayerRow} (hfault : faults 2 = none)
    (hplayer : (s.mysql.view i).player.find request.playerId = some player) :
    s.EnterSound env i request faults ↔
      (env.dungeonConfig.requiredLevel ≤ player.level →
        env.dungeonConfig.costStamina ≤ (s.mysql.view i).stamina request.playerId →
        faults 5 = none → ¬(faults 6 = none ∧ (s.mysql.view i).HasPending request.playerId) →
        faults 7 = none ∧
          (s.mysql.view i).Pays request.playerId env.dungeonConfig.costStamina) := by
  constructor
  · exact fun hsound => hsound.payment hasked hlocks hfault player hplayer
  · refine fun hpaid => ⟨fun h => absurd hasked.1.1 h, fun _ h => absurd hlocks.1 h,
      fun _ _ h => absurd hfault h, fun _ _ _ other hother => ?_⟩
    obtain rfl := Option.some.inj (hplayer.symm.trans hother)
    exact hpaid

omit [DecidableEq ι] in
/-- With the lock held. -/
theorem enterLockedCode_truthful (hforeign : ForeignTexts faults) {code : ErrorCode}
    {success : Bool} (hcode : code = s.enterLockedCode env.dungeonConfig i request faults)
    (hsuccess : success = true ↔ code = .ok) :
    Truthful (s.TellsTruth i env.dungeonConfig request.playerId none) (s.Eligible env i request)
      code success ↔ s.EnterSound env i request faults := by
  unfold Store.enterLockedCode at hcode
  split at hcode
  · rename_i hloaded
    subst hcode
    rw [truthful_refused (by simp) (by simp) hsuccess,
      Store.enterSound_iff_missing hasked hlocks hloaded]
    refine ⟨And.left, fun hnone => ⟨hnone, fun h => ?_⟩⟩
    obtain ⟨player, hfound, -⟩ := h.player
    rw [hnone] at hfound
    cases hfound
  · rename_i player hloaded
    have hfault : faults 2 = none := by
      by_contra hfault
      rw [if_neg hfault] at hloaded
      cases hloaded
    rw [if_pos hfault] at hloaded
    rw [Store.enterSound_iff_payment hasked hlocks hfault hloaded]
    by_cases hlevel : player.level < env.dungeonConfig.requiredLevel
    · rw [if_pos hlevel] at hcode
      subst hcode
      rw [truthful_refused (by simp) (by simp) hsuccess]
      refine iff_of_true ⟨trivial, fun h => ?_⟩ fun h => absurd hlevel (not_lt.mpr h)
      obtain ⟨other, hother, henough⟩ := h.player
      obtain rfl := Option.some.inj (hloaded.symm.trans hother)
      exact absurd hlevel (not_lt.mpr henough)
    rw [if_neg hlevel] at hcode
    by_cases hstamina : (s.mysql.view i).stamina request.playerId < env.dungeonConfig.costStamina
    · rw [if_pos hstamina] at hcode
      subst hcode
      rw [truthful_refused (by simp) (by simp) hsuccess]
      exact iff_of_true ⟨hstamina, fun h => absurd hstamina (not_lt.mpr h.stamina)⟩
        fun _ h => absurd hstamina (not_lt.mpr h)
    rw [if_neg hstamina] at hcode
    -- the three ways the transaction can end
    rcases enterResult_cases hforeign (DungeonService.battleIdText request.playerId
        request.dungeonId (s.sequence i)) with
      ⟨-, hpending, hresult⟩ | ⟨hbegin, hnone, hpaid, hresult⟩ | ⟨hpaid, hresult⟩
    · rw [hresult] at hcode
      obtain rfl : code = .playerBusy := by simpa [DungeonService.enterErrorCode] using hcode
      rw [truthful_refused (by simp) (by simp) hsuccess]
      exact iff_of_true ⟨.inr hpending.2, fun h => h.idle hpending.2⟩
        fun _ _ _ h => absurd hpending h
    · -- the player has the stamina, so this code lies
      rw [hresult] at hcode
      obtain rfl : code = .staminaNotEnough := by simpa [DungeonService.enterErrorCode] using hcode
      rw [truthful_refused (by simp) (by simp) hsuccess]
      refine iff_of_false (fun h => hstamina h.1) fun hsound => ?_
      obtain ⟨hfault₇, hpays⟩ := hsound (not_lt.mp hlevel) (not_lt.mp hstamina) hbegin hnone
      exact hpaid.elim (absurd hfault₇) (absurd hpays)
    · refine iff_of_true (truthful_storage ?_ ⟨trivial, trivial⟩ hsuccess) fun _ _ => hpaid
      split at hcode
      · rename_i message hmessage
        exact .inl (hcode.trans (enterErrorCode_foreign (hresult message hmessage)))
      · exact .inr hcode

end Locked

omit [DecidableEq ι] in
/-- `EnterDungeon` answers truthfully exactly under these faults. -/
theorem enterCode_truthful (hforeign : ForeignTexts faults) {code : ErrorCode} {success : Bool}
    (h : Answers code success (s.enterCode env i request faults)) :
    Truthful (s.TellsTruth i env.dungeonConfig request.playerId none) (s.Eligible env i request)
      code success ↔ s.EnterSound env i request faults := by
  obtain ⟨hcode, hsuccess⟩ := h
  rw [← hcode] at hsuccess
  unfold Store.enterCode at hcode
  by_cases hadmits : faults 0 = none ∧ s.redis.Admits request.sessionId request.playerId
  swap
  · rw [if_pos hadmits] at hcode
    subst hcode
    rw [truthful_refused (by simp) (by simp) hsuccess]
    constructor
    · rintro ⟨-, hno⟩
      exact .of_not_asked (fun h => hadmits h.1) fun _ => hno
    · -- an eligible player is told `kSessionInvalid` if the lookup fails
      refine fun hsound => ⟨trivial, fun heligible => ?_⟩
      by_cases hfault : faults 0 = none
      · exact hadmits ⟨hfault, heligible.session⟩
      · exact hsound.session hfault heligible
  rw [if_neg (not_not_intro hadmits)] at hcode
  by_cases hdungeon : request.dungeonId ≠ env.dungeonConfig.dungeonId
  · rw [if_pos hdungeon] at hcode
    subst hcode
    rw [truthful_refused (by simp) (by simp) hsuccess]
    exact iff_of_true ⟨trivial, fun h => hdungeon h.dungeon⟩
      (.of_not_asked (fun h => hdungeon h.2) fun h => absurd hadmits.1 h)
  rw [if_neg hdungeon] at hcode
  have hasked : s.EnterAsked env request faults := ⟨hadmits, not_not.mp hdungeon⟩
  by_cases hlocks : s.Locks request.playerId faults
  · rw [if_neg (not_not_intro hlocks)] at hcode
    exact enterLockedCode_truthful hasked hlocks hforeign hcode hsuccess
  · rw [if_pos hlocks] at hcode
    subst hcode
    rw [truthful_refused (by simp) (by simp) hsuccess]
    constructor
    · rintro ⟨hbusy, -⟩
      exact ⟨fun h => absurd hadmits.1 h, fun _ _ => hbusy, fun _ h => absurd h hlocks,
        fun _ h => absurd h hlocks⟩
    · intro hsound
      have hbusy : s.Busy i request.playerId := by
        -- without a fault the lock is held
        by_cases hfault : faults 1 = none
        · refine .inl (Option.isSome_iff_ne_none.mpr fun hfree => hlocks ⟨hfault, hfree⟩)
        · exact hsound.lock hasked hfault
      exact ⟨hbusy, fun h => h.not_busy hbusy⟩

end Enter

section Settle

variable {request : SettleDungeonRequest}

/-- The request is admitted. -/
def Store.SettleAsked (env : Env) (s : Store ι) (request : SettleDungeonRequest)
    (faults : ℕ → Option String) : Prop :=
  request.result = true ∧
    (faults 0 = none ∧ s.redis.Admits request.sessionId request.playerId) ∧
    request.dungeonId = env.dungeonConfig.dungeonId ∧
    ¬(request.star ≤ 0 ∨ request.star > env.dungeonConfig.maxStar)

/-- The faults under which `SettleDungeon` answers truthfully. -/
structure Store.SettleSound (env : Env) (s : Store ι) (i : ι) (request : SettleDungeonRequest)
    (faults : ℕ → Option String) : Prop where
  /-- the session can be looked up, if the battle can be settled -/
  session : faults 0 ≠ none → ¬s.Settleable env i request
  /-- `SET NX` does not fail, unless the player is busy and the battle cannot be
  settled -/
  lock : s.SettleAsked env request faults → faults 1 ≠ none →
    s.Busy i request.playerId ∧ ¬s.Settleable env i request
  /-- a battle that is not found is not there -/
  missing : s.SettleAsked env request faults → s.Locks request.playerId faults →
    s.consulted i request.battleId faults = none →
    (s.mysql.view i).dungeonBattle.find request.battleId = none
  /-- a context that says the battle is settled is right -/
  settled : s.SettleAsked env request faults → s.Locks request.playerId faults →
    ∀ context n, s.consulted i request.battleId faults = some (context, n) →
    context.playerId = request.playerId → context.dungeonId = request.dungeonId →
    context.settled = true → (s.mysql.view i).HasSettled request.battleId
  /-- the `UPDATE` that marks the battle does not fail and finds it unsettled, unless
  it is settled -/
  marking : s.SettleAsked env request faults → s.Locks request.playerId faults →
    ∀ context n, s.consulted i request.battleId faults = some (context, n) →
    context.playerId = request.playerId → context.dungeonId = request.dungeonId →
    context.settled = false → faults (n + 1) = none →
    (faults (n + 2) ≠ none ∨ ¬(s.mysql.view i).Unsettled request.battleId) →
    (s.mysql.view i).HasSettled request.battleId

omit [DecidableEq ι] in
theorem Store.Settleable.not_settled (h : s.Settleable env i request) :
    ¬(s.mysql.view i).HasSettled request.battleId := by
  rintro ⟨row, hrow, hstatus⟩
  obtain ⟨row', hrow', -, -, hstatus'⟩ := h.battle
  obtain rfl := Option.some.inj (hrow.symm.trans hrow')
  rw [hstatus] at hstatus'
  cases hstatus'

omit [DecidableEq ι] in
/-- The context of a battle that can be settled matches the request. -/
theorem Store.Settleable.matches (h : s.Settleable env i request) {context : BattleContext}
    (hconsulted : s.consulted i request.battleId faults = some (context, n)) :
    context.playerId = request.playerId ∧ context.dungeonId = request.dungeonId := by
  unfold Store.consulted at hconsulted
  split at hconsulted
  · rename_i found hfound
    obtain ⟨rfl, -⟩ := Prod.mk.inj (Option.some.inj hconsulted)
    split at hfound
    · obtain ⟨hplayer, hdungeon, -⟩ := h.context found hfound
      exact ⟨hplayer, hdungeon⟩
    · cases hfound
  · obtain ⟨found, hfound, hpair⟩ := Option.map_eq_some_iff.mp hconsulted
    obtain ⟨rfl, -⟩ := Prod.mk.inj hpair
    split at hfound
    · obtain ⟨row, hrow, hplayer, hdungeon, -⟩ := h.battle
      rw [Tables.battle, hrow] at hfound
      obtain rfl := Option.some.inj hfound
      exact ⟨hplayer, hdungeon⟩
    · cases hfound

omit [DecidableEq ι] in
/-- That the battle is already settled is true if it is, since it cannot be settled then. -/
theorem truthful_alreadySettled {success : Bool}
    (hsuccess : success = true ↔ ErrorCode.battleAlreadySettled = .ok) :
    Truthful (s.TellsTruth i env.dungeonConfig request.playerId (some request.battleId))
      (s.Settleable env i request) .battleAlreadySettled success ↔
      (s.mysql.view i).HasSettled request.battleId := by
  rw [truthful_refused (by simp) (by simp) hsuccess]
  constructor
  · rintro ⟨⟨_, ⟨⟩, hsettled⟩, -⟩
    exact hsettled
  · exact fun hsettled => ⟨⟨_, rfl, hsettled⟩, fun h => h.not_settled hsettled⟩

omit [DecidableEq ι] in
/-- A request that is not admitted needs its session at most. -/
theorem Store.SettleSound.of_not_asked (hunasked : ¬s.SettleAsked env request faults)
    (hsession : faults 0 ≠ none → ¬s.Settleable env i request) :
    s.SettleSound env i request faults where
  session := hsession
  lock h := absurd h hunasked
  missing h := absurd h hunasked
  settled h := absurd h hunasked
  marking h := absurd h hunasked

section Locked

variable (hasked : s.SettleAsked env request faults) (hlocks : s.Locks request.playerId faults)

include hasked hlocks

omit [DecidableEq ι] in
/-- With the lock held and no battle found it is about this battle only. -/
theorem Store.settleSound_iff_missing (hconsulted : s.consulted i request.battleId faults = none) :
    s.SettleSound env i request faults ↔
      (s.mysql.view i).dungeonBattle.find request.battleId = none := by
  have hno : ∀ context n, s.consulted i request.battleId faults ≠ some (context, n) := by
    intro context n h
    rw [hconsulted] at h
    cases h
  constructor
  · exact fun hsound => hsound.missing hasked hlocks hconsulted
  · exact fun hnone => ⟨fun h => absurd hasked.2.1.1 h, fun _ h => absurd hlocks.1 h,
      fun _ _ _ => hnone, fun _ _ context n h => absurd h (hno context n),
      fun _ _ context n h => absurd h (hno context n)⟩

omit [DecidableEq ι] in
/-- With the lock held and a battle found it is about what its context says. -/
theorem Store.settleSound_iff_context {context : BattleContext}
    (hconsulted : s.consulted i request.battleId faults = some (context, n)) :
    s.SettleSound env i request faults ↔
      (context.playerId = request.playerId → context.dungeonId = request.dungeonId →
        (context.settled = true → (s.mysql.view i).HasSettled request.battleId) ∧
        (context.settled = false → faults (n + 1) = none →
          (faults (n + 2) ≠ none ∨ ¬(s.mysql.view i).Unsettled request.battleId) →
          (s.mysql.view i).HasSettled request.battleId)) := by
  constructor
  · exact fun hsound hplayer hdungeon =>
      ⟨hsound.settled hasked hlocks context n hconsulted hplayer hdungeon,
        hsound.marking hasked hlocks context n hconsulted hplayer hdungeon⟩
  · intro hright
    have hsame : ∀ other m, s.consulted i request.battleId faults = some (other, m) →
        other = context ∧ m = n := fun other m h =>
      Prod.mk.inj (Option.some.inj (h.symm.trans hconsulted))
    refine ⟨fun h => absurd hasked.2.1.1 h, fun _ h => absurd hlocks.1 h, fun _ _ h => ?_, ?_, ?_⟩
    · rw [hconsulted] at h
      cases h
    · intro _ _ other m hother hplayer hdungeon
      obtain ⟨rfl, rfl⟩ := hsame other m hother
      exact (hright hplayer hdungeon).1
    · intro _ _ other m hother hplayer hdungeon
      obtain ⟨rfl, rfl⟩ := hsame other m hother
      exact (hright hplayer hdungeon).2

omit [DecidableEq ι] in
/-- With the lock held. -/
theorem settleLocked_truthful {code : ErrorCode} {success : Bool}
    (hcode : s.SettleLocked i request faults code) (hsuccess : success = true ↔ code = .ok) :
    Truthful (s.TellsTruth i env.dungeonConfig request.playerId (some request.battleId))
      (s.Settleable env i request) code success ↔ s.SettleSound env i request faults := by
  unfold Store.SettleLocked at hcode
  cases hconsulted : s.consulted i request.battleId faults with
  | none =>
    rw [hconsulted] at hcode
    obtain rfl : code = .battleNotFound := hcode
    rw [truthful_refused (by simp) (by simp) hsuccess,
      Store.settleSound_iff_missing hasked hlocks hconsulted]
    constructor
    · rintro ⟨⟨_, ⟨⟩, hnone⟩, -⟩
      exact hnone
    · refine fun hnone => ⟨⟨_, rfl, hnone⟩, fun h => ?_⟩
      obtain ⟨row, hrow, -⟩ := h.battle
      rw [hnone] at hrow
      cases hrow
  | some found =>
    obtain ⟨context, n⟩ := found
    rw [hconsulted] at hcode
    rw [Store.settleSound_iff_context hasked hlocks hconsulted]
    dsimp only at hcode
    by_cases hmismatch : context.playerId ≠ request.playerId ∨ context.dungeonId ≠ request.dungeonId
    · rw [if_pos hmismatch] at hcode
      subst hcode
      rw [truthful_refused (by simp) (by simp) hsuccess]
      refine iff_of_true ⟨trivial, fun h => ?_⟩ fun hplayer hdungeon =>
        hmismatch.elim (absurd hplayer) (absurd hdungeon)
      obtain ⟨hplayer, hdungeon⟩ := h.matches hconsulted
      exact hmismatch.elim (absurd hplayer) (absurd hdungeon)
    rw [if_neg hmismatch] at hcode
    obtain ⟨hplayer, hdungeon⟩ : context.playerId = request.playerId ∧
        context.dungeonId = request.dungeonId := by
      simpa only [ne_eq, not_or, not_not] using hmismatch
    simp only [hplayer, hdungeon, true_imp_iff]
    cases hflag : context.settled with
    | true =>
      rw [if_pos hflag] at hcode
      subst hcode
      rw [truthful_alreadySettled hsuccess]
      exact ⟨fun hsettled => ⟨fun _ => hsettled, nofun⟩, fun h => h.1 rfl⟩
    | false =>
      rw [if_neg (by simp [hflag]), SettleResult] at hcode
      simp only [Bool.false_eq_true, false_imp_iff, true_and, true_imp_iff]
      split at hcode
      · rename_i hbad
        subst hcode
        rw [truthful_alreadySettled hsuccess]
        exact ⟨fun hsettled _ _ => hsettled, fun h => h hbad.1 hbad.2⟩
      · rename_i hgood
        exact iff_of_true (truthful_storage hcode ⟨trivial, trivial⟩ hsuccess)
          fun hbegin hmark => absurd ⟨hbegin, hmark⟩ hgood

end Locked

omit [DecidableEq ι] in
/-- `SettleDungeon` answers truthfully exactly under these faults. -/
theorem settleCode_truthful {code : ErrorCode} {success : Bool}
    (hcode : s.SettleCode env i request faults code) (hsuccess : success = true ↔ code = .ok) :
    Truthful (s.TellsTruth i env.dungeonConfig request.playerId (some request.battleId))
      (s.Settleable env i request) code success ↔ s.SettleSound env i request faults := by
  unfold Store.SettleCode at hcode
  by_cases hresult : request.result = false
  · rw [if_pos hresult] at hcode
    have hno : request.result ≠ true := by simp [hresult]
    exact iff_of_true (truthful_storage (.inl hcode) ⟨trivial, trivial⟩ hsuccess)
      (.of_not_asked (fun h => hno h.1) fun _ h => hno h.result)
  rw [if_neg hresult] at hcode
  by_cases hadmits : faults 0 = none ∧ s.redis.Admits request.sessionId request.playerId
  swap
  · rw [if_pos hadmits] at hcode
    subst hcode
    rw [truthful_refused (by simp) (by simp) hsuccess]
    constructor
    · rintro ⟨-, hno⟩
      exact .of_not_asked (fun h => hadmits h.2.1) fun _ => hno
    · refine fun hsound => ⟨trivial, fun hsettleable => ?_⟩
      by_cases hfault : faults 0 = none
      · exact hadmits ⟨hfault, hsettleable.session⟩
      · exact hsound.session hfault hsettleable
  rw [if_neg (not_not_intro hadmits)] at hcode
  have hsession : faults 0 ≠ none → ¬s.Settleable env i request := fun h => absurd hadmits.1 h
  by_cases hdungeon : request.dungeonId ≠ env.dungeonConfig.dungeonId
  · rw [if_pos hdungeon] at hcode
    subst hcode
    rw [truthful_refused (by simp) (by simp) hsuccess]
    exact iff_of_true ⟨trivial, fun h => hdungeon h.dungeon⟩
      (.of_not_asked (fun h => hdungeon h.2.2.1) hsession)
  rw [if_neg hdungeon] at hcode
  by_cases hstar : request.star ≤ 0 ∨ request.star > env.dungeonConfig.maxStar
  · rw [if_pos hstar] at hcode
    subst hcode
    rw [truthful_refused (by simp) (by simp) hsuccess]
    exact iff_of_true ⟨trivial, fun h => h.star hstar⟩
      (.of_not_asked (fun h => h.2.2.2 hstar) hsession)
  rw [if_neg hstar] at hcode
  have hasked : s.SettleAsked env request faults :=
    ⟨by simpa using hresult, hadmits, not_not.mp hdungeon, hstar⟩
  by_cases hlocks : s.Locks request.playerId faults
  · rw [if_neg (not_not_intro hlocks)] at hcode
    exact settleLocked_truthful hasked hlocks hcode hsuccess
  · rw [if_pos hlocks] at hcode
    subst hcode
    rw [truthful_refused (by simp) (by simp) hsuccess]
    constructor
    · rintro ⟨hbusy, hno⟩
      exact ⟨hsession, fun _ _ => ⟨hbusy, hno⟩, fun _ h => absurd h hlocks,
        fun _ h => absurd h hlocks, fun _ h => absurd h hlocks⟩
    · intro hsound
      by_cases hfault : faults 1 = none
      · have hheld : (s.redis.live (.playerLock request.playerId)).isSome = true :=
          Option.isSome_iff_ne_none.mpr fun hfree => hlocks ⟨hfault, hfree⟩
        exact ⟨.inl hheld, fun h => by rw [h.lock] at hheld; cases hheld⟩
      · exact hsound.lock hasked hfault

end Settle

/-! ## The requests -/

/-- **Error codes tell the truth** exactly when no failing command, free dungeon or
context at odds with its battle is in the way, as `EnterSound` and `SettleSound` list
it. -/
theorem error_codes_truthful (hforeign : ForeignTexts faults) :
    (∀ request response s', s.runFailing i (DungeonService.enterDungeon env request) faults =
      some (response, s') →
      (Truthful (s.TellsTruth i env.dungeonConfig request.playerId none) (s.Eligible env i request)
        response.errorCode response.success ↔ s.EnterSound env i request faults)) ∧
    ∀ request response s', s.runFailing i (DungeonService.settleDungeon env request) faults =
      some (response, s') →
      (Truthful (s.TellsTruth i env.dungeonConfig request.playerId (some request.battleId))
        (s.Settleable env i request) response.errorCode response.success ↔
        s.SettleSound env i request faults) := by
  constructor
  · intro request response s' hrun
    obtain ⟨_, hanswers⟩ := (yields_enterDungeon request (fun _ _ _ => trivial)
      (.inr trivial)).runFailing hrun
    exact enterCode_truthful hforeign hanswers
  · intro request response s' hrun
    obtain ⟨_, hcode, hconsistent⟩ := (yields_settleDungeon hforeign request).runFailing hrun
    exact settleCode_truthful hcode hconsistent

/-- The `SET NX` fails, and the player is told that they are busy. They are: another request
holds their lock. -/
theorem error_codes_truthful_demo :
    ∃ response s', (demoWorld.store.attemptLock demoEnv 20001).runFailing false
        (DungeonService.enterDungeon demoEnv ⟨"s", 20001, 1001⟩)
        (fun n => if n = 1 then some "Connection reset by peer" else none) =
          some (response, s') ∧
      response.errorCode = .playerBusy ∧
      Truthful ((demoWorld.store.attemptLock demoEnv 20001).TellsTruth false
          demoEnv.dungeonConfig 20001 none)
        ((demoWorld.store.attemptLock demoEnv 20001).Eligible demoEnv false ⟨"s", 20001, 1001⟩)
        response.errorCode response.success := by
  let faults : ℕ → Option String := fun n =>
    if n = 1 then some "Connection reset by peer" else none
  let s := demoWorld.store.attemptLock demoEnv 20001
  have hheld : (s.redis.live (.playerLock 20001)).isSome = true := by decide +kernel
  have hnot : ¬s.Locks 20001 faults := fun h => nomatch h.1
  have hsound : s.EnterSound demoEnv false ⟨"s", 20001, 1001⟩ faults :=
    { session := fun h => absurd rfl h
      lock := fun _ _ => .inl hheld
      player := fun _ h => absurd h hnot
      payment := fun _ h => absurd h hnot }
  have hforeign : ForeignTexts faults := .single (by simp [ownTexts])
  have hcode : (s.runFailing false (DungeonService.enterDungeon demoEnv ⟨"s", 20001, 1001⟩)
      faults).map (fun r => r.1.errorCode) = some .playerBusy := by
    decide +kernel
  obtain ⟨⟨response, s'⟩, hrun, hbusy⟩ := Option.map_eq_some_iff.mp hcode
  exact ⟨response, s', hrun, hbusy,
    ((error_codes_truthful hforeign).1 _ response s' hrun).mpr hsound⟩

/-- The statement that loads the player fails, and the player is told that they do not
exist. -/
theorem error_code_lies :
    ¬∀ (env : Env) (s : Store Bool) (i : Bool) (faults : ℕ → Option String)
      (request : EnterDungeonRequest) (response : EnterDungeonResponse) (s' : Store Bool),
      ForeignTexts faults →
      s.runFailing i (DungeonService.enterDungeon env request) faults = some (response, s') →
      Truthful (s.TellsTruth i env.dungeonConfig request.playerId none)
        (s.Eligible env i request) response.errorCode response.success := by
  intro h
  let faults : ℕ → Option String := fun n =>
    if n = 2 then some "Lost connection to MySQL server during query" else none
  have hforeign : ForeignTexts faults := .single (by simp [ownTexts])
  have hcode : (demoWorld.store.runFailing false (DungeonService.enterDungeon demoEnv
      ⟨"s", 20001, 1001⟩) faults).map (fun r => r.1.errorCode) = some .playerNotFound := by
    decide +kernel
  obtain ⟨⟨response, s'⟩, hrun, hnotFound⟩ := Option.map_eq_some_iff.mp hcode
  have htruth := (h demoEnv demoWorld.store false faults _ response s' hforeign hrun).1
  rw [hnotFound] at htruth
  cases htruth

end GameBackend
