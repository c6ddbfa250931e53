import GameBackend.Execution

/-!
# Battle contexts are optional

`SettleDungeon` looks its battle up in Redis and only then in MySQL. The contexts in
Redis may be lost: their `Save` or `Delete` takes no effect, they expire, they are
evicted (`Store.workLossy`). And they may be stale: no context ever says that its
battle is settled.

Neither matters. A context agrees with the row of its battle (`ContextOk`) except
perhaps for the flag, and when only the flag of the context is wrong, the `UPDATE`
that is guarded by the status of the row finds out, with the same response.
-/

namespace GameBackend

variable {ι X : Type} [DecidableEq ι] {env : Env} {cfg : DungeonConfig} {i : ι}
  {s s' s₀ : Store ι}

/-! ## The settlement without Redis -/

namespace DungeonService

/-- The rest of `settleLocked`, once the battle is looked up. -/
def settleFound (config : DungeonConfig) (request : SettleDungeonRequest) :
    Option BattleContext → Program SettleDungeonResponse
  | none => return refuseSettle .battleNotFound "battle not found"
  | some battleContext => do
    if battleContext.playerId ≠ request.playerId ∨
        battleContext.dungeonId ≠ request.dungeonId then
      return refuseSettle .battleMismatch "battle context mismatch"
    if battleContext.settled then
      return refuseSettle .battleAlreadySettled "battle already settled"
    let result ← MySqlDungeonRepository.settleDungeon battleContext config request.star
    if !result.success then
      return refuseSettle (settleErrorCode result.errorMessage) result.errorMessage
    let _ ← RedisBattleContextRepository.delete request.battleId
    let _ ← RedisPlayerCacheRepository.invalidate request.playerId
    return ⟨true, .ok, "", result.firstClear, result.rewards⟩

/-- The rest of `settleDungeon`, once the battle is looked up. -/
def settleUnlock (config : DungeonConfig) (request : SettleDungeonRequest)
    (found : Option BattleContext) : Program SettleDungeonResponse := do
  let response ← settleFound config request found
  releasePlayerLock request.playerId
  return response

/-- `SettleDungeon` of a service that always obtains the battle from MySQL. -/
def settleDungeonFromMysql (env : Env) (request : SettleDungeonRequest) :
    Program SettleDungeonResponse := do
  if !request.result then
    return refuseSettle .storageError "only success settlement is supported in demo"
  let session ← RedisSessionRepository.findById request.sessionId
  if session.map Session.playerId ≠ some request.playerId then
    return refuseSettle .sessionInvalid "session invalid"
  match InMemoryDungeonConfigRepository.findByDungeonId env request.dungeonId with
  | none => return refuseSettle .dungeonNotFound "dungeon config not found"
  | some config =>
    if request.star ≤ 0 ∨ request.star > config.maxStar then
      return refuseSettle .invalidStar "star is out of range"
    if !(← acquirePlayerLock env request.playerId) then
      return refuseSettle .playerBusy "player is busy"
    settleUnlock config request (← MySqlDungeonRepository.findBattleById request.battleId)

end DungeonService

/-! ## Requests that lose battle contexts -/

/-- The commands whose loss makes a `Save` or a `Delete` of a battle context take no
effect: the `HSET` that would create the context, and the `DEL`. -/
def Cmd.losesContext (s : Store ι) : Cmd → Bool
  | .redis (.hset (.battleCtx b) _ _) => (s.redis.live (.battleCtx b)).isNone
  | .redis (.del (.battleCtx _)) => true
  | _ => false

namespace Store

/-- Execute a command of process `i`; with a `fault` it fails if it may. -/
def lossy (i : ι) (s : Store ι) (fault : Option String) (c : Cmd) : Option (c.Reply × Store ι) :=
  s.perform i (if c.losesContext s then fault else none) c

/-- Do a job. -/
def workLossy (env : Env) (s : Store ι) : Job ι → Option (Store ι)
  | .serve i request faults =>
    ((GameBackend.serve env request).run (Store.lossy i) faults s).map Prod.snd
  | .tick ms => some (s.tick ms)
  | .restart i => some (s.crash i)
  | .evict k => some (s.evict k)

end Store

theorem reliable_lossy : Reliable (Store.lossy i) i :=
  ⟨fun _ _ _ => rfl, fun _ _ _ => rfl, fun _ _ _ _ _ => rfl, fun _ _ _ => ⟨_, rfl⟩⟩

omit [DecidableEq ι] in
/-- What may be lost is the beginning of a write, or no part of one. -/
theorem bearable_of_losesContext {c : Cmd} {fault : Option String}
    (h : c.losesContext s = false → fault = none) : Store.Bearable s c fault where
  rollback hc := h (hc ▸ rfl)
  writes d hd hwrite hlive := by
    subst hd
    cases d with
    | hset k f v =>
      cases k with
      | battleCtx b =>
        exact h (Option.isNone_eq_false_iff.mpr (Option.isSome_iff_ne_none.mpr hlive))
      | _ => exact h rfl
    | expire k ttl => exact h rfl
    | _ => cases hwrite

/-- Every job keeps the store at rest. -/
theorem Store.AtRest.workLossy (h : s.AtRest env) {job : Job ι}
    (hwork : s.workLossy env job = some s') : s'.AtRest env := by
  cases job with
  | serve i request faults =>
    -- only a loss of a context fails a command
    have hlossy : ∀ (s : Store ι) (x : Option String) (c : Cmd), ∃ fault,
        Store.lossy i s x c = s.perform i fault c ∧ (c.losesContext s = false → fault = none) :=
      fun s x c => ⟨_, rfl, fun hc => by rw [hc]; rfl⟩
    obtain ⟨response, s'', φ, hserve, -, hrest, -⟩ := h.run (J := fun _ _ => True) hlossy
      (fun _ _ _ => bearable_of_losesContext) trivial (fun _ _ _ _ _ _ => trivial) request faults
    simp only [Store.workLossy, hserve, Option.map_some, Option.some.injEq] at hwork
    exact hwork ▸ hrest
  | tick ms => exact Option.some.inj hwork ▸ h.tick ms
  | restart i => exact Option.some.inj hwork ▸ h.crash i
  | evict k => exact Option.some.inj hwork ▸ h.evict k

/-! ## What the settlement sees of Redis -/

/-- A program whose results rest on the answers of MySQL alone. -/
abbrev OnSql {α : Type} (m : Program α) : Prop :=
  m.Blind (fun c => ∃ d, c = .sql d) fun c => ∃ d, c = .redis d

section OnSql

variable {α : Type}

theorem onSql_sql (c : SqlCmd) : OnSql (sql c) := ⟨.inl ⟨c, rfl⟩, fun _ => trivial⟩

theorem onSql_queryOne (q : Query) : OnSql (MySqlClient.queryOne q) := by
  refine Prog.Blind.bind (Prog.Blind.bind (onSql_sql _) ?_) fun _ => trivial
  rintro (_ | rows)
  · trivial
  · trivial

theorem onSql_finishTransaction (transaction : Except String Unit) :
    OnSql (MySqlDungeonRepository.finishTransaction transaction) := by
  rcases transaction with message | _
  · exact (onSql_sql _).bind fun _ => trivial
  · refine (onSql_sql _).bind ?_
    rintro (message | _)
    · exact (onSql_sql _).bind fun _ => trivial
    · trivial

theorem onSql_settleStatements (context : BattleContext) (config : DungeonConfig) (star : ℤ)
    (firstClear : Bool) :
    OnSql (MySqlDungeonRepository.settleStatements context config star firstClear) := by
  refine (onSql_sql _).bind fun r => ?_
  split
  · trivial
  refine (onSql_sql _).bind ?_
  rintro (message | n)
  · trivial
  refine (onSql_sql _).bind ?_
  rintro (message | n)
  · trivial
  refine (onSql_sql _).bind ?_
  rintro (message | n)
  · trivial
  dsimp only
  split
  · refine (onSql_sql _).bind ?_
    rintro (message | n)
    · trivial
    · trivial
  · trivial

theorem onSql_settleDungeon (context : BattleContext) (config : DungeonConfig) (star : ℤ) :
    OnSql (MySqlDungeonRepository.settleDungeon context config star) := by
  refine (onSql_queryOne _).bind fun row => (onSql_sql _).bind ?_
  rintro (message | _)
  · trivial
  refine (onSql_settleStatements _ _ _ _).bind fun transaction =>
    (onSql_finishTransaction _).bind ?_
  rintro (message | _)
  · trivial
  · trivial

/-- Once the battle is found, the settlement does not ask Redis any more. -/
theorem onSql_settleUnlock (config : DungeonConfig) (request : SettleDungeonRequest)
    (found : Option BattleContext) :
    OnSql (DungeonService.settleUnlock config request found) := by
  refine Prog.Blind.bind ?_ fun response => Prog.Blind.drop ⟨_, rfl⟩ trivial
  cases found with
  | none => trivial
  | some context =>
    dsimp only [DungeonService.settleFound]
    split
    · trivial
    split
    · trivial
    refine (onSql_settleDungeon _ _ _).bind fun result => ?_
    split
    · trivial
    exact .drop ⟨_, rfl⟩ (.drop ⟨_, rfl⟩ trivial)

/-- While nobody else holds a lock no statement waits. -/
theorem Mysql.execute_alone {m : Mysql ι} (h : ∀ k j, m.locks k = some j → j = i) (c : SqlCmd) :
    ∃ r m', m.execute i c = some (r, m') ∧ ∀ k j, m'.locks k = some j → j = i := by
  have hrelease : ∀ k j, m.release i k = some j → j = i :=
    fun k j hk => h k j (Sound.of_release hk).2
  have hcommit : ∀ k j, (m.commitTxn i).locks k = some j → j = i := by
    rw [commitTxn]
    split
    · exact h
    · exact hrelease
  cases c with
  | startTransaction => exact ⟨_, _, rfl, hcommit⟩
  | commit => exact ⟨_, _, rfl, hcommit⟩
  | rollback => exact ⟨_, _, rfl, hrelease⟩
  | select q => exact ⟨_, _, rfl, h⟩
  | write w =>
    have hfree : m.locks w.key = none ∨ m.locks w.key = some i := by
      rcases hk : m.locks w.key with _ | j
      · exact .inl rfl
      · exact .inr (congrArg some (h _ _ hk))
    simp only [execute, if_pos hfree]
    split
    · exact ⟨_, _, rfl, h⟩
    · exact ⟨_, _, rfl, h⟩
    · split
      · refine ⟨_, _, rfl, fun k j hk => ?_⟩
        by_cases hkey : k = w.key
        · subst hkey
          have hself : some i = some j := by simpa using hk
          exact (Option.some.inj hself).symm
        · exact h k j (by simpa [hkey] using hk)
      · exact ⟨_, _, rfl, h⟩

/-- So two runs of it from stores with the same MySQL come to the same. -/
theorem OnSql.agree {exec : Store ι → X → (c : Cmd) → Option (c.Reply × Store ι)}
    (hexec : Reliable exec i) {m : Program α} (h : OnSql m)
    (hlocks : ∀ k j, s.mysql.locks k = some j → j = i) :
    Prog.Agree exec Store.mysql m m s := by
  have hseen : ∀ (m : Mysql ι) (c : Cmd), (∀ k j, m.locks k = some j → j = i) →
      (∃ d, c = .sql d) → ∃ r m', (∀ k j, Mysql.locks m' k = some j → j = i) ∧
        ∀ s x, Store.mysql s = m → ∃ s', exec s x c = some (r, s') ∧ s'.mysql = m' := by
    rintro m _ hm ⟨d, rfl⟩
    obtain ⟨r, m', hexecute, hm'⟩ := Mysql.execute_alone hm d
    refine ⟨r, m', hm', ?_⟩
    rintro s x rfl
    refine ⟨{ s with mysql := m' }, ?_, rfl⟩
    rw [hexec.sql, Store.perform, hexecute]
    rfl
  have hignored : ∀ (s : Store ι) (x : X) (c : Cmd), (∃ d, c = .redis d) →
      ∃ r s', exec s x c = some (r, s') ∧ s'.mysql = s.mysql := by
    rintro s x _ ⟨d, rfl⟩
    obtain ⟨fault, hfault⟩ := hexec.redis s x d
    rw [hfault]
    cases fault with
    | none => exact ⟨_, _, rfl, rfl⟩
    | some message => exact ⟨_, _, rfl, rfl⟩
  obtain ⟨a, v, ha⟩ := h.determined hseen hignored (by rintro c ⟨d, rfl⟩; exact ⟨d.failed⟩) hlocks
  exact ⟨a, v, ha s rfl, ha s rfl⟩

end OnSql

/-! ## A context and its row -/

/-- Unless the battle is settled, the settlement does the same with either. -/
theorem settleFound_unsettled {row : BattleRow} (hstatus : row.status ≠ 1) (config : DungeonConfig)
    (request : SettleDungeonRequest) :
    DungeonService.settleFound config request (some (contextOfEntered cfg row)) =
      DungeonService.settleFound config request (some (MySqlDungeonRepository.contextOf row)) := by
  have hcontext : MySqlDungeonRepository.contextOf row =
      { contextOfEntered cfg row with maxStar := 3 } := by
    rw [MySqlDungeonRepository.contextOf, decide_eq_false hstatus]
    rfl
  rw [hcontext]
  -- nothing after the lookup depends on `max_star`
  rfl

section Stale

variable {exec : Store ι → X → (c : Cmd) → Option (c.Reply × Store ι)}

/-- A transaction that writes nothing leaves nothing behind. -/
theorem Mysql.rollback_start {m : Mysql ι} (hnone : m.txns i = none)
    (hlocks : ∀ k, m.locks k ≠ some i) :
    Mysql.rollbackTxn { m with txns := Function.update m.txns i (some []) } i = m := by
  have htxns : Function.update (Function.update m.txns i (some [])) i none = m.txns := by
    rw [Function.update_idem, ← hnone, Function.update_eq_self]
  have hrelease : Mysql.release { m with txns := Function.update m.txns i (some []) } i = m.locks :=
    funext fun k => if_neg (hlocks k)
  rw [rollbackTxn, htxns, hrelease]

/-- The `UPDATE` of a battle that is settled already matches no row. -/
theorem ensures_settleDungeon_settled (hexec : Reliable exec i) (hnone : s.mysql.txns i = none)
    (hlocks : ∀ k, s.mysql.locks k = none) {row : BattleRow} {context : BattleContext}
    (hrow : s.mysql.tables.dungeonBattle.find context.battleId = some row)
    (hstatus : row.status ≠ 0) (config : DungeonConfig) (star : ℤ) :
    (MySqlDungeonRepository.settleDungeon context config star).Ensures exec
      (fun result s' => result.success = false ∧
        result.errorMessage = "battle already settled" ∧ s'.mysql = s.mysql) s := by
  refine (ensures_queryOne hexec hnone _).bind ?_
  rintro first s' ⟨-, rfl⟩
  have hcommit : s'.mysql.commitTxn i = s'.mysql := by rw [Mysql.commitTxn, hnone]
  have hstart : s'.mysql.execute i .startTransaction = some (.ok (),
      { s'.mysql with txns := Function.update s'.mysql.txns i (some []) }) := by
    simp only [Mysql.execute, hcommit]
  refine (ensures_sql hexec hstart).bind ?_
  rintro _ s₁ ⟨rfl, rfl⟩
  -- the guard on the status fails
  have hview : Mysql.view { s'.mysql with txns := Function.update s'.mysql.txns i (some []) } i =
      s'.mysql.tables := by
    simp [Mysql.view, applyAll]
  have hupdate : Mysql.execute { s'.mysql with txns := Function.update s'.mysql.txns i (some []) } i
      (.write (.updateBattle context.battleId)) = some (.ok 0,
        { s'.mysql with txns := Function.update s'.mysql.txns i (some []) }) := by
    simp only [Mysql.execute, hview, hlocks, true_or, if_true, SqlWrite.run, hrow, if_neg hstatus]
  refine Prog.Ensures.bind (Prog.Ensures.bind (ensures_sql hexec hupdate)
    (Q := fun r s₂ => r = .error "battle already settled" ∧ s₂.mysql =
      { s'.mysql with txns := Function.update s'.mysql.txns i (some []) }) ?_) ?_
  · rintro _ s₂ ⟨rfl, rfl⟩
    exact ⟨rfl, rfl⟩
  rintro _ s₂ ⟨rfl, hs₂⟩
  have hrollback : s₂.mysql.execute i .rollback = some (.ok (), s'.mysql) := by
    rw [hs₂, Mysql.execute, Mysql.rollback_start hnone fun k => by simp [hlocks]]
  refine Prog.Ensures.bind (Prog.Ensures.bind (ensures_sql hexec hrollback)
    (Q := fun r s₃ => r = .error "battle already settled" ∧ s₃.mysql = s'.mysql) ?_) ?_
  · rintro _ s₃ ⟨rfl, rfl⟩
    exact ⟨rfl, rfl⟩
  rintro _ s₃ ⟨rfl, hs₃⟩
  exact ⟨rfl, rfl, hs₃⟩

/-- A response of the part under the lock is the response. -/
theorem ensures_settleUnlock (hexec : Reliable exec i) {config : DungeonConfig}
    {request : SettleDungeonRequest} {found : Option BattleContext}
    {response : SettleDungeonResponse} {m : Mysql ι}
    (h : (DungeonService.settleFound config request found).Ensures exec
      (fun r s' => r = response ∧ s'.mysql = m) s) :
    (DungeonService.settleUnlock config request found).Ensures exec
      (fun r s' => r = response ∧ s'.mysql = m) s := by
  refine h.bind ?_
  rintro _ s' ⟨rfl, rfl⟩ x
  obtain ⟨fault, hfault⟩ := hexec.redis s' x (.del (.playerLock request.playerId))
  rw [hfault]
  cases fault with
  | none => exact ⟨_, _, rfl, rfl, rfl⟩
  | some message => exact ⟨_, _, rfl, rfl, rfl⟩

/-- With a context that does not say that its battle is settled the response is the
same as with the row that does. -/
theorem agree_stale (hexec : Reliable exec i) (hnone : s.mysql.txns i = none)
    (hlocks : ∀ k, s.mysql.locks k = none) {row : BattleRow}
    (hrow : s.mysql.tables.dungeonBattle.find row.battleId = some row)
    (hstatus : row.status = 1) (config : DungeonConfig) (request : SettleDungeonRequest) :
    Prog.Agree exec Store.mysql
      (DungeonService.settleUnlock config request (some (contextOfEntered cfg row)))
      (DungeonService.settleUnlock config request
        (some (MySqlDungeonRepository.contextOf row))) s := by
  by_cases hmatch : row.playerId ≠ request.playerId ∨ row.dungeonId ≠ request.dungeonId
  · refine ⟨DungeonService.refuseSettle .battleMismatch "battle context mismatch", s.mysql,
      ensures_settleUnlock hexec ?_, ensures_settleUnlock hexec ?_⟩
    · dsimp only [DungeonService.settleFound, contextOfEntered]
      rw [if_pos hmatch]
      exact ⟨rfl, rfl⟩
    · dsimp only [DungeonService.settleFound, MySqlDungeonRepository.contextOf]
      rw [if_pos hmatch]
      exact ⟨rfl, rfl⟩
  · refine ⟨DungeonService.refuseSettle .battleAlreadySettled "battle already settled", s.mysql,
      ensures_settleUnlock hexec ?_, ensures_settleUnlock hexec ?_⟩
    · dsimp only [DungeonService.settleFound, contextOfEntered]
      rw [if_neg hmatch, if_neg Bool.false_ne_true]
      refine (ensures_settleDungeon_settled hexec hnone hlocks hrow
        (fun h => absurd (h.symm.trans hstatus) (by decide)) config request.star).bind ?_
      rintro result s' ⟨hsuccess, hmessage, hmysql⟩
      rw [hsuccess, hmessage]
      exact ⟨rfl, hmysql⟩
    · dsimp only [DungeonService.settleFound, MySqlDungeonRepository.contextOf]
      rw [if_neg hmatch, if_pos (decide_eq_true hstatus)]
      exact ⟨rfl, rfl⟩

end Stale

/-! ## Every settlement -/

section Every

variable {exec : Store ι → X → (c : Cmd) → Option (c.Reply × Store ι)}

/-- From a store at rest the settlement with Redis and the one without agree. -/
theorem Store.AtRest.agree (h : s.AtRest env) (hexec : Reliable exec i)
    (request : SettleDungeonRequest) :
    Prog.Agree exec Store.mysql (DungeonService.settleDungeon env request)
      (DungeonService.settleDungeonFromMysql env request) s := by
  have hdecodes := Redis.decodes_of_filled h.filled
  rw [DungeonService.settleDungeon, DungeonService.settleDungeonFromMysql]
  split
  · exact .ret _ s
  refine .bind (ensures_findById hexec hdecodes _) ?_
  split
  · exact .ret _ s
  rcases InMemoryDungeonConfigRepository.findByDungeonId env request.dungeonId with _ | config
  · exact .ret _ s
  dsimp only
  split
  · exact .ret _ s
  refine .bind (ensures_acquire hexec _) ?_
  split
  · exact .ret _ _
  -- under the lock
  have hfast := ensures_findBattle hexec (s := s.attemptLock env request.playerId) (h.txns i)
    (hdecodes.attemptLock _) request.battleId
  have hslow := ensures_findBattleById hexec (s := s.attemptLock env request.playerId) (h.txns i)
    request.battleId
  rw [Store.context_attemptLock] at hfast
  have hsame : ∀ found, Prog.Agree exec Store.mysql
      (DungeonService.settleUnlock config request found)
      (DungeonService.settleUnlock config request found) (s.attemptLock env request.playerId) := by
    intro found
    refine (onSql_settleUnlock config request found).agree hexec fun k j hk => ?_
    cases (h.unlocked k).symm.trans hk
  change Prog.Agree exec Store.mysql
    (DungeonService.findBattle request.battleId >>= DungeonService.settleFound config request >>= _)
    _ _
  rw [Prog.bind_assoc]
  refine Prog.Agree.bind_both hfast hslow ?_
  rcases hfound : s.redis.context request.battleId with _ | context
  · exact hsame _
  obtain ⟨row, hrow, rfl⟩ := h.context hfound
  have hkey : row.battleId = request.battleId := Table.key_of_find hrow
  have hbattle : (s.attemptLock env request.playerId).mysql.tables.battle request.battleId =
      some (MySqlDungeonRepository.contextOf row) := congrArg (Option.map _) hrow
  rw [hbattle]
  by_cases hstatus : row.status = 1
  · exact agree_stale (s := s.attemptLock env request.playerId) hexec (h.txns i) h.unlocked
      (hkey ▸ hrow) hstatus config request
  · have hunlock := hsame (some (MySqlDungeonRepository.contextOf row))
    have hunsettled : DungeonService.settleFound config request
        (some (contextOfEntered env.dungeonConfig row)) =
          DungeonService.settleFound config request (some (MySqlDungeonRepository.contextOf row)) :=
      settleFound_unsettled hstatus config request
    rw [DungeonService.settleUnlock, ← hunsettled] at hunlock ⊢
    exact hunlock

end Every

/-- **Battle contexts are optional.** From a backend without battles, after any
requests, with any `Save` and `Delete` of a battle context lost, whatever keys expired
or were evicted in between: `SettleDungeon` answers what a service without Redis
contexts answers, and leaves MySQL as that one does. -/
theorem battle_contexts_optional (hs₀ : s₀.Fresh env)
    (h : Reach (Store.workLossy env) (fun _ _ => True) s₀ s) (i : ι)
    (request : SettleDungeonRequest) (faults faults' : ℕ → Option String) :
    ∃ response s₁ s₂,
      (serve env (.settleDungeon request)).run (Store.lossy i) faults s =
        some (.settleDungeon response, s₁) ∧
      (DungeonService.settleDungeonFromMysql env request).run (Store.lossy i) faults' s =
        some (response, s₂) ∧ s₁.mysql = s₂.mysql := by
  have hrest : s.AtRest env := h.invariant hs₀.atRest fun _ _ _ _ hI _ hwork => hI.workLossy hwork
  have hreliable : Reliable (Store.lossy i) i := reliable_lossy
  obtain ⟨response, m, hfast, hslow⟩ := hrest.agree hreliable request
  have hserve : (serve env (.settleDungeon request)).Ensures (Store.lossy i)
      (fun r s' => r = .settleDungeon response ∧ s'.mysql = m) s :=
    hfast.bind fun r s' ⟨hr, hs'⟩ => ⟨congrArg Response.settleDungeon hr, hs'⟩
  obtain ⟨_, s₁, hrun₁, rfl, hs₁⟩ := hserve.run faults
  obtain ⟨_, s₂, hrun₂, rfl, hs₂⟩ := hslow.run faults'
  exact ⟨_, s₁, s₂, hrun₁, hrun₂, hs₁.trans hs₂.symm⟩

/-- A battle is settled while the `Delete` of its context is lost; its context stays,
and it is settled again. -/
theorem battle_contexts_optional_demo :
    ∃ s, Reach (Store.workLossy demoEnv) (fun _ _ => True) emptyWorld.store s ∧
      (s.redis.context "battle-20001-1001-1").isSome = true ∧ s.mysql.binlog.length = 2 ∧
      ∃ response s₁ s₂,
        (serve demoEnv (.settleDungeon ⟨"sess-10001-20001-1", 20001, "battle-20001-1001-1", 1001,
          3, true⟩)).run (Store.lossy false) (fun _ => none) s =
            some (.settleDungeon response, s₁) ∧
        (DungeonService.settleDungeonFromMysql demoEnv
          ⟨"sess-10001-20001-1", 20001, "battle-20001-1001-1", 1001, 3, true⟩).run
          (Store.lossy false) (fun _ => none) s = some (response, s₂) ∧ s₁.mysql = s₂.mysql := by
  have hrun : (replay (Store.workLossy demoEnv) (fun _ _ => true) emptyWorld.store
      [.serve false (.login ⟨"demo", "demo"⟩) fun _ => none,
        .serve true (.enterDungeon ⟨"sess-10001-20001-1", 20001, 1001⟩) fun _ => none,
        .serve true (.settleDungeon ⟨"sess-10001-20001-1", 20001, "battle-20001-1001-1", 1001, 3,
          true⟩) fun _ => some "lost"]).any
      (fun s => (s.redis.context "battle-20001-1001-1").isSome &&
        decide (s.mysql.binlog.length = 2)) = true := by
    decide +kernel
  obtain ⟨s, hreach, hstate⟩ := Reach.of_replay_any (fun _ _ _ => trivial) hrun
  obtain ⟨hcontext, hlength⟩ := Bool.and_eq_true_iff.mp hstate
  exact ⟨s, hreach, hcontext, of_decide_eq_true hlength,
    battle_contexts_optional Store.fresh_emptyWorld hreach false _ _ _⟩

end GameBackend
