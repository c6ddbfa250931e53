import GameBackend.Alone

/-!
# What a request reads and writes

Rules for requests that are processed alone while MySQL does not fail: what the
methods of the repositories return, as functions of the store, and what they leave
behind. Redis commands that write may still fail, as the executor decides
(`Reliable`).
-/

namespace GameBackend

variable {ι X : Type} [DecidableEq ι] {env : Env} {i : ι} {s : Store ι}

/-! ## What is stored -/

/-- What `LoadPlayerState` returns on these tables. -/
def Tables.playerState (t : Tables) (p : ℤ) : Option PlayerState :=
  ((Query.profile p).rows t).head?.map fun profile => stateOf profile ((Query.progress p).rows t)

/-- What `HGetAll` returns. -/
def Redis.hGetAll (d : Redis) (k : RedisKey) : Option (List (String × String)) :=
  (d.hash? k).filter fun values => !values.isEmpty

omit [DecidableEq ι] in
/-- What is read from a hash is there. -/
theorem Redis.live_of_hGetAll {d : Redis} {k : RedisKey} {values : List (String × String)}
    (h : d.hGetAll k = some values) : ∃ e, d.live k = some e ∧ e.value = .hash values := by
  obtain ⟨hhash, hne⟩ := Option.filter_eq_some_iff.mp h
  simp only [Redis.hash?] at hhash
  split at hhash
  · obtain rfl := Option.some.inj hhash
    cases hne
  · rename_i fields expires hlive
    exact ⟨_, hlive, congrArg RedisValue.hash (Option.some.inj hhash)⟩
  · cases hhash

/-- What `RedisSessionRepository::FindById` returns, when it does not throw. -/
def Redis.session (d : Redis) (sessionId : String) : Option Session :=
  (d.hGetAll (.session sessionId)).bind (RedisSessionRepository.decode sessionId)

/-- What `RedisBattleContextRepository::FindByBattleId` returns, when it does not
throw. -/
def Redis.context (d : Redis) (battleId : String) : Option BattleContext :=
  (d.hGetAll (.battleCtx battleId)).bind (RedisBattleContextRepository.decode battleId)

/-- What `MySqlDungeonRepository::FindBattleById` returns on these tables. -/
def Tables.battle (t : Tables) (battleId : String) : Option BattleContext :=
  (t.dungeonBattle.find battleId).map MySqlDungeonRepository.contextOf

/-- After an attempt to acquire the lock of player `p`. -/
def Store.attemptLock (env : Env) (s : Store ι) (p : ℤ) : Store ι :=
  { s with redis := (s.redis.execute (.setNx (.playerLock p) "1"
      (RedisPlayerLockRepository.ttlSeconds env).toNat)).2 }

/-- Every hash that is there decodes. -/
def Redis.Decodes (d : Redis) : Prop := ∀ k values, d.hGetAll k = some values → k.Decodes values

omit [DecidableEq ι] in
theorem Redis.decodes_of_filled {d : Redis} (h : Filled env d fun _ : ι => .outside) :
    d.Decodes := by
  intro k values hvalues
  obtain ⟨e, hlive, hvalue⟩ := Redis.live_of_hGetAll hvalues
  by_cases hk : k.fieldNames = []
  · cases k with
    | session _ | playerSnapshot _ | battleCtx _ => cases hk
    | accountSession _ | playerLock _ => trivial
  · have hfields : e.fields = values := by simp only [RedisEntry.fields, hvalue]
    rcases h.whole k e hk hlive with hwhole | ⟨_, _, _, hmid⟩
    · have hgenuine := h.genuine k e hk (Redis.entries_of_live hlive)
      exact hfields ▸ RedisKey.decodes_of_complete hgenuine hwhole.1
    · cases hmid

/-- What is read from a hash depends on the entry that is present. -/
theorem Redis.hGetAll_congr {d d' : Redis} {k : RedisKey} (h : d'.live k = d.live k) :
    d'.hGetAll k = d.hGetAll k := by
  rw [hGetAll, hGetAll, hash?, hash?, h]

omit [DecidableEq ι] in
theorem Store.hGetAll_attemptLock (s : Store ι) (p : ℤ) {k : RedisKey} (hk : k ≠ .playerLock p) :
    (s.attemptLock env p).redis.hGetAll k = s.redis.hGetAll k :=
  Redis.hGetAll_congr (Redis.live_congr (Redis.entries_execute_ne hk) Redis.now_execute)

omit [DecidableEq ι] in
theorem Redis.Decodes.attemptLock (h : s.redis.Decodes) (p : ℤ) :
    (s.attemptLock env p).redis.Decodes := by
  intro k values hvalues
  by_cases hk : k = .playerLock p
  · subst hk
    trivial
  · exact h k values (s.hGetAll_attemptLock _ hk ▸ hvalues)

omit [DecidableEq ι] in
theorem Store.context_attemptLock (s : Store ι) (p : ℤ) (battleId : String) :
    (s.attemptLock env p).redis.context battleId = s.redis.context battleId := by
  rw [Redis.context, Redis.context, s.hGetAll_attemptLock _ (by simp)]

omit [DecidableEq ι] in
/-- At rest no row is locked. -/
theorem Store.AtRest.unlocked (h : s.AtRest env) (k : RowKey) : s.mysql.locks k = none := by
  rcases hk : s.mysql.locks k with _ | j
  · rfl
  · have hopen := h.sound.held k j hk
    rw [h.txns j] at hopen
    cases hopen

omit [DecidableEq ι] in
/-- A context that is found belongs to a row. -/
theorem Store.AtRest.context (h : s.AtRest env) {battleId : String} {context : BattleContext}
    (hfound : s.redis.context battleId = some context) :
    ∃ row, s.mysql.tables.dungeonBattle.find battleId = some row ∧
      context = contextOfEntered env.dungeonConfig row := by
  obtain ⟨values, hvalues, hdecode⟩ := Option.bind_eq_some_iff.mp hfound
  obtain ⟨e, he, hvalue⟩ := Redis.live_of_hGetAll hvalues
  obtain ⟨values', row, hvalue', hrow, hsub⟩ := h.contexts battleId e (Redis.entries_of_live he)
  obtain rfl := RedisValue.hash.inj (hvalue.symm.trans hvalue')
  obtain rfl : row.battleId = battleId := Table.key_of_find hrow
  exact ⟨row, hrow, RedisBattleContextRepository.decode_of_subHash hsub hdecode⟩

/-! ## Executors -/

/-- An executor of the commands of process `i` under which MySQL answers and what
Redis is asked it answers too; only its writes and deletions may fail. -/
structure Reliable (exec : Store ι → X → (c : Cmd) → Option (c.Reply × Store ι)) (i : ι) :
    Prop where
  sql : ∀ s x c, exec s x (.sql c) = s.perform i none (.sql c)
  hgetall : ∀ s x k, exec s x (.redis (.hgetall k)) = s.perform i none (.redis (.hgetall k))
  setNx : ∀ s x k v ttl,
    exec s x (.redis (.setNx k v ttl)) = s.perform i none (.redis (.setNx k v ttl))
  redis : ∀ s x c, ∃ fault, exec s x (.redis c) = s.perform i fault (.redis c)

/-- Nothing fails. -/
def Store.faultless (i : ι) (s : Store ι) (_ : Unit) (c : Cmd) : Option (c.Reply × Store ι) :=
  s.perform i none c

theorem reliable_faultless : Reliable (Store.faultless i) i :=
  ⟨fun _ _ _ => rfl, fun _ _ _ => rfl, fun _ _ _ _ _ => rfl, fun _ _ _ => ⟨none, rfl⟩⟩

/-- A request without faults. -/
theorem Store.serve_faultless (request : Request) :
    s.serve env i request (fun _ => none) =
      (GameBackend.serve env request).run (Store.faultless i) (fun _ => ()) s := by
  have hexec : (fun (s : Store ι) (_ : Unit) (c : Cmd) => s.attempt i none c) =
      Store.faultless i := by
    funext s _ c
    rw [Store.attempt, ite_self, Store.faultless]
  rw [Store.serve, ← hexec]
  exact Prog.run_comp (fun _ : Unit => none) _ (fun _ => ()) s

/-! ## Reading -/

section Reading

variable {exec : Store ι → X → (c : Cmd) → Option (c.Reply × Store ι)} {α : Type}

/-- A statement that MySQL executes at once. -/
theorem ensures_sql (hexec : Reliable exec i) {c : SqlCmd} {r : c.Reply} {m : Mysql ι}
    (h : s.mysql.execute i c = some (r, m)) :
    (sql c).Ensures exec (fun a s' => a = r ∧ s' = { s with mysql := m }) s := by
  intro x
  refine ⟨r, { s with mysql := m }, ?_, rfl, rfl⟩
  rw [hexec.sql, Store.perform, h]
  rfl

/-- Outside a transaction a query sees the committed tables. -/
theorem ensures_query (hexec : Reliable exec i) (hnone : s.mysql.txns i = none) (q : Query) :
    (MySqlClient.query q).Ensures exec
      (fun rows s' => rows = q.rows s.mysql.tables ∧ s' = s) s := by
  have hview : s.mysql.view i = s.mysql.tables := by
    rw [Mysql.view, hnone]
    rfl
  have hselect : s.mysql.execute i (.select q) = some (some (q.rows s.mysql.tables), s.mysql) := by
    rw [Mysql.execute, hview]
  refine (ensures_sql hexec hselect).bind ?_
  rintro _ s' ⟨rfl, rfl⟩
  exact ⟨rfl, rfl⟩

theorem ensures_queryOne (hexec : Reliable exec i) (hnone : s.mysql.txns i = none) (q : Query) :
    (MySqlClient.queryOne q).Ensures exec
      (fun row s' => row = (q.rows s.mysql.tables).head? ∧ s' = s) s := by
  refine (ensures_query hexec hnone q).bind ?_
  rintro rows s' ⟨rfl, rfl⟩
  exact ⟨rfl, rfl⟩

theorem ensures_loadPlayerState (hexec : Reliable exec i) (hnone : s.mysql.txns i = none) (p : ℤ) :
    (MySqlPlayerRepository.loadPlayerState p).Ensures exec
      (fun state s' => state = s.mysql.tables.playerState p ∧ s' = s) s := by
  refine (ensures_queryOne hexec hnone _).bind ?_
  rintro profile s' ⟨hprofile, rfl⟩
  rw [Tables.playerState, ← hprofile]
  cases profile with
  | none => exact ⟨rfl, rfl⟩
  | some profile =>
    refine (ensures_query hexec hnone _).bind ?_
    rintro rows s' ⟨rfl, rfl⟩
    exact ⟨rfl, rfl⟩

theorem ensures_hGetAll (hexec : Reliable exec i) (k : RedisKey) :
    (RedisClient.hGetAll k).Ensures exec (fun r s' => r = s.redis.hGetAll k ∧ s' = s) s := by
  intro x
  refine ⟨s.redis.hash? k, s, hexec.hgetall s x k, ?_⟩
  rw [Redis.hGetAll]
  rcases s.redis.hash? k with _ | _ | ⟨field, rest⟩
  · exact ⟨rfl, rfl⟩
  · exact ⟨rfl, rfl⟩
  · exact ⟨rfl, rfl⟩

/-- Reading a hash that decodes. -/
theorem ensures_find (hexec : Reliable exec i) {k : RedisKey}
    {decode : List (String × String) → Option α}
    (hdecode : ∀ values, s.redis.hGetAll k = some values → (decode values).isSome = true) :
    Prog.Ensures exec (fun r s' => r = (s.redis.hGetAll k).bind decode ∧ s' = s) (do
      match ← RedisClient.hGetAll k with
      | none => return none
      | some values => return some (← orThrow (decode values))) s := by
  refine (ensures_hGetAll hexec k).bind ?_
  rintro r s' ⟨rfl, rfl⟩
  rcases hvalues : s'.redis.hGetAll k with _ | values
  · exact ⟨rfl, rfl⟩
  · obtain ⟨a, ha⟩ := Option.isSome_iff_exists.mp (hdecode values hvalues)
    dsimp only
    rw [ha]
    exact ⟨ha.symm, rfl⟩

theorem ensures_findById (hexec : Reliable exec i) (h : s.redis.Decodes) (sessionId : String) :
    (RedisSessionRepository.findById sessionId).Ensures exec
      (fun session s' => session = s.redis.session sessionId ∧ s' = s) s :=
  ensures_find hexec fun values => h _ values

theorem ensures_findBattleById (hexec : Reliable exec i) (hnone : s.mysql.txns i = none)
    (battleId : String) :
    (MySqlDungeonRepository.findBattleById battleId).Ensures exec
      (fun context s' => context = s.mysql.tables.battle battleId ∧ s' = s) s := by
  refine (ensures_queryOne hexec hnone _).bind ?_
  rintro row s' ⟨rfl, rfl⟩
  refine ⟨?_, rfl⟩
  rw [Query.rows, Option.head?_toList]
  rfl

theorem ensures_findBattle (hexec : Reliable exec i) (hnone : s.mysql.txns i = none)
    (h : s.redis.Decodes) (battleId : String) :
    (DungeonService.findBattle battleId).Ensures exec (fun context s' =>
      context = (s.redis.context battleId).or (s.mysql.tables.battle battleId) ∧ s' = s) s := by
  refine Prog.Ensures.bind (ensures_find hexec fun values => h _ values) ?_
  rintro context s' ⟨rfl, rfl⟩
  rw [Redis.context]
  rcases (s'.redis.hGetAll (.battleCtx battleId)).bind
    (RedisBattleContextRepository.decode battleId) with _ | context
  · exact ensures_findBattleById hexec hnone battleId
  · exact ⟨rfl, rfl⟩

/-- The lock is acquired if it is free. -/
theorem ensures_acquire (hexec : Reliable exec i) (p : ℤ) :
    (DungeonService.acquirePlayerLock env p).Ensures exec (fun acquired s' =>
      acquired = (s.redis.live (.playerLock p)).isNone ∧ s' = s.attemptLock env p) s := by
  intro x
  refine ⟨_, _, hexec.setNx s x _ _ _, ?_, rfl⟩
  rcases hlive : s.redis.live (.playerLock p) with _ | e
  · simp [Redis.execute, hlive]
  · simp [Redis.execute, hlive]

end Reading

/-! ## Writing hashes -/

section Writing

variable {exec : Store ι → X → (c : Cmd) → Option (c.Reply × Store ι)}

/-- A Redis command gets an answer. -/
theorem Reliable.answers (hexec : Reliable exec i) (s : Store ι) (x : X) (c : RedisCmd) :
    ∃ r s', exec s x (.redis c) = some (r, s') := by
  obtain ⟨fault, hfault⟩ := hexec.redis s x c
  rw [hfault]
  cases fault <;> exact ⟨_, _, rfl⟩

theorem Reliable.ensures_redis (hexec : Reliable exec i) (c : RedisCmd) (s : Store ι) :
    (GameBackend.redis c).Ensures exec (fun _ _ => True) s := by
  intro x
  obtain ⟨r, s', hs⟩ := hexec.answers s x c
  exact ⟨r, s', hs, trivial⟩

/-- Writing a hash comes to an end. -/
theorem ensures_hSetFields (hexec : Reliable exec i) (k : RedisKey) :
    ∀ (values : List (String × String)) (s : Store ι),
      (RedisClient.hSetFields k values).Ensures exec (fun _ _ => True) s
  | [], _ => trivial
  | (f, v) :: rest, s => fun x => by
    obtain ⟨r, s', hs⟩ := hexec.answers s x (.hset k f v)
    refine ⟨r, s', hs, ?_⟩
    cases r with
    | true => exact ensures_hSetFields hexec k rest s'
    | false => trivial

theorem ensures_hSet (hexec : Reliable exec i) (k : RedisKey) (values : List (String × String))
    (ttl : ℤ) : (RedisClient.hSet env k values ttl).Ensures exec (fun _ _ => True) s := by
  refine (ensures_hSetFields hexec k _ s).bind ?_
  rintro (_ | _) s' -
  · trivial
  · rw [if_pos rfl]
    split
    · exact hexec.ensures_redis _ s'
    · trivial

end Writing

end GameBackend
