import GameBackend.Execution

/-!
# Requests with failing commands

A program run alone by a process, from any store, where any command may fail: with
a fault `Store.perform` leaves the store alone, and the fault is the error message.
The rules say what the methods of the clients and repositories return, as functions
of the store and of the faults of their commands, at which command the program goes
on, and when it gets stuck: a hash that does not decode throws, and a statement on a
row that another connection has locked waits.
-/

namespace GameBackend

variable {ι : Type} [DecidableEq ι] {env : Env} {i : ι} {s : Store ι} {α : Type}
  {faults : ℕ → Option String} {n : ℕ} {stuck : Prop}

/-- The commands of process `i`, each with its fault. -/
abbrev Store.failing (i : ι) (s : Store ι) (fault : Option String) (c : Cmd) :
    Option (c.Reply × Store ι) :=
  s.perform i fault c

/-- Process `i` runs a program alone; `faults n` is the fault of its `n`th command. -/
def Store.runFailing (s : Store ι) (i : ι) (m : Program α) (faults : ℕ → Option String) :
    Option (α × Store ι) :=
  m.run (Store.failing i) faults s

theorem Prog.Yields.runFailing {m : Program α} {Q : α → ℕ → Store ι → Prop}
    (h : m.Yields (Store.failing i) faults stuck Q 0 s) {a : α} {s' : Store ι}
    (hrun : s.runFailing i m faults = some (a, s')) : ∃ n, Q a n s' := by
  refine h.run ?_
  simp only [Nat.zero_add]
  exact hrun

theorem Prog.Yields.runFailing_returns {m : Program α} {Q : α → ℕ → Store ι → Prop}
    (h : m.Yields (Store.failing i) faults stuck Q 0 s) (hstuck : ¬stuck) :
    ∃ a s', s.runFailing i m faults = some (a, s') := by
  obtain ⟨a, s', hrun⟩ := h.returns hstuck
  simp only [Nat.zero_add] at hrun
  exact ⟨a, s', hrun⟩

/-! ## Redis -/

theorem yields_redis (c : RedisCmd) :
    (redis c).Yields (Store.failing i) faults stuck (fun r n' s' => n' = n + 1 ∧
      (r, s') = if faults n = none then ((s.redis.execute c).1,
        { s with redis := (s.redis.execute c).2 }) else (c.failed, s)) n s := by
  cases hfault : faults n with
  | none =>
    refine ⟨by rw [hfault]; nofun, fun r s' hs => ⟨rfl, ?_⟩⟩
    rw [hfault] at hs
    rw [if_pos rfl]
    exact (Option.some.inj hs).symm
  | some message =>
    refine ⟨by rw [hfault]; nofun, fun r s' hs => ⟨rfl, ?_⟩⟩
    rw [hfault] at hs
    rw [if_neg (Option.some_ne_none message)]
    exact (Option.some.inj hs).symm

theorem yields_hGetAll (k : RedisKey) :
    (RedisClient.hGetAll k).Yields (Store.failing i) faults stuck (fun r n' s' => n' = n + 1 ∧
      s' = s ∧ r = if faults n = none then s.redis.hGetAll k else none) n s := by
  refine (yields_redis (.hgetall k)).bind ?_
  rintro r _ s' ⟨rfl, hr⟩
  by_cases hfault : faults n = none
  · rw [if_pos hfault] at hr
    have hexec : s.redis.execute (.hgetall k) = (s.redis.hash? k, s.redis) := rfl
    rw [hexec] at hr
    obtain ⟨rfl, rfl⟩ := Prod.mk.inj hr
    rw [if_pos hfault, Redis.hGetAll]
    rcases s.redis.hash? k with _ | _ | ⟨field, rest⟩
    · exact ⟨rfl, rfl, rfl⟩
    · exact ⟨rfl, rfl, rfl⟩
    · exact ⟨rfl, rfl, rfl⟩
  · rw [if_neg hfault] at hr
    obtain ⟨rfl, rfl⟩ := Prod.mk.inj hr
    rw [if_neg hfault]
    exact ⟨rfl, rfl, rfl⟩

/-- Reading and decoding a hash. -/
theorem yields_find (k : RedisKey) (decode : List (String × String) → Option α)
    (hdecode : ∀ values, s.redis.hGetAll k = some values → decode values = none → stuck) :
    Prog.Yields (Store.failing i) faults stuck (fun r n' s' => n' = n + 1 ∧ s' = s ∧
      r = if faults n = none then (s.redis.hGetAll k).bind decode else none) (do
      match ← RedisClient.hGetAll k with
      | none => return none
      | some values => return some (← orThrow (decode values))) n s := by
  refine (yields_hGetAll k).bind ?_
  rintro values _ _ ⟨rfl, rfl, hvalues⟩
  by_cases hfault : faults n = none
  · rw [if_pos hfault] at hvalues
    rw [if_pos hfault, ← hvalues]
    cases values with
    | none => exact ⟨rfl, rfl, rfl⟩
    | some values =>
      cases hvalue : decode values with
      | none =>
        simp only [orThrow, hvalue, Prog.ofOption_none, Prog.throw_bind]
        exact hdecode values hvalues.symm hvalue
      | some a =>
        simp only [orThrow, hvalue, Prog.ofOption_some, Prog.ret_bind]
        exact ⟨rfl, rfl, hvalue.symm⟩
  · rw [if_neg hfault] at hvalues
    obtain rfl := hvalues
    rw [if_neg hfault]
    exact ⟨rfl, rfl, rfl⟩

/-- `FindById` does not throw on a session that can be read. -/
theorem Redis.readable_of_session {d : Redis} {sessionId : String} {session : Session}
    (h : d.session sessionId = some session) {values : List (String × String)}
    (hvalues : d.hGetAll (.session sessionId) = some values) :
    RedisSessionRepository.decode sessionId values ≠ none := by
  obtain ⟨values', hvalues', hdecode⟩ := Option.bind_eq_some_iff.mp h
  obtain rfl := Option.some.inj (hvalues'.symm.trans hvalues)
  rw [hdecode]
  exact nofun

theorem yields_findById (sessionId : String)
    (hdecode : ∀ values, s.redis.hGetAll (.session sessionId) = some values →
      RedisSessionRepository.decode sessionId values = none → stuck) :
    (RedisSessionRepository.findById sessionId).Yields (Store.failing i) faults stuck
      (fun r n' s' => n' = n + 1 ∧ s' = s ∧
        r = if faults n = none then s.redis.session sessionId else none) n s :=
  yields_find _ _ hdecode

theorem yields_findByBattleId (battleId : String)
    (hdecode : ∀ values, s.redis.hGetAll (.battleCtx battleId) = some values →
      RedisBattleContextRepository.decode battleId values = none → stuck) :
    (RedisBattleContextRepository.findByBattleId battleId).Yields (Store.failing i) faults stuck
      (fun r n' s' => n' = n + 1 ∧ s' = s ∧
        r = if faults n = none then s.redis.context battleId else none) n s :=
  yields_find _ _ hdecode

theorem yields_acquire (p : ℤ) :
    (DungeonService.acquirePlayerLock env p).Yields (Store.failing i) faults stuck
      (fun acquired n' s' => n' = n + 1 ∧
        s' = (if faults n = none then s.attemptLock env p else s) ∧
        (acquired = true ↔ faults n = none ∧ s.redis.live (.playerLock p) = none)) n s := by
  refine (yields_redis _).bind ?_
  rintro r _ s' ⟨rfl, hr⟩
  by_cases hfault : faults n = none
  · rw [if_pos hfault] at hr
    obtain ⟨rfl, rfl⟩ := Prod.mk.inj hr
    refine ⟨rfl, (if_pos hfault).symm, ?_⟩
    rcases hlive : s.redis.live (.playerLock p) with _ | e
    · simp [Redis.execute, hlive, hfault]
    · simp [Redis.execute, hlive]
  · rw [if_neg hfault] at hr
    obtain ⟨rfl, rfl⟩ := Prod.mk.inj hr
    exact ⟨rfl, (if_neg hfault).symm, by simp [RedisCmd.failed, hfault]⟩

/-- Redis commands never wait. -/
theorem yields_redis_top (c : RedisCmd) (n : ℕ) (s : Store ι) :
    (redis c).Yields (Store.failing i) faults stuck (fun _ _ _ => True) n s :=
  (yields_redis c).mono fun _ _ _ _ => trivial

theorem yields_hSetFields_top (k : RedisKey) :
    ∀ (values : List (String × String)) (n : ℕ) (s : Store ι),
      (RedisClient.hSetFields k values).Yields (Store.failing i) faults stuck
        (fun _ _ _ => True) n s
  | [], _, _ => trivial
  | (f, v) :: rest, n, s => by
    refine (yields_redis_top (.hset k f v) n s).bind fun r n' s' _ => ?_
    cases r with
    | true => exact yields_hSetFields_top k rest n' s'
    | false => exact trivial

theorem yields_hSet_top (k : RedisKey) (values : List (String × String)) (ttl : ℤ) (n : ℕ)
    (s : Store ι) :
    (RedisClient.hSet env k values ttl).Yields (Store.failing i) faults stuck
      (fun _ _ _ => True) n s := by
  refine (yields_hSetFields_top k _ n s).bind fun done n' s' _ => ?_
  cases done with
  | false => exact trivial
  | true =>
    rw [if_pos rfl]
    split
    · exact yields_redis_top _ n' s'
    · exact trivial

/-! ## MySQL -/

/-- No other connection has locked the row. -/
def Store.Accessible (s : Store ι) (i : ι) (k : RowKey) : Prop :=
  s.mysql.locks k = none ∨ s.mysql.locks k = some i

theorem yields_sql (c : SqlCmd) (hstuck : s.mysql.execute i c = none → stuck) :
    (sql c).Yields (Store.failing i) faults stuck (fun r n' s' => n' = n + 1 ∧
      ((∃ message, faults n = some message ∧ r = c.failed message ∧ s' = s) ∨
        ∃ m, faults n = none ∧ s.mysql.execute i c = some (r, m) ∧
          s' = { s with mysql := m })) n s := by
  cases hfault : faults n with
  | none =>
    refine ⟨fun hs => ?_, fun r s' hs => ⟨rfl, ?_⟩⟩
    · rw [hfault] at hs
      exact hstuck (Option.map_eq_none_iff.mp hs)
    · rw [hfault] at hs
      obtain ⟨⟨r', m⟩, hexec, hrm⟩ := Option.map_eq_some_iff.mp hs
      obtain ⟨rfl, rfl⟩ := Prod.mk.inj hrm
      exact .inr ⟨m, rfl, hexec, rfl⟩
  | some message =>
    refine ⟨by rw [hfault]; nofun, fun r s' hs => ⟨rfl, ?_⟩⟩
    rw [hfault] at hs
    obtain ⟨rfl, rfl⟩ := Prod.mk.inj (Option.some.inj hs)
    exact .inl ⟨message, rfl, rfl, rfl⟩

theorem yields_query (q : Query) :
    (MySqlClient.query q).Yields (Store.failing i) faults stuck (fun rows n' s' => n' = n + 1 ∧
      s' = s ∧ rows = if faults n = none then q.rows (s.mysql.view i) else []) n s := by
  refine (yields_sql (.select q) nofun).bind ?_
  rintro r _ s' ⟨rfl, ⟨message, hfault, rfl, rfl⟩ | ⟨m, hfault, hexec, rfl⟩⟩
  · exact ⟨rfl, rfl, by simp [hfault]⟩
  · obtain ⟨rfl, rfl⟩ := Prod.mk.inj (Option.some.inj hexec)
    exact ⟨rfl, rfl, by simp [hfault]⟩

theorem yields_queryOne (q : Query) :
    (MySqlClient.queryOne q).Yields (Store.failing i) faults stuck (fun row n' s' => n' = n + 1 ∧
      s' = s ∧ row = if faults n = none then (q.rows (s.mysql.view i)).head? else none) n s := by
  refine (yields_query q).bind ?_
  rintro rows _ s' ⟨rfl, rfl, rfl⟩
  refine ⟨rfl, rfl, ?_⟩
  split <;> rfl

/-- Of a loaded player only the profile depends on the first statement alone. -/
theorem yields_loadPlayerState (p : ℤ) :
    (MySqlPlayerRepository.loadPlayerState p).Yields (Store.failing i) faults stuck
      (fun state n' s' => s' = s ∧ (state.isSome = true → n' = n + 2) ∧
        state.map PlayerState.profile = if faults n = none
          then ((Query.profile p).rows (s.mysql.view i)).head? else none) n s := by
  refine (yields_queryOne _).bind ?_
  rintro profile _ s' ⟨rfl, rfl, hprofile⟩
  cases profile with
  | none => exact ⟨rfl, nofun, hprofile⟩
  | some profile =>
    refine (yields_query _).bind ?_
    rintro rows _ s' ⟨rfl, rfl, -⟩
    exact ⟨rfl, fun _ => rfl, hprofile⟩

theorem yields_findBattleById (battleId : String) :
    (MySqlDungeonRepository.findBattleById battleId).Yields (Store.failing i) faults stuck
      (fun context n' s' => n' = n + 1 ∧ s' = s ∧
        context = if faults n = none then (s.mysql.view i).battle battleId else none) n s := by
  refine (yields_queryOne _).bind ?_
  rintro row _ s' ⟨rfl, rfl, rfl⟩
  refine ⟨rfl, rfl, ?_⟩
  split
  · rw [Query.rows, Option.head?_toList]
    rfl
  · rfl

theorem yields_beginTransaction :
    MySqlClient.beginTransaction.Yields (Store.failing i) faults stuck
      (fun r n' s' => n' = n + 1 ∧
        ((∃ message, faults n = some message ∧ r = .error message) ∨
          faults n = none ∧ r = .ok () ∧ s'.mysql.txns i = some [] ∧
            s'.mysql.view i = s.mysql.view i ∧
            ∀ k, s.Accessible i k → s'.Accessible i k)) n s := by
  refine (yields_sql .startTransaction nofun).mono ?_
  rintro r _ s' ⟨rfl, ⟨message, hfault, rfl, rfl⟩ | ⟨m, hfault, hexec, rfl⟩⟩
  · exact ⟨rfl, .inl ⟨message, hfault, rfl⟩⟩
  · obtain ⟨rfl, rfl⟩ := Prod.mk.inj (Option.some.inj hexec)
    have hcommit : (s.mysql.commitTxn i).tables = s.mysql.view i ∧
        ∀ k, s.Accessible i k → (s.mysql.commitTxn i).locks k = none ∨
          (s.mysql.commitTxn i).locks k = some i := by
      rw [Mysql.commitTxn, Mysql.view]
      split
      · rename_i hnone
        exact ⟨by rw [hnone]; rfl, fun k hk => hk⟩
      · rename_i ws hsome
        refine ⟨by rw [hsome]; rfl, fun k hk => .inl ?_⟩
        rcases hk with hk | hk
        · simp [Mysql.release, hk]
        · simp [Mysql.release, hk]
    refine ⟨rfl, .inr ⟨hfault, rfl, Function.update_self .., ?_, hcommit.2⟩⟩
    simp only [Mysql.view, Function.update_self, Option.getD_some, applyAll, List.foldl_nil]
    exact hcommit.1

/-- What `Execute` returns for a statement with this outcome. -/
def SqlWrite.answer : Outcome → Except String ℕ
  | .rejected message => .error message
  | .unmatched => .ok 0
  | .hit _ affected => .ok affected

/-- A statement of an open transaction. -/
theorem yields_execute {ws : List SqlWrite} (hopen : s.mysql.txns i = some ws) (w : SqlWrite)
    (hfree : s.Accessible i w.key ∨ stuck) :
    (MySqlClient.execute w).Yields (Store.failing i) faults stuck (fun r n' s' => n' = n + 1 ∧
      (∃ ws', s'.mysql.txns i = some ws') ∧ (∀ k, s.Accessible i k → s'.Accessible i k) ∧
      ((∃ message, faults n = some message ∧ r = .error message ∧
          s'.mysql.view i = s.mysql.view i) ∨
        faults n = none ∧ r = SqlWrite.answer (w.run (s.mysql.view i)) ∧
          s'.mysql.view i = w.apply (s.mysql.view i))) n s := by
  have hwaits : s.mysql.execute i (.write w) = none → stuck := by
    intro hnone
    refine hfree.resolve_left fun hfree => ?_
    rw [Mysql.execute, if_pos (show s.mysql.locks w.key = none ∨ _ from hfree)] at hnone
    cases hrun : w.run (s.mysql.view i) with
    | rejected message => simp [hrun] at hnone
    | unmatched => simp [hrun] at hnone
    | hit t affected => simp [hrun, hopen] at hnone
  refine (yields_sql (.write w) hwaits).mono ?_
  rintro r _ s' ⟨rfl, ⟨message, hfault, rfl, rfl⟩ | ⟨m, hfault, hexec, rfl⟩⟩
  · exact ⟨rfl, ⟨ws, hopen⟩, fun _ h => h, .inl ⟨message, hfault, rfl, rfl⟩⟩
  · refine ⟨rfl, ?_⟩
    simp only [Mysql.execute] at hexec
    split at hexec
    · cases hrun : w.run (s.mysql.view i) with
      | rejected message =>
        rw [hrun] at hexec
        obtain ⟨rfl, rfl⟩ := Prod.mk.inj (Option.some.inj hexec)
        exact ⟨⟨ws, hopen⟩, fun _ h => h, .inr ⟨hfault, rfl, by simp [SqlWrite.apply, hrun]⟩⟩
      | unmatched =>
        rw [hrun] at hexec
        obtain ⟨rfl, rfl⟩ := Prod.mk.inj (Option.some.inj hexec)
        exact ⟨⟨ws, hopen⟩, fun _ h => h, .inr ⟨hfault, rfl, by simp [SqlWrite.apply, hrun]⟩⟩
      | hit t affected =>
        simp only [hrun, hopen] at hexec
        obtain ⟨rfl, rfl⟩ := Prod.mk.inj (Option.some.inj hexec)
        refine ⟨⟨ws ++ [w], Function.update_self ..⟩, fun k hk => ?_, .inr ⟨hfault, rfl, ?_⟩⟩
        · by_cases hkey : k = w.key
          · subst hkey
            exact .inr (Function.update_self ..)
          · simpa only [Store.Accessible, Function.update_of_ne hkey] using hk
        · simp [Mysql.view, hopen, applyAll, List.foldl_append]
    · cases hexec

end GameBackend
