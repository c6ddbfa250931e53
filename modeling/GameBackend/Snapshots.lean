import GameBackend.Execution

/-!
# Cached and uncached profiles

While requests are processed one after the other and nothing fails, a snapshot in
Redis is always the state of its player in MySQL (`Coherent`): `LoadPlayer` writes
what it has just read, and the one deed that changes a player deletes the snapshot
behind its commit. So `LoadPlayer` answers what a service without a cache answers.
-/

namespace GameBackend

variable {ι : Type} [DecidableEq ι] {env : Env} {cfg : DungeonConfig} {i : ι}
  {s s' s₀ : Store ι} {φ ψ : Phase} {c : Cmd} {r : c.Reply} {fault : Option String}
  {t t' : Tables} {deed : Deed} {p : ℤ}

/-! ## The service without a cache -/

/-- `LoadPlayer` of a service that always reads MySQL. -/
def PlayerService.loadPlayerUncached (request : LoadPlayerRequest) :
    Program LoadPlayerResponse := do
  let session ← RedisSessionRepository.findById request.sessionId
  if session.map Session.playerId ≠ some request.playerId then
    return refuse .sessionInvalid "session invalid"
  match ← MySqlPlayerRepository.loadPlayerState request.playerId with
  | none => return refuse .playerNotFound "player not found"
  | some playerState => return ⟨true, .ok, "", some playerState, false⟩

/-- A response apart from the flag that tells where it comes from. -/
def LoadPlayerResponse.unmarked (response : LoadPlayerResponse) : LoadPlayerResponse :=
  { response with loadedFromCache := false }

/-! ## Whom a deed changes -/

/-- A deed leaves the accounts' players alone. -/
theorem Transacts.player (h : Transacts cfg deed t t') : t'.player = t.player := by
  cases deed with
  | enter row => rw [Entered.eq h]; rfl
  | settle s => exact Settled.player h

/-- Writing the progress row of one player leaves those of another alone. -/
theorem Progressed.filter_ne {settlement : Settlement} {u u' : Table ProgressRow.key}
    (h : Progressed settlement u u') (hp : p ≠ settlement.playerId) :
    (u'.rows.filter fun r => r.playerId = p) = u.rows.filter fun r => r.playerId = p := by
  cases h with
  | created free => exact Table.filter_insert _ (decide_eq_false hp.symm)
  | improved found =>
    refine Table.filter_modify _ fun r hr => ?_
    have hother : r.playerId ≠ p := fun h => hp (h.symm.trans (congrArg Prod.fst hr))
    exact ⟨decide_eq_false hother, decide_eq_false hother⟩

/-- A deed changes the profile of its own player only. -/
theorem Transacts.profile_ne (h : Transacts cfg deed t t') (hp : p ≠ deed.player) :
    (Query.profile p).rows t' = (Query.profile p).rows t := by
  have hasset : t'.playerAsset.find p = t.playerAsset.find p := by
    rw [h.find_asset]
    simp [hp]
  simp only [Query.rows, hasset, h.player]

/-- A deed changes the state of its own player only. -/
theorem Transacts.playerState_ne (h : Transacts cfg deed t t') (hp : p ≠ deed.player) :
    t'.playerState p = t.playerState p := by
  have hprogress : (Query.progress p).rows t' = (Query.progress p).rows t := by
    cases deed with
    | enter row => rw [Entered.eq h]; rfl
    | settle s => exact (Settled.progress h).filter_ne hp
  rw [Tables.playerState, Tables.playerState, h.profile_ne hp, hprogress]

/-- A deed makes no player appear or vanish. -/
theorem Transacts.isSome_playerState (h : Transacts cfg deed t t') :
    (t'.playerState p).isSome = (t.playerState p).isSome := by
  simp only [Tables.playerState, Query.rows, Option.head?_toList, Option.isSome_map, h.player]

/-! ## Snapshots are current -/

/-- The entry has only fields of the state `state`. -/
def RedisEntry.Shows (e : RedisEntry) (state : Option PlayerState) : Prop :=
  ∃ values playerState, e.value = .hash values ∧ state = some playerState ∧
    SubHash values (RedisPlayerCacheRepository.fields playerState)

/-- The player whose snapshot a request has still to delete. -/
def Phase.stale : Phase → Option ℤ
  | .committed deed => some deed.player
  | _ => none

/-- What a `LoadPlayer` request has read is in the tables. -/
def Phase.Reads (t : Tables) : Phase → Prop
  | .profiled p profile => ((Query.profile p).rows t).head? = some profile
  | .loaded p state => t.playerState p = some state
  | _ => True

/-- Every snapshot shows the state of its player, unless the request in phase `φ`
is about to delete it. -/
structure Coherent (s : Store ι) (φ : Phase) : Prop where
  snapshots : ∀ p e, s.redis.live (.playerSnapshot p) = some e → φ.stale ≠ some p →
    e.Shows (s.mysql.tables.playerState p)
  reads : φ.Reads s.mysql.tables

omit [DecidableEq ι] in
theorem Coherent.init (h : ∀ p, s.redis.live (.playerSnapshot p) = none) :
    Coherent s .outside := by
  refine ⟨fun p e he _ => ?_, trivial⟩
  rw [h p] at he
  cases he

omit [DecidableEq ι] in
/-- Writing a field of a state into its snapshot. -/
theorem RedisEntry.Shows.hset {state : PlayerState} {f v : String} {e : RedisEntry}
    (hfield : (f, v) ∈ RedisPlayerCacheRepository.fields state)
    (hbefore : ∀ e, s.redis.live (.playerSnapshot p) = some e → e.Shows (some state))
    (he : (s.redis.execute (.hset (.playerSnapshot p) f v)).2.live (.playerSnapshot p) = some e) :
    e.Shows (some state) := by
  have hfv := fieldOf_of_mem (RedisPlayerCacheRepository.fields_nodup state) hfield
  have hhash : ∀ e, s.redis.live (.playerSnapshot p) = some e →
      ∃ fields, e.value = .hash fields := by
    intro e he
    obtain ⟨values, -, hvalue, -⟩ := hbefore e he
    exact ⟨values, hvalue⟩
  obtain ⟨fields, expires, hexec, hcases⟩ := Redis.execute_hset (f := f) (v := v) hhash
  rw [hexec] at he
  have hentry := Redis.entries_of_live he
  rw [Redis.entries_put_self] at hentry
  obtain rfl := Option.some.inj hentry
  refine ⟨_, state, rfl, rfl, ?_⟩
  rcases hcases with ⟨-, rfl, -⟩ | hlive
  · exact (SubHash.nil _).setField hfv
  · obtain ⟨values, state', hvalue, hstate, hsub⟩ := hbefore _ hlive
    obtain rfl := RedisValue.hash.inj hvalue
    obtain rfl := Option.some.inj hstate
    exact hsub.setField hfv

/-- A command that is not about a snapshot and changes no table. -/
theorem Coherent.aside (h : Coherent s φ) (hp : s.Performed i fault c r s')
    (hc : ∀ d, c = .redis d → d.reads = true ∨ ∀ p, RedisKey.playerSnapshot p ≠ d.key)
    (htables : s'.mysql.tables = s.mysql.tables) (hstale : φ.stale ≠ none → ψ.stale = φ.stale)
    (hreads : ψ.Reads s.mysql.tables) : Coherent s' ψ := by
  refine ⟨fun p e he hne => ?_, htables ▸ hreads⟩
  have hlive : s'.redis.live (.playerSnapshot p) = s.redis.live (.playerSnapshot p) :=
    Redis.live_congr (hp.entries_eq fun d hd => (hc d hd).imp_right fun hk => hk p) hp.now_eq
  rw [hlive] at he
  refine htables ▸ h.snapshots p e he fun hφ => hne ?_
  rw [hstale (hφ ▸ Option.some_ne_none p), hφ]

/-- What a `LoadPlayer` request has read after a command that changes no table. -/
theorem Advance.reads (hadv : Advance cfg φ c r ψ) (hp : s.Performed i fault c r s')
    (hfault : c.mayFail = false → fault = none) (htxn : φ.Txn (s.mysql.txns i))
    (h : φ.Reads s.mysql.tables) : ψ.Reads s.mysql.tables := by
  cases hadv with
  | pass _ _ | fill _ | fillExpire => exact h
  | profile =>
    have hrows := hp.select_rows htxn
    exact congrArg List.head? hrows.symm
  | progress =>
    rename_i p profile r
    obtain rfl := hfault rfl
    obtain ⟨message, hf, -, -⟩ | ⟨-, m, hexec, -⟩ := hp.sql_cases
    · cases hf
    have hread : ((Query.profile p).rows s.mysql.tables).head? = some profile := h
    rcases r with _ | rows
    · simp [Mysql.execute] at hexec
    · rw [Phase.Reads, Tables.playerState, hread, ← hp.select_rows htxn]
      rfl
  | _ => trivial

omit [DecidableEq ι] in
/-- A field of the state that the request has loaded is written to the snapshot. -/
theorem Coherent.fill {p : ℤ} {state : PlayerState} {f v : String}
    (h : Coherent s (.loaded p state))
    (field : (f, v) ∈ RedisPlayerCacheRepository.fields state) :
    Coherent { s with redis := (s.redis.execute (.hset (.playerSnapshot p) f v)).2 }
      (.loaded p state) := by
  have hstate : s.mysql.tables.playerState p = some state := h.reads
  refine ⟨fun q e he hne => ?_, h.reads⟩
  by_cases hq : q = p
  · subst hq
    refine hstate.symm ▸ RedisEntry.Shows.hset field (fun e he => ?_) he
    exact hstate ▸ h.snapshots q e he hne
  · refine h.snapshots q e ?_ hne
    have hkey : RedisKey.playerSnapshot q ≠ RedisCmd.key (.hset (.playerSnapshot p) f v) :=
      fun hk => hq (RedisKey.playerSnapshot.inj hk)
    exact (Redis.live_congr (Redis.entries_execute_ne hkey) Redis.now_execute).symm.trans he

omit [DecidableEq ι] in
/-- The snapshot that has become stale is deleted. -/
theorem Coherent.invalidate {deed : Deed} (h : Coherent s (.committed deed)) :
    Coherent { s with redis := (s.redis.execute (.del (.playerSnapshot deed.player))).2 }
      (.invalidated deed) := by
  refine ⟨fun q e he _ => ?_, trivial⟩
  by_cases hq : q = deed.player
  · subst hq
    have hentry := Redis.entries_of_live he
    simp [Redis.execute] at hentry
  · have hkey : RedisKey.playerSnapshot q ≠ RedisKey.playerSnapshot deed.player :=
      fun hk => hq (RedisKey.playerSnapshot.inj hk)
    refine h.snapshots q e ((Redis.live_put_ne hkey).symm.trans he) fun hstale => hq ?_
    exact (Option.some.inj hstale).symm

/-- Every command of a request keeps the snapshots current. -/
theorem Coherent.step (h : Coherent s φ) (hadv : Advance cfg φ c r ψ)
    (hp : s.Performed i fault c r s') (hfault : c.mayFail = false → fault = none)
    (htxn : φ.Txn (s.mysql.txns i)) (hstep : DbStep cfg s.mysql s'.mysql φ ψ) :
    Coherent s' ψ := by
  have hreads := hadv.reads hp hfault htxn h.reads
  rcases hstep with ⟨htables, hbinlog⟩ | ⟨rfl, rfl, htransacts, -⟩
  · cases hadv with
    | pass harmless _ =>
      refine h.aside hp (fun d hd => ?_) htables (fun _ => rfl) hreads
      subst hd
      exact (Cmd.reads_or_others harmless).imp_right fun hkey p => hkey _ rfl
    | fill field =>
      rename_i p state f v r
      obtain rfl := hfault rfl
      obtain ⟨message, hf, -, -⟩ | ⟨-, -, rfl⟩ := hp.redis_cases
      · cases hf
      exact h.fill field
    | fillExpire =>
      rename_i p state ttl r
      obtain rfl := hfault rfl
      obtain ⟨message, hf, -, -⟩ | ⟨-, -, rfl⟩ := hp.redis_cases
      · cases hf
      refine ⟨fun q e he hne => ?_, hreads⟩
      obtain ⟨e', he', hvalue⟩ := Redis.live_of_expire he
      obtain ⟨values, playerState, hvalues, hshown⟩ := h.snapshots q e' he' hne
      exact ⟨values, playerState, hvalue.trans hvalues, hshown⟩
    | commit =>
      exact absurd ((hp.binlog_commit htxn).symm.trans hbinlog) (List.cons_ne_self _ _)
    | invalidate =>
      rename_i deed r
      obtain rfl := hfault rfl
      obtain ⟨message, hf, -, -⟩ | ⟨-, -, rfl⟩ := hp.redis_cases
      · cases hf
      exact h.invalidate
    | miss _ | hit _ | findContext _ | noContext =>
      exact h.aside hp (fun d hd => .inl (Cmd.redis.inj hd ▸ rfl)) htables (fun hφ => absurd rfl hφ)
        hreads
    | lock _ | busy _  =>
      exact h.aside hp (fun d hd => .inr (by rw [← Cmd.redis.inj hd]; simp [RedisCmd.key])) htables
        (fun hφ => absurd rfl hφ) hreads
    | unlock exit =>
      -- nobody releases the lock between the `COMMIT` and the `DEL`
      refine h.aside hp (fun d hd => .inr (by rw [← Cmd.redis.inj hd]; simp [RedisCmd.key])) htables
        (fun hφ => ?_) hreads
      cases φ with
      | committed deed => cases exit
      | _ => exact absurd rfl hφ
    | saveContext _ | expireContext | dropContext =>
      exact h.aside hp (fun d hd => .inr (by rw [← Cmd.redis.inj hd]; simp [RedisCmd.key])) htables
        (fun _ => rfl) hreads
    | _ =>
      exact h.aside hp (fun d hd => by cases hd) htables (fun hφ => absurd rfl hφ) hreads
  · -- the `COMMIT` makes the snapshot of its own player stale, and no other
    rename_i deed
    refine ⟨fun p e he hne => ?_, trivial⟩
    have hother : p ≠ deed.player := fun hp => hne (congrArg some hp.symm)
    have hcommit := hadv.commits
    subst hcommit
    rw [hp.redis_eq (by intro d hd; cases hd)] at he
    rw [htransacts.playerState_ne hother]
    exact h.snapshots p e he (Option.some_ne_none p).symm

/-! ## The two services -/

/-- What a service without a cache answers. -/
def PlayerService.answer (s : Store ι) (request : LoadPlayerRequest) : LoadPlayerResponse :=
  if (s.redis.session request.sessionId).map Session.playerId ≠ some request.playerId then
    refuse .sessionInvalid "session invalid"
  else
    match s.mysql.tables.playerState request.playerId with
    | none => refuse .playerNotFound "player not found"
    | some playerState => ⟨true, .ok, "", some playerState, false⟩

section Answers

variable {X : Type} {exec : Store ι → X → (c : Cmd) → Option (c.Reply × Store ι)}

theorem loadPlayerUncached_answers (hexec : Reliable exec i) (hnone : s.mysql.txns i = none)
    (hdecodes : s.redis.Decodes) (request : LoadPlayerRequest) :
    (PlayerService.loadPlayerUncached request).Ensures exec
      (fun response _ => response = PlayerService.answer s request) s := by
  refine (ensures_findById hexec hdecodes _).bind ?_
  rintro session s' ⟨rfl, rfl⟩
  rw [PlayerService.answer]
  split
  · rfl
  refine (ensures_loadPlayerState hexec hnone _).bind ?_
  rintro state s' ⟨hstate, rfl⟩
  rw [← hstate]
  cases state with
  | none => rfl
  | some playerState => rfl

/-- Looking up a snapshot that is current. -/
theorem ensures_findByPlayerId (hexec : Reliable exec i) (hdecodes : s.redis.Decodes)
    (h : Coherent s .outside) (p : ℤ) :
    (RedisPlayerCacheRepository.findByPlayerId p).Ensures exec
      (fun state s' => s' = s ∧
        ∀ playerState, state = some playerState → s.mysql.tables.playerState p = state) s := by
  refine (ensures_find hexec fun values => hdecodes _ values).mono ?_
  rintro state s' ⟨rfl, rfl⟩
  refine ⟨rfl, fun playerState hstate => ?_⟩
  obtain ⟨values, hvalues, hdecode⟩ := Option.bind_eq_some_iff.mp hstate
  obtain ⟨e, he, hvalue⟩ := Redis.live_of_hGetAll hvalues
  obtain ⟨values', shown, hvalue', hshown, hsub⟩ := h.snapshots p e he (Option.some_ne_none p).symm
  obtain rfl := RedisValue.hash.inj (hvalue.symm.trans hvalue')
  rw [hstate, hshown, RedisPlayerCacheRepository.decode_of_subHash hsub hdecode]

theorem loadPlayer_answers (hexec : Reliable exec i) (hnone : s.mysql.txns i = none)
    (hdecodes : s.redis.Decodes) (h : Coherent s .outside) (request : LoadPlayerRequest) :
    (PlayerService.loadPlayer env request).Ensures exec
      (fun response _ => response.unmarked = PlayerService.answer s request) s := by
  refine (ensures_findById hexec hdecodes _).bind ?_
  rintro session s' ⟨rfl, rfl⟩
  rw [PlayerService.answer]
  split
  · rfl
  refine (ensures_findByPlayerId hexec hdecodes h _).bind ?_
  rintro cached s' ⟨rfl, hcached⟩
  cases cached with
  | some cachedState =>
    rw [hcached _ rfl]
    rfl
  | none =>
    refine (ensures_loadPlayerState hexec hnone _).bind ?_
    rintro state s' ⟨hstate, rfl⟩
    rw [← hstate]
    cases state with
    | none => rfl
    | some playerState => exact (ensures_hSet hexec _ _ _).bind fun _ _ _ => rfl

end Answers

/-! ## Every request -/

/-- The jobs of a backend in which no command fails. -/
def Job.Faultless : Job ι → Prop
  | .serve _ _ faults => ∀ n, faults n = none
  | _ => True

/-- A faultless job keeps the snapshots current. -/
theorem Coherent.work (h : Coherent s .outside) (hrest : s.AtRest env) {job : Job ι}
    (hwork : s.work env job = some s') : Coherent s' .outside := by
  cases job with
  | serve i request faults =>
    obtain ⟨response, s'', φ, hserve, hends, -, hJ⟩ := hrest.serve (i := i) (J := Coherent) h
      (fun hsteady hJ hp hadv hfault hstep => hJ.step hadv hp hfault hsteady.txn hstep)
      request faults
    simp only [Store.work, hserve, Option.map_some, Option.some.injEq] at hwork
    obtain rfl := hwork
    refine ⟨fun p e he _ => hJ.snapshots p e he fun hstale => ?_, trivial⟩
    have hlock := hends.lock
    cases φ with
    | committed deed => cases hlock
    | _ => cases hstale
  | tick ms =>
    obtain rfl := Option.some.inj hwork
    exact ⟨fun p e he => h.snapshots p e (Redis.live_of_tick he), trivial⟩
  | restart i =>
    obtain rfl := Option.some.inj hwork
    exact ⟨h.snapshots, trivial⟩
  | evict k =>
    obtain rfl := Option.some.inj hwork
    refine ⟨fun p e he => ?_, trivial⟩
    by_cases hk : RedisKey.playerSnapshot p = k
    · subst hk
      have hentry := Redis.entries_of_live he
      simp [Store.evict] at hentry
    · exact h.snapshots p e ((Redis.live_put_ne hk).symm.trans he)

/-- **The snapshot cache is transparent.** From any backend at rest without
snapshots, after any requests without failures, and whatever keys expired or were
evicted in between: `LoadPlayer` answers, apart from the flag, what a service
without a cache answers. -/
theorem snapshot_cache_transparent (hs₀ : s₀.AtRest env)
    (hnone : ∀ p, s₀.redis.live (.playerSnapshot p) = none)
    (h : Reach (Store.work env) (fun _ job => job.Faultless) s₀ s) (i : ι)
    (request : LoadPlayerRequest) :
    ∃ response s' s'', s.serve env i (.loadPlayer request) (fun _ => none) =
        some (.loadPlayer response, s') ∧
      (PlayerService.loadPlayerUncached request).run (Store.faultless i) (fun _ => ()) s =
        some (response.unmarked, s'') := by
  obtain ⟨hrest, hcoherent⟩ := h.invariant (I := fun s => s.AtRest env ∧ Coherent s .outside)
    ⟨hs₀, .init hnone⟩ fun s job s' _ ⟨hrest, hcoherent⟩ _ hwork =>
      ⟨hrest.work hwork, hcoherent.work hrest hwork⟩
  have hdecodes := Redis.decodes_of_filled hrest.filled
  have hreliable : Reliable (Store.faultless i) i := reliable_faultless
  have hcached : (serve env (.loadPlayer request)).Ensures (Store.faultless i)
      (fun response _ => ∃ answered, response = .loadPlayer answered ∧
        answered.unmarked = PlayerService.answer s request) s :=
    (loadPlayer_answers hreliable (hrest.txns i) hdecodes hcoherent request).bind
      fun answered _ hanswer => ⟨answered, rfl, hanswer⟩
  have huncached := loadPlayerUncached_answers hreliable (hrest.txns i) hdecodes request
  obtain ⟨_, s', hrun, response, rfl, hanswer⟩ := hcached.run fun _ => ()
  obtain ⟨_, s'', hrun', rfl⟩ := huncached.run fun _ => ()
  refine ⟨response, s', s'', ?_, hanswer ▸ hrun'⟩
  rw [Store.serve_faultless]
  exact hrun

/-- A player logs in, enters a dungeon with the profile in the cache and settles the
battle; the profile was cached again in between. -/
theorem snapshot_cache_transparent_demo :
    ∃ s, Reach (Store.work demoEnv) (fun _ job => job.Faultless) emptyWorld.store s ∧
      s.mysql.binlog.length = 2 ∧
      ∃ response s' s'', s.serve demoEnv false
          (.loadPlayer ⟨"sess-10001-20001-1", 20001⟩) (fun _ => none) =
            some (.loadPlayer response, s') ∧
        (PlayerService.loadPlayerUncached ⟨"sess-10001-20001-1", 20001⟩).run
          (Store.faultless false) (fun _ => ()) s = some (response.unmarked, s'') := by
  have hrun : (replay (Store.work demoEnv) (fun _ _ => true) emptyWorld.store
      [.serve false (.login ⟨"demo", "demo"⟩) fun _ => none,
        .serve false (.loadPlayer ⟨"sess-10001-20001-1", 20001⟩) fun _ => none,
        .serve true (.enterDungeon ⟨"sess-10001-20001-1", 20001, 1001⟩) fun _ => none,
        .serve false (.loadPlayer ⟨"sess-10001-20001-1", 20001⟩) fun _ => none, .tick 1000,
        .serve true (.settleDungeon ⟨"sess-10001-20001-1", 20001, "battle-20001-1001-1", 1001, 3,
          true⟩) fun _ => none]).any (fun s => s.mysql.binlog.length = 2) = true := by
    decide +kernel
  have hjobs := Reach.of_replay_any_mem (o := fun (_ : Store Bool) job => Job.Faultless job)
    (fun job hjob _ _ => by
      simp only [List.mem_cons, List.not_mem_nil, or_false] at hjob
      rcases hjob with rfl | rfl | rfl | rfl | rfl | rfl
      · exact fun _ => rfl
      · exact fun _ => rfl
      · exact fun _ => rfl
      · exact fun _ => rfl
      · trivial
      · exact fun _ => rfl) hrun
  obtain ⟨s, hreach, hlength⟩ := hjobs
  exact ⟨s, hreach, of_decide_eq_true hlength,
    snapshot_cache_transparent Store.fresh_emptyWorld.atRest (fun _ => rfl) hreach false _⟩

end GameBackend
