import GameBackend.UsableSessions
import GameBackend.Encodings

/-!
# Loading a player without a snapshot

`LoadPlayerState` puts a player together from two `SELECT`s and cannot tell one that
fails from one that finds nothing. When the profile fails the player is not found. When
the progress fails the player has none, and the snapshot that is written says so too.
-/

namespace GameBackend

variable {ι : Type} [DecidableEq ι] {env : Env} {i : ι} {s : Store ι}
  {faults : ℕ → Option String} {n : ℕ} {stuck : Prop}

/-- What `FindByPlayerId` returns, when it does not throw. -/
def Redis.snapshot (d : Redis) (playerId : ℤ) : Option PlayerState :=
  (d.hGetAll (.playerSnapshot playerId)).bind RedisPlayerCacheRepository.decode

/-! ## What a load does -/

/-- Fields of a record are written over fields of the record. -/
theorem subHash_overwrite {fields : List (String × String)}
    (hnodup : (fields.map Prod.fst).Nodup) :
    ∀ {writes values : List (String × String)}, SubHash values fields →
      (∀ p ∈ writes, p ∈ fields) → SubHash (overwrite values writes) fields
  | [], _, h, _ => h
  | (f, v) :: rest, values, h, hwrites => by
    obtain ⟨hfv, hrest⟩ := List.forall_mem_cons.mp hwrites
    rw [overwrite]
    exact subHash_overwrite hnodup (h.setField (fieldOf_of_mem hnodup hfv)) hrest

/-- What `LoadPlayerState` returns, if the profile is the `n`th command. -/
def Store.loadedState (s : Store ι) (i : ι) (faults : ℕ → Option String) (n : ℕ) (p : ℤ) :
    Option PlayerState :=
  if faults n = none then
    ((Query.profile p).rows (s.mysql.view i)).head?.map fun profile => stateOf profile
      (if faults (n + 1) = none then (Query.progress p).rows (s.mysql.view i) else [])
  else none

theorem yields_loadPlayerState_exact (p : ℤ) :
    (MySqlPlayerRepository.loadPlayerState p).Yields (Store.failing i) faults stuck
      (fun state _ s' => s' = s ∧ state = s.loadedState i faults n p) n s := by
  refine (yields_queryOne _).bind ?_
  rintro profile _ s' ⟨rfl, rfl, hprofile⟩
  rw [Store.loadedState]
  by_cases hfault : faults n = none
  · rw [if_pos hfault] at hprofile ⊢
    rw [← hprofile]
    cases profile with
    | none => exact ⟨rfl, rfl⟩
    | some profile =>
      refine (yields_query _).bind ?_
      rintro rows _ s' ⟨rfl, rfl, rfl⟩
      exact ⟨rfl, rfl⟩
  · rw [if_neg hfault] at hprofile ⊢
    obtain rfl := hprofile
    exact ⟨rfl, rfl⟩

omit [DecidableEq ι] in
/-- A loaded state is one of the player. -/
theorem Store.playerId_of_loadedState {p : ℤ} {state : PlayerState}
    (h : s.loadedState i faults n p = some state) : state.profile.playerId = p := by
  rw [Store.loadedState] at h
  by_cases hfault : faults n = none
  · rw [if_pos hfault] at h
    obtain ⟨profile, hprofile, rfl⟩ := Option.map_eq_some_iff.mp h
    exact Query.plausible_rows (s.mysql.view i) (.profile p) _ rfl profile
      (List.mem_of_head? hprofile)
  · rw [if_neg hfault] at h
    cases h

/-- `Save` on a key without fields leaves fields of the state only. -/
theorem yields_save_cold {state : PlayerState}
    (hcold : s.redis.hGetAll (.playerSnapshot state.profile.playerId) = none) :
    (RedisPlayerCacheRepository.save env state).Yields (Store.failing i) faults stuck
      (fun _ _ s' => ∀ snapshot,
        s'.redis.snapshot state.profile.playerId = some snapshot → snapshot = state) n s := by
  refine ((serves_failing i).yields_hSet _ _ _).mono ?_
  rintro _ _ _ ⟨d, rfl, -, hhash⟩ snapshot hsnapshot
  obtain ⟨values, hvalues, hdecode⟩ := Option.bind_eq_some_iff.mp hsnapshot
  obtain ⟨hvalues, -⟩ := Option.filter_eq_some_iff.mp hvalues
  obtain ⟨old, hold, rfl⟩ := Option.map_eq_some_iff.mp (hhash.symm.trans hvalues)
  have hnil : old = [] := by
    rw [Redis.hGetAll, hold] at hcold
    simpa using hcold
  subst hnil
  have hwritten : ∀ p ∈ written faults n
      (env.fieldOrder (RedisPlayerCacheRepository.fields state)),
      p ∈ RedisPlayerCacheRepository.fields state := fun p hp =>
    (env.fieldOrder_perm _).mem_iff.mp ((written_isPrefix faults n _).subset hp)
  exact RedisPlayerCacheRepository.decode_of_subHash
    (subHash_overwrite (RedisPlayerCacheRepository.fields_nodup state) (.nil _) hwritten) hdecode

/-- The session of the request is read and names its player. -/
def LoadPlayerRequest.Authorized (request : LoadPlayerRequest) (faults : ℕ → Option String)
    (d : Redis) : Prop :=
  faults 0 = none ∧ (d.session request.sessionId).map Session.playerId = some request.playerId

/-- Without a snapshot `LoadPlayer` answers what `LoadPlayerState` returns, and the snapshot
it writes shows it. -/
theorem yields_loadPlayer {request : LoadPlayerRequest}
    (hdecode : ∀ values, s.redis.hGetAll (.session request.sessionId) = some values →
      RedisSessionRepository.decode request.sessionId values = none → stuck)
    (hcold : s.redis.hGetAll (.playerSnapshot request.playerId) = none) :
    (PlayerService.loadPlayer env request).Yields (Store.failing i) faults stuck
      (fun response _ s' => response.success = response.playerState.isSome ∧
        (request.Authorized faults s.redis →
          response.playerState = s.loadedState i faults 2 request.playerId) ∧
        (¬request.Authorized faults s.redis → response.playerState = none) ∧
        ∀ snapshot, s'.redis.snapshot request.playerId = some snapshot →
          response.playerState = some snapshot) 0 s := by
  have hnone : s.redis.snapshot request.playerId = none := by
    rw [Redis.snapshot, hcold]
    rfl
  refine (yields_findById request.sessionId hdecode).bind ?_
  rintro session _ s' ⟨rfl, rfl, hsession⟩
  have hauthorized : session.map Session.playerId = some request.playerId ↔
      request.Authorized faults s'.redis := by
    rw [hsession, LoadPlayerRequest.Authorized]
    split_ifs with hfault
    · exact (and_iff_right hfault).symm
    · exact ⟨nofun, fun h => absurd h.1 hfault⟩
  by_cases hrequest : session.map Session.playerId = some request.playerId
  · rw [if_neg (not_not.mpr hrequest)]
    have hyes := hauthorized.mp hrequest
    refine (yields_find _ _ fun values hvalues => ?_).bind ?_
    · rw [hcold] at hvalues
      cases hvalues
    rintro cached _ s' ⟨rfl, rfl, hcached⟩
    have hmiss : cached = none := by
      rw [hcached, hcold]
      exact ite_self none
    rw [hmiss]
    refine (yields_loadPlayerState_exact _).bind ?_
    rintro state n s' ⟨rfl, hstate⟩
    cases state with
    | none =>
      refine ⟨rfl, fun _ => hstate, fun h => absurd hyes h, fun snapshot hsnapshot => ?_⟩
      rw [hnone] at hsnapshot
      cases hsnapshot
    | some state =>
      obtain hid := Store.playerId_of_loadedState hstate.symm
      rw [← hid] at hcold ⊢
      refine (yields_save_cold hcold).bind fun _ _ s'' hsaved => ?_
      refine ⟨rfl, fun _ => ?_, fun h => absurd hyes h, fun snapshot hsnapshot => ?_⟩
      · rw [hid]
        exact hstate
      · exact congrArg some (hsaved snapshot hsnapshot).symm
  · rw [if_pos hrequest]
    have hno := mt hauthorized.mpr hrequest
    refine ⟨rfl, fun h => absurd h hno, fun _ => rfl, fun snapshot hsnapshot => ?_⟩
    rw [hnone] at hsnapshot
    cases hsnapshot

/-! ## When it is complete -/

/-- What `LoadPlayer` answers and what it leaves in Redis are the rows of the player. -/
def PlayerService.Complete (env : Env) (s : Store ι) (i : ι) (request : LoadPlayerRequest)
    (faults : ℕ → Option String) : Prop :=
  ∀ response s', s.runFailing i (loadPlayer env request) faults = some (response, s') →
    (response.success = true →
      response.playerState = (s.mysql.view i).playerState request.playerId) ∧
    ∀ snapshot, s'.redis.snapshot request.playerId = some snapshot →
      (s.mysql.view i).playerState request.playerId = some snapshot

/-- The load gets as far as the `SELECT` of the progress, its fourth command, and this one
fails, although the player has progress. -/
def LoadPlayerRequest.LosesProgress (request : LoadPlayerRequest) (s : Store ι) (i : ι)
    (faults : ℕ → Option String) : Prop :=
  request.Authorized faults s.redis ∧ faults 2 = none ∧
    (Query.profile request.playerId).rows (s.mysql.view i) ≠ [] ∧ faults 3 ≠ none ∧
    (Query.progress request.playerId).rows (s.mysql.view i) ≠ []

omit [DecidableEq ι] in
/-- What is loaded is what is in the tables, if the progress is read or there is none. -/
theorem Store.loadedState_eq {p : ℤ} {state : PlayerState}
    (h : s.loadedState i faults n p = some state)
    (hprogress : faults (n + 1) = none ∨ (Query.progress p).rows (s.mysql.view i) = []) :
    (s.mysql.view i).playerState p = some state := by
  rw [Store.loadedState] at h
  by_cases hfault : faults n = none
  · rw [if_pos hfault] at h
    rw [Tables.playerState, ← h]
    rcases hprogress with hprogress | hprogress
    · rw [if_pos hprogress]
    · rw [hprogress, ite_self]
  · rw [if_neg hfault] at h
    cases h

/-- A player with progress is not one without. -/
theorem stateOf_ne {profile : PlayerProfile} {rows : List ProgressRow} (hrows : rows ≠ []) :
    stateOf profile [] ≠ stateOf profile rows := by
  intro h
  have hlength := congrArg (fun state => state.dungeonProgress.length) h
  simp only [stateOf, MySqlPlayerRepository.sortProgress, List.length_insertionSort,
    List.length_map, List.length_nil] at hlength
  exact hrows (List.length_eq_zero_iff.mp hlength.symm)

theorem complete_of_progress {request : LoadPlayerRequest}
    (hcold : s.redis.hGetAll (.playerSnapshot request.playerId) = none)
    (h : ¬request.LosesProgress s i faults) : PlayerService.Complete env s i request faults := by
  intro response s' hrun
  have hyields : (PlayerService.loadPlayer env request).Yields (Store.failing i) faults True _ 0
      s := yields_loadPlayer (fun _ _ _ => trivial) hcold
  obtain ⟨-, hsuccess, hyes, hno, hsnapshot⟩ :=
    hyields.runFailing hrun
  have hfound (state : PlayerState) (hstate : response.playerState = some state) :
      (s.mysql.view i).playerState request.playerId = some state := by
    by_cases hauthorized : request.Authorized faults s.redis
    · have hloaded := (hyes hauthorized).symm.trans hstate
      refine Store.loadedState_eq hloaded (or_iff_not_and_not.mpr fun hlost => h ?_)
      have hprofile : faults 2 = none ∧
          (Query.profile request.playerId).rows (s.mysql.view i) ≠ [] := by
        rw [Store.loadedState] at hloaded
        by_cases hfault : faults 2 = none
        · rw [if_pos hfault] at hloaded
          refine ⟨hfault, fun hnil => ?_⟩
          rw [hnil] at hloaded
          cases hloaded
        · rw [if_neg hfault] at hloaded
          cases hloaded
      exact ⟨hauthorized, hprofile.1, hprofile.2, hlost⟩
    · rw [hno hauthorized] at hstate
      cases hstate
  refine ⟨fun hsucceeded => ?_, fun snapshot hfoundSnapshot =>
    hfound snapshot (hsnapshot snapshot hfoundSnapshot)⟩
  rw [hsuccess] at hsucceeded
  obtain ⟨state, hstate⟩ := Option.isSome_iff_exists.mp hsucceeded
  rw [hstate, hfound state hstate]

theorem not_complete_of_lost {request : LoadPlayerRequest}
    (hcold : s.redis.hGetAll (.playerSnapshot request.playerId) = none)
    (h : request.LosesProgress s i faults) : ¬PlayerService.Complete env s i request faults := by
  obtain ⟨hauthorized, hprofile, hrow, hprogress, hrows⟩ := h
  obtain ⟨session, hsession, -⟩ := Option.map_eq_some_iff.mp hauthorized.2
  have hyields : (PlayerService.loadPlayer env request).Yields (Store.failing i) faults False _ 0
      s := yields_loadPlayer (fun _ => Redis.readable_of_session hsession) hcold
  obtain ⟨response, s', hrun⟩ := hyields.runFailing_returns not_false
  obtain ⟨-, hsuccess, hyes, -, -⟩ := hyields.runFailing hrun
  intro hcomplete
  obtain ⟨profile, rest, hprofiles⟩ := List.exists_cons_of_ne_nil hrow
  have hloaded : response.playerState = some (stateOf profile []) := by
    rw [hyes hauthorized, Store.loadedState, if_pos hprofile, if_neg hprogress, hprofiles]
    rfl
  have htables : (s.mysql.view i).playerState request.playerId = some (stateOf profile
      ((Query.progress request.playerId).rows (s.mysql.view i))) := by
    rw [Tables.playerState, hprofiles]
    rfl
  have heq := (hcomplete response s' hrun).1 (by rw [hsuccess, hloaded]; rfl)
  rw [hloaded, htables] at heq
  exact stateOf_ne hrows (Option.some.inj heq)

/-- **When a load without a snapshot is complete**: always but when the progress of a player
who has some cannot be read. Then the answer shows a player without progress. -/
theorem loadPlayer_complete_iff (env : Env) (s : Store ι) (i : ι) (request : LoadPlayerRequest)
    (faults : ℕ → Option String)
    (hcold : s.redis.hGetAll (.playerSnapshot request.playerId) = none) :
    PlayerService.Complete env s i request faults ↔ ¬request.LosesProgress s i faults :=
  ⟨fun hcomplete h => not_complete_of_lost hcold h hcomplete, complete_of_progress hcold⟩

/-- The demo data after a first clear. -/
def clearedTables : Tables where
  __ := demoTables
  playerDungeon := ⟨[⟨20001, 1001, 3, 1⟩], by decide⟩
  fkDungeonPlayer := by decide

/-- The servers at rest over it. -/
def clearedStore : Store Bool := (World.boot clearedTables demoRedis).store

/-- The `SELECT` of the progress fails. -/
def progressFails (n : ℕ) : Option String :=
  if n = 3 then some "Lost connection to MySQL server during query" else none

theorem losesProgress_demo :
    (⟨"s", 20001⟩ : LoadPlayerRequest).LosesProgress clearedStore false progressFails := by
  refine ⟨⟨rfl, ?_⟩, rfl, ?_, ?_, ?_⟩
  all_goals decide +kernel

theorem loadPlayer_complete_iff_demo :
    PlayerService.Complete demoEnv clearedStore false ⟨"s", 20001⟩ (fun _ => none) ∧
      ¬PlayerService.Complete demoEnv clearedStore false ⟨"s", 20001⟩ progressFails :=
  ⟨(loadPlayer_complete_iff _ _ _ _ _ rfl).mpr fun h => h.2.2.2.1 rfl,
    fun h => (loadPlayer_complete_iff _ _ _ _ _ rfl).mp h losesProgress_demo⟩

/-- The player has cleared a dungeon, and the answer shows none. -/
theorem progress_lost :
    ¬∀ (s : Store Bool) (request : LoadPlayerRequest) (faults : ℕ → Option String),
      s.redis.hGetAll (.playerSnapshot request.playerId) = none →
      PlayerService.Complete demoEnv s false request faults :=
  fun h => not_complete_of_lost rfl losesProgress_demo (h _ _ _ rfl)

end GameBackend
