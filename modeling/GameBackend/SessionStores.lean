import GameBackend.UsableSessions

/-!
# The two session stores

The tests keep sessions in an `InMemorySessionRepository`, production keeps them in Redis.
Both are machines that serve the same calls, and as long as no key expires and no command
fails they cannot be told apart:

* `InMemorySessionRepository.serve`, `Store.serveSession` — one call of each machine;
* `Mirrors` — the sessions and pointers in Redis are those of the two maps;
* `session_stores_agree` — from empty stores, any list of calls gets the same answers.
-/

namespace GameBackend

/-! ## The store in memory -/

structure InMemorySessionRepository where
  sequence : UInt64 := 1
  sessions : String → Option Session := fun _ => none
  accountSessions : ℤ → Option String := fun _ => none

namespace InMemorySessionRepository

/-- `Create`, when the clock reads `createdAt`. The session ids are made as those in
Redis. -/
def create (repository : InMemorySessionRepository) (accountId playerId createdAt : ℤ) :
    Session × InMemorySessionRepository :=
  let session : Session := ⟨RedisSessionRepository.sessionIdText accountId playerId
    repository.sequence, accountId, playerId, createdAt⟩
  let sessions :=
    match repository.accountSessions accountId with
    | some active => Function.update repository.sessions active none
    | none => repository.sessions
  (session, {
    sequence := repository.sequence + 1
    sessions := Function.update sessions session.sessionId (some session)
    accountSessions :=
      Function.update repository.accountSessions accountId (some session.sessionId) })

def findById (repository : InMemorySessionRepository) (sessionId : String) : Option Session :=
  repository.sessions sessionId

end InMemorySessionRepository

/-! ## Calls and answers -/

/-- The calls of a session repository. -/
inductive SessionCall where
  | create (accountId playerId : ℤ)
  | findById (sessionId : String)
  deriving DecidableEq, Repr

/-- What they return. -/
inductive SessionAnswer where
  | created (session : Session)
  | found (session : Option Session)
  deriving DecidableEq, Repr

/-- When a call is made: after how many milliseconds, and what the clock of the process
reads then. -/
structure SessionMoment where
  delay : ℕ
  epochSeconds : ℤ
  call : SessionCall
  deriving DecidableEq, Repr

def InMemorySessionRepository.serve (repository : InMemorySessionRepository)
    (epochSeconds : ℤ) : SessionCall → SessionAnswer × InMemorySessionRepository
  | .create accountId playerId =>
    let (session, repository) := repository.create accountId playerId epochSeconds
    (.created session, repository)
  | .findById sessionId => (.found (repository.findById sessionId), repository)

/-- The answers to a list of calls. -/
def InMemorySessionRepository.answers :
    InMemorySessionRepository → List SessionMoment → List SessionAnswer
  | _, [] => []
  | repository, moment :: rest =>
    let (answer, repository) := repository.serve moment.epochSeconds moment.call
    answer :: repository.answers rest

section Redis

variable {ι : Type} [DecidableEq ι]

/-- The commands of process `i`, none of which fails, when its clock reads
`epochSeconds`. -/
def Store.clocked (i : ι) (epochSeconds : ℤ) (s : Store ι) (fault : Option String) :
    (c : Cmd) → Option (c.Reply × Store ι)
  | .epochSeconds => some (epochSeconds, s)
  | .sql c => s.perform i fault (.sql c)
  | .redis c => s.perform i fault (.redis c)
  | .fetchAddSequence => s.perform i fault .fetchAddSequence

/-- A call of the repository of process `i`; `none` for an exception. `FindById` reads no
clock. -/
def Store.serveSession (env : Env) (i : ι) (s : Store ι) (epochSeconds : ℤ) :
    SessionCall → Option (SessionAnswer × Store ι)
  | .create accountId playerId =>
    ((RedisSessionRepository.create env accountId playerId).run (Store.clocked i epochSeconds)
      (fun _ => none) s).map fun r => (.created r.1, r.2)
  | .findById sessionId =>
    (s.runFailing i (RedisSessionRepository.findById sessionId) fun _ => none).map fun r =>
      (.found r.1, r.2)

/-- The answers to a list of calls; none if one of them throws. -/
def Store.sessionAnswers (env : Env) (i : ι) :
    Store ι → List SessionMoment → Option (List SessionAnswer)
  | _, [] => some []
  | s, moment :: rest => do
    let (answer, s') ← (s.tick moment.delay).serveSession env i moment.epochSeconds moment.call
    return answer :: (← s'.sessionAnswers env i rest)

/-- No key expires while these calls are made. -/
def Store.NothingExpires (env : Env) (i : ι) : Store ι → List SessionMoment → Prop
  | _, [] => True
  | s, moment :: rest =>
    (∀ k e, s.redis.live k = some e → (s.tick moment.delay).redis.live k = some e) ∧
      ∀ answer s', (s.tick moment.delay).serveSession env i moment.epochSeconds moment.call =
        some (answer, s') → s'.NothingExpires env i rest

/-! ## The simulation -/

/-- The hash of a session decodes to the session in memory, and there is none if there is
no session. -/
def MirrorsSession (session : Option Session) (sessionId : String)
    (values : List (String × String)) : Prop :=
  match session with
  | none => values = []
  | some session => session.sessionId = sessionId ∧
    RedisSessionRepository.decode sessionId values = some session

/-- Redis and the sequence number of process `i` are those of the store in memory. -/
structure Mirrors (i : ι) (repository : InMemorySessionRepository) (s : Store ι) : Prop where
  sequence : s.sequence i = repository.sequence
  sessions : ∀ sessionId, ∃ values, s.redis.hash? (.session sessionId) = some values ∧
    MirrorsSession (repository.sessions sessionId) sessionId values
  accountSessions : ∀ accountId,
    s.redis.oldSession none accountId = repository.accountSessions accountId

variable {env : Env} {i : ι} {repository : InMemorySessionRepository} {s : Store ι}

omit [DecidableEq ι] in
/-- Empty stores mirror each other. -/
theorem mirrors_empty (hempty : ∀ k, s.redis.entries k = none) (hsequence : s.sequence i = 1) :
    Mirrors i {} s where
  sequence := hsequence
  sessions sessionId := ⟨[], by simp [Redis.hash?, Redis.live, hempty], rfl⟩
  accountSessions accountId := by
    simp [Redis.oldSession, Redis.execute, Redis.live, hempty]

omit [DecidableEq ι] in
/-- Time changes nothing as long as no key expires. -/
theorem Mirrors.tick (h : Mirrors i repository s) {ms : ℕ}
    (hlasts : ∀ k e, s.redis.live k = some e → (s.tick ms).redis.live k = some e) :
    Mirrors i repository (s.tick ms) := by
  -- time brings no key back, so what is present after it was present before
  have hlive : ∀ k, (s.tick ms).redis.live k = s.redis.live k := by
    intro k
    cases hbefore : s.redis.live k with
    | some e => exact hlasts k e hbefore
    | none =>
      refine Option.eq_none_iff_forall_ne_some.mpr fun e hafter => ?_
      rw [Redis.live_of_tick hafter] at hbefore
      cases hbefore
  refine ⟨h.sequence, fun sessionId => ?_, fun accountId => ?_⟩
  · rw [Redis.hash?_congr (hlive _)]
    exact h.sessions sessionId
  · rw [Redis.oldSession_congr (hlive _)]
    exact h.accountSessions accountId

theorem serves_clocked (i : ι) (epochSeconds : ℤ) :
    Serves i (fun _ => epochSeconds) (Store.clocked i epochSeconds) :=
  ⟨fun _ _ _ => rfl, fun _ _ => rfl, fun _ _ => rfl⟩

/-- The hash that `Create` writes mirrors the new session. -/
theorem Created.mirrors_new {session : Session} {d d' : Redis} {n : ℕ}
    (h : Created env d (fun _ => none) n session d') {old : List (String × String)}
    (hold : d.leftover (fun _ => none) n session.accountId session.sessionId = some old) :
    ∃ values, d'.hash? (.session session.sessionId) = some values ∧
      MirrorsSession (some session) session.sessionId values := by
  have hfound : d'.session session.sessionId = some session := by
    refine h.found_iff.mpr ⟨old, hold, fun f v hfv => .inl ?_⟩
    rw [written_all fun _ => rfl]
    exact (env.fieldOrder_perm _).mem_iff.mpr hfv
  rw [Redis.session_eq] at hfound
  obtain ⟨values, hvalues, hdecode⟩ := Option.bind_eq_some_iff.mp hfound
  exact ⟨values, hvalues, rfl, hdecode⟩

omit [DecidableEq ι] in
/-- `Create` removes in Redis what it removes in memory. -/
theorem Mirrors.leftover (h : Mirrors i repository s) (n : ℕ) (accountId : ℤ)
    (sessionId : String) :
    ∃ values, s.redis.leftover (fun _ => none) n accountId sessionId = some values ∧
      MirrorsSession
        ((match repository.accountSessions accountId with
          | some active => Function.update repository.sessions active none
          | none => repository.sessions) sessionId) sessionId values := by
  have hremoved : s.redis.removed (fun _ => none) n accountId =
      repository.accountSessions accountId := (if_pos rfl).trans (h.accountSessions accountId)
  rw [Redis.leftover, hremoved]
  cases repository.accountSessions accountId with
  | none =>
    rw [if_neg (Option.some_ne_none _).symm]
    exact h.sessions sessionId
  | some active =>
    by_cases hid : active = sessionId
    · subst hid
      exact ⟨[], if_pos rfl, by simp [MirrorsSession]⟩
    · rw [if_neg fun heq => hid (Option.some.inj heq)]
      simp only [Function.update_of_ne (Ne.symm hid)]
      exact h.sessions sessionId

/-- **Create** returns the same session and keeps the stores alike. -/
theorem Mirrors.create (h : Mirrors i repository s) (accountId playerId epochSeconds : ℤ) :
    ∃ s', s.serveSession env i epochSeconds (.create accountId playerId) =
        some (.created (repository.create accountId playerId epochSeconds).1, s') ∧
      Mirrors i (repository.create accountId playerId epochSeconds).2 s' := by
  have hyields : (RedisSessionRepository.create env accountId playerId).Yields
      (Store.clocked i epochSeconds) (fun _ => none) False _ 0 s :=
    (serves_clocked i epochSeconds).yields_create accountId playerId
  obtain ⟨session, s', hrun⟩ := hyields.returns id
  obtain ⟨_, rfl, d, rfl, hcreated⟩ := hyields.run hrun
  rw [h.sequence] at hrun hcreated
  refine ⟨_, by rw [Store.serveSession, hrun]; rfl, ?_⟩
  refine ⟨?_, fun sessionId => ?_, fun a => ?_⟩
  · simp [InMemorySessionRepository.create]
  · obtain ⟨old, hold, hmirrors⟩ := h.leftover 2 accountId sessionId
    -- the id is made of the sequence number, which both machines count alike
    by_cases hid : sessionId = RedisSessionRepository.sessionIdText accountId playerId
        repository.sequence
    · subst hid
      simp only [InMemorySessionRepository.create, Function.update_self]
      exact hcreated.mirrors_new hold
    · simp only [InMemorySessionRepository.create, Function.update_of_ne hid]
      exact ⟨old, (hcreated.others sessionId hid).trans hold, hmirrors⟩
  · by_cases ha : a = accountId
    · subst ha
      simp only [InMemorySessionRepository.create, Function.update_self]
      exact hcreated.pointer fun _ => rfl
    · simp only [InMemorySessionRepository.create, Function.update_of_ne ha]
      rw [Redis.oldSession_congr (hcreated.pointers a ha)]
      exact h.accountSessions a

/-- **FindById** accepts the same ids, returns the same sessions and changes nothing. -/
theorem Mirrors.findById (h : Mirrors i repository s) (sessionId : String) (epochSeconds : ℤ) :
    s.serveSession env i epochSeconds (.findById sessionId) =
      some (.found (repository.findById sessionId), s) := by
  obtain ⟨values, hvalues, hmirrors⟩ := h.sessions sessionId
  have hsession : s.redis.session sessionId = repository.findById sessionId ∧
      (s.redis.hGetAll (.session sessionId) = some values →
        RedisSessionRepository.decode sessionId values ≠ none) := by
    rw [Redis.session_eq, hvalues, Option.bind_some, Redis.hGetAll, hvalues]
    cases hfound : repository.sessions sessionId with
    | none =>
      rw [hfound] at hmirrors
      obtain rfl : values = [] := hmirrors
      exact ⟨hfound.symm, fun h => by cases h⟩
    | some session =>
      rw [hfound] at hmirrors
      rw [hmirrors.2]
      exact ⟨hfound.symm, fun _ => Option.some_ne_none _⟩
  -- a hash that does not decode would make `FindById` throw
  have hreadable : ∀ values', s.redis.hGetAll (.session sessionId) = some values' →
      RedisSessionRepository.decode sessionId values' = none → False := by
    intro values' hvalues' hnone
    obtain rfl : values = values' :=
      Option.some.inj (hvalues.symm.trans (Option.filter_eq_some_iff.mp hvalues').1)
    exact hsession.2 hvalues' hnone
  have hyields : (RedisSessionRepository.findById sessionId).Yields (Store.failing i)
      (fun _ => none) False _ 0 s := yields_findById sessionId hreadable
  obtain ⟨r, s', hrun⟩ := hyields.runFailing_returns id
  obtain ⟨_, -, rfl, rfl⟩ := hyields.runFailing hrun
  rw [Store.serveSession, hrun, if_pos rfl, hsession.1]
  rfl

/-- A call of both machines. -/
theorem Mirrors.serve (h : Mirrors i repository s) (env : Env) (epochSeconds : ℤ)
    (call : SessionCall) :
    ∃ s', s.serveSession env i epochSeconds call =
        some ((repository.serve epochSeconds call).1, s') ∧
      Mirrors i (repository.serve epochSeconds call).2 s' := by
  cases call with
  | create accountId playerId => exact h.create accountId playerId epochSeconds
  | findById sessionId => exact ⟨s, h.findById sessionId epochSeconds, h⟩

/-- Stores that mirror each other answer alike. -/
theorem Mirrors.answers :
    ∀ {moments : List SessionMoment} {repository : InMemorySessionRepository} {s : Store ι},
      Mirrors i repository s → s.NothingExpires env i moments →
      s.sessionAnswers env i moments = some (repository.answers moments)
  | [], _, _, _, _ => rfl
  | moment :: rest, repository, s, h, hlasts => by
    obtain ⟨s', hserve, h'⟩ := (h.tick hlasts.1).serve env moment.epochSeconds moment.call
    have hrest := h'.answers (hlasts.2 _ s' hserve)
    simp only [Store.sessionAnswers, hserve, Option.bind_eq_bind, Option.bind_some, hrest]
    rfl

/-- **The two session stores are the same machine.** Starting empty they answer every list
of calls alike, whatever the clock reads at each of them. -/
theorem session_stores_agree (hempty : ∀ k, s.redis.entries k = none)
    (hsequence : s.sequence i = 1) {moments : List SessionMoment}
    (hlasts : s.NothingExpires env i moments) :
    s.sessionAnswers env i moments = some (InMemorySessionRepository.answers {} moments) :=
  (mirrors_empty hempty hsequence).answers hlasts

/-- Calls that are made without a pause let nothing expire. -/
theorem Store.nothingExpires_of_delay :
    ∀ {moments : List SessionMoment} {s : Store ι}, (∀ moment ∈ moments, moment.delay = 0) →
      s.NothingExpires env i moments
  | [], _, _ => trivial
  | moment :: rest, s, h => by
    refine ⟨fun k e he => ?_, fun _ s' _ => nothingExpires_of_delay fun m hm => ?_⟩
    · rw [h moment (List.mem_cons_self ..)]
      exact he
    · exact h m (List.mem_cons_of_mem _ hm)

/-- Two logins of an account and a look at both sessions. -/
theorem session_stores_agree_demo :
    emptyWorld.store.sessionAnswers demoEnv false
        [⟨0, 7, .create 1 2⟩, ⟨0, 9, .create 1 2⟩, ⟨0, 9, .findById "sess-1-2-1"⟩,
          ⟨0, 9, .findById "sess-1-2-2"⟩] =
      some [.created ⟨"sess-1-2-1", 1, 2, 7⟩, .created ⟨"sess-1-2-2", 1, 2, 9⟩, .found none,
        .found (some ⟨"sess-1-2-2", 1, 2, 9⟩)] := by
  refine (session_stores_agree (fun _ => rfl) rfl (Store.nothingExpires_of_delay ?_)).trans ?_
  · decide
  · decide +kernel

end Redis

end GameBackend
