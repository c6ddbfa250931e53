import GameBackend.Faults

/-!
# What a login leaves in Redis

`RedisSessionRepository::Create` sends up to seven Redis commands and ignores what
becomes of them, so a login succeeds whatever fails. What it leaves behind depends on
three things:

* `Redis.removed` — the older session that is gone: the one the account's pointer names,
  if both the `GET` and the `DEL` go through;
* `written` — the fields of the new session that are there: those in front of the first
  `HSET` that fails;
* what was in the hash of the new session before.

`yields_create` says so for any interpreter that executes Redis commands as a `Store`
does, and `login_session_usable` reads off it when a login gives a usable session.
-/

namespace GameBackend

/-! ## Hashes and the commands on them -/

/-- Set fields of a hash, one after the other. -/
def overwrite (values : List (String × String)) : List (String × String) → List (String × String)
  | [] => values
  | (f, v) :: rest => overwrite (setField f v values) rest

/-- A field that is set has its new value, and every other one its old value. -/
theorem fieldOf_overwrite (f : String) :
    ∀ {writes : List (String × String)} (values : List (String × String)),
      (writes.map Prod.fst).Nodup →
      fieldOf (overwrite values writes) f = (fieldOf writes f).or (fieldOf values f)
  | [], _, _ => rfl
  | (g, w) :: rest, values, hnodup => by
    rw [List.map_cons, List.nodup_cons] at hnodup
    have hset : fieldOf (setField g w values) f = if f = g then some w else fieldOf values f :=
      lookup_setField g w f values
    rw [overwrite, fieldOf_overwrite f _ hnodup.2, hset]
    by_cases hf : f = g
    · subst hf
      -- no later write sets the field again
      have hrest : fieldOf rest f = none := by
        rw [fieldOf, List.lookup_eq_none_iff]
        intro w' hw'
        exact bne_iff_ne.mpr fun h => hnodup.1 (List.mem_map.mpr ⟨w', hw', h.symm⟩)
      rw [hrest, if_pos rfl, fieldOf, List.lookup_cons_self]
      rfl
    · rw [if_neg hf]
      simp only [fieldOf, List.lookup_cons, beq_eq_false_iff_ne.mpr hf]

/-- The fields whose `HSET`s go through, if the first one is the `n`th command: those in
front of the first one that fails. -/
def written (faults : ℕ → Option String) : ℕ → List (String × String) → List (String × String)
  | _, [] => []
  | n, (f, v) :: rest => if faults n = none then (f, v) :: written faults (n + 1) rest else []

/-- They are the first ones. -/
theorem written_isPrefix (faults : ℕ → Option String) :
    ∀ (n : ℕ) (values : List (String × String)), written faults n values <+: values
  | _, [] => List.prefix_refl _
  | n, (f, v) :: rest => by
    rw [written]
    split
    · exact List.prefix_cons_inj _ |>.mpr (written_isPrefix faults (n + 1) rest)
    · exact List.nil_prefix

/-- All of them, if none fails. -/
theorem written_all {faults : ℕ → Option String} (h : ∀ n, faults n = none) :
    ∀ (n : ℕ) (values : List (String × String)), written faults n values = values
  | _, [] => rfl
  | n, (f, v) :: rest => by rw [written, if_pos (h n), written_all h]

namespace Redis

variable {d d' d'' : Redis} {k k' : RedisKey}

/-- At most the entry of one key differs. -/
structure OnlyAt (k : RedisKey) (d d' : Redis) : Prop where
  now : d'.now = d.now
  entries : ∀ k', k' ≠ k → d'.entries k' = d.entries k'

theorem OnlyAt.refl (k : RedisKey) (d : Redis) : OnlyAt k d d := ⟨rfl, fun _ _ => rfl⟩

theorem OnlyAt.trans (h : OnlyAt k d d') (h' : OnlyAt k d' d'') : OnlyAt k d d'' :=
  ⟨h'.now.trans h.now, fun k' hk => (h'.entries k' hk).trans (h.entries k' hk)⟩

theorem OnlyAt.live (h : OnlyAt k d d') (hk : k' ≠ k) : d'.live k' = d.live k' :=
  live_congr (h.entries k' hk) h.now

theorem onlyAt_execute (c : RedisCmd) : OnlyAt c.key d (d.execute c).2 :=
  ⟨now_execute, fun _ hk => entries_execute_ne hk⟩

theorem hash?_congr (h : d'.live k = d.live k) : d'.hash? k = d.hash? k := by
  rw [hash?, hash?, h]

theorem OnlyAt.hash? (h : OnlyAt k d d') (hk : k' ≠ k) : d'.hash? k' = d.hash? k' :=
  hash?_congr (h.live hk)

/-- `HSET` goes through unless the key holds a string. -/
theorem hset_hash? (d : Redis) (k : RedisKey) (f v : String) :
    (d.execute (.hset k f v)).1 = (d.hash? k).isSome ∧
      (d.execute (.hset k f v)).2.hash? k = (d.hash? k).map (setField f v) := by
  rcases hlive : d.live k with _ | ⟨_ | fields, expires⟩
  · have hput := live_put_self (d := d) (k := k) (e := ⟨.hash [(f, v)], none⟩) nofun
    simp [execute, Redis.hash?, hlive, hput, setField]
  · simp [execute, Redis.hash?, hlive]
  · have hput : (d.put k (some ⟨.hash (setField f v fields), expires⟩)).live k =
        some ⟨.hash (setField f v fields), expires⟩ :=
      live_put_self (live_eq_some.mp hlive).2
    simp [execute, Redis.hash?, hlive, hput]

/-- A lifetime does not change a hash. -/
theorem expire_hash? (d : Redis) (k : RedisKey) {ttl : ℕ} (httl : 0 < ttl) :
    (d.execute (.expire k ttl)).2.hash? k = d.hash? k := by
  rcases hlive : d.live k with _ | ⟨value, expires⟩
  · simp only [execute, hlive]
  · have hput : (d.put k (some ⟨value, some (d.now + 1000 * ttl)⟩)).live k =
        some ⟨value, some (d.now + 1000 * ttl)⟩ := by
      refine live_put_self fun t ht => ?_
      obtain rfl := Option.some.inj ht
      omega
    cases value with
    | string _ | hash _ => simp only [execute, hlive, Redis.hash?, hput]

/-- What `FindById` finds is what the hash decodes to. -/
theorem session_eq (d : Redis) (sessionId : String) :
    d.session sessionId =
      (d.hash? (.session sessionId)).bind (RedisSessionRepository.decode sessionId) := by
  rw [session, hGetAll]
  rcases d.hash? (.session sessionId) with _ | _ | ⟨field, rest⟩ <;> rfl

/-- The session of the account that `Create` reads when its `GET` has this fault. -/
def oldSession (d : Redis) (fault : Option String) (accountId : ℤ) : Option String :=
  if fault = none then (d.execute (.get (.accountSession accountId))).1.join else none

/-- It depends on the pointer that is present. -/
theorem oldSession_congr {fault : Option String} {accountId : ℤ}
    (h : d'.live (.accountSession accountId) = d.live (.accountSession accountId)) :
    d'.oldSession fault accountId = d.oldSession fault accountId := by
  rw [oldSession, oldSession]
  simp only [execute, h]
  rcases d.live (.accountSession accountId) with _ | ⟨_ | _, _⟩ <;> rfl

/-- `Create` reads what `SET` has stored. -/
theorem oldSession_set (d : Redis) (accountId : ℤ) (v : String) {ttl : Option ℕ}
    (httl : ∀ seconds ∈ ttl, 0 < seconds) :
    (d.execute (.set (.accountSession accountId) v ttl)).2.oldSession none accountId = some v := by
  have hput : (d.put (.accountSession accountId)
        (some ⟨.string v, ttl.map fun seconds => d.now + 1000 * seconds⟩)).live
        (.accountSession accountId) =
      some ⟨.string v, ttl.map fun seconds => d.now + 1000 * seconds⟩ := by
    refine live_put_self fun t ht => ?_
    obtain ⟨seconds, hseconds, rfl⟩ := Option.map_eq_some_iff.mp ht
    have := httl seconds hseconds
    omega
  simp [oldSession, execute, hput]

variable (d : Redis) (faults : ℕ → Option String) (n : ℕ) (accountId : ℤ)

/-- The session that `Create` removes, if its `GET` is the `n`th command: the one it reads,
unless the `DEL` that follows fails. -/
def removed : Option String :=
  if faults (n + 1) = none then d.oldSession (faults n) accountId else none

/-- What is left of the hash of a session when `Create` has removed the old one. -/
def leftover (sessionId : String) : Option (List (String × String)) :=
  if d.removed faults n accountId = some sessionId then some [] else d.hash? (.session sessionId)

/-- The number of its first `HSET`. -/
def firstHSet : ℕ := if (d.oldSession (faults n) accountId).isSome then n + 2 else n + 1

end Redis

/-! ## Creating a session -/

section Create

variable {ι : Type} [DecidableEq ι] {env : Env} {i : ι} {s : Store ι}
  {exec : Store ι → Option String → (c : Cmd) → Option (c.Reply × Store ι)}
  {clock : Store ι → ℤ} {faults : ℕ → Option String} {n : ℕ} {stuck : Prop}

/-- The interpreter executes the commands of process `i` as the store does, and `clock`
is what the process reads off its clock. -/
structure Serves (i : ι) (clock : Store ι → ℤ)
    (exec : Store ι → Option String → (c : Cmd) → Option (c.Reply × Store ι)) : Prop where
  onRedis : ∀ s fault c, exec s fault (.redis c) = s.perform i fault (.redis c)
  onSequence : ∀ s fault,
    exec s fault .fetchAddSequence = s.perform i fault .fetchAddSequence
  onClock : ∀ s fault, exec s fault .epochSeconds = some (clock s, s)

theorem serves_failing (i : ι) :
    Serves i (fun s => (s.redis.now / 1000 : ℕ)) (Store.failing i) :=
  ⟨fun _ _ _ => rfl, fun _ _ => rfl, fun _ _ => rfl⟩

theorem Serves.yields (hexec : Serves i clock exec) (c : RedisCmd) :
    (redis c).Yields exec faults stuck (fun r n' s' => n' = n + 1 ∧
      (r, s') = if faults n = none then ((s.redis.execute c).1,
        { s with redis := (s.redis.execute c).2 }) else (c.failed, s)) n s := by
  have hyields : (redis c).Yields (Store.failing i) faults stuck (fun r n' s' => n' = n + 1 ∧
      (r, s') = if faults n = none then ((s.redis.execute c).1,
        { s with redis := (s.redis.execute c).2 }) else (c.failed, s)) n s := yields_redis c
  refine ⟨fun hs => hyields.1 ?_, fun r s' hs => hyields.2 r s' ?_⟩
  · exact (hexec.onRedis s (faults n) c).symm.trans hs
  · exact (hexec.onRedis s (faults n) c).symm.trans hs

theorem Serves.yields_get (hexec : Serves i clock exec) (a : ℤ) :
    (RedisClient.get (.accountSession a)).Yields exec faults stuck (fun old n' s' =>
      n' = n + 1 ∧ s' = s ∧ old = s.redis.oldSession (faults n) a) n s := by
  refine (hexec.yields _).bind ?_
  rintro r _ s' ⟨rfl, hr⟩
  rw [Redis.oldSession]
  by_cases hfault : faults n = none
  · rw [if_pos hfault] at hr
    obtain ⟨rfl, rfl⟩ := Prod.mk.inj hr
    rw [if_pos hfault, Redis.execute_reads rfl]
    rcases (s.redis.execute (.get (.accountSession a))).1 with _ | old
    · exact ⟨rfl, rfl, rfl⟩
    · exact ⟨rfl, rfl, rfl⟩
  · rw [if_neg hfault] at hr
    obtain ⟨rfl, rfl⟩ := Prod.mk.inj hr
    rw [if_neg hfault]
    exact ⟨rfl, rfl, rfl⟩

/-- `DEL` of a session, unless it fails. -/
theorem Serves.yields_del (hexec : Serves i clock exec) (old : String) :
    (RedisClient.del (.session old)).Yields exec faults stuck (fun _ n' s' => n' = n + 1 ∧
      ∃ d, s' = { s with redis := d } ∧
        (∀ sessionId, d.hash? (.session sessionId) =
          if faults n = none ∧ sessionId = old then some [] else
            s.redis.hash? (.session sessionId)) ∧
        ∀ a, d.live (.accountSession a) = s.redis.live (.accountSession a)) n s := by
  refine (hexec.yields _).mono ?_
  rintro r _ s' ⟨rfl, hr⟩
  by_cases hfault : faults n = none
  · rw [if_pos hfault] at hr
    obtain ⟨rfl, rfl⟩ := Prod.mk.inj hr
    have hdel := Redis.onlyAt_execute (d := s.redis) (.del (.session old))
    refine ⟨rfl, _, rfl, fun sessionId => ?_, fun a => hdel.live RedisKey.noConfusion⟩
    by_cases hid : sessionId = old
    · rw [if_pos ⟨hfault, hid⟩, hid]
      simp [Redis.execute, Redis.hash?, Redis.live]
    · rw [if_neg fun h => hid h.2]
      exact hdel.hash? fun h => hid (RedisKey.session.inj h)
  · rw [if_neg hfault] at hr
    obtain ⟨rfl, rfl⟩ := Prod.mk.inj hr
    exact ⟨rfl, _, rfl, fun sessionId => (if_neg fun h => hfault h.1).symm, fun _ => rfl⟩

/-- The `HSET` loop writes the fields in front of the first `HSET` that fails. -/
theorem Serves.yields_hSetFields (hexec : Serves i clock exec) (k : RedisKey) :
    ∀ (values : List (String × String)) (n : ℕ) (s : Store ι),
      (RedisClient.hSetFields k values).Yields exec faults stuck (fun _ _ s' =>
        ∃ d, s' = { s with redis := d } ∧ s.redis.OnlyAt k d ∧
          d.hash? k = (s.redis.hash? k).map fun old => overwrite old (written faults n values)) n s
  | [], n, s => ⟨s.redis, rfl, .refl .., by simp [written, overwrite]⟩
  | (f, v) :: rest, n, s => by
    refine (hexec.yields (.hset k f v)).bind ?_
    rintro ok _ s' ⟨rfl, hr⟩
    by_cases hfault : faults n = none
    · rw [if_pos hfault] at hr
      obtain ⟨rfl, rfl⟩ := Prod.mk.inj hr
      obtain ⟨hok, hhash⟩ := Redis.hset_hash? s.redis k f v
      rcases hold : s.redis.hash? k with _ | old
      · -- the key holds a string, and the loop ends
        rw [hok, hold]
        refine ⟨_, rfl, Redis.onlyAt_execute (.hset k f v), ?_⟩
        rw [hhash, hold]
        rfl
      · rw [hok, hold]
        refine (hexec.yields_hSetFields k rest (n + 1) _).mono ?_
        rintro _ _ _ ⟨d, rfl, honly, hd⟩
        refine ⟨d, rfl, (Redis.onlyAt_execute (.hset k f v)).trans honly, ?_⟩
        rw [hd, hhash, hold, written, if_pos hfault]
        rfl
    · -- it ends at the first `HSET` that fails
      rw [if_neg hfault] at hr
      obtain ⟨rfl, rfl⟩ := Prod.mk.inj hr
      exact ⟨s'.redis, rfl, .refl .., by simp [written, hfault, overwrite]⟩

/-- `HSet`, whether or not the lifetime is set. -/
theorem Serves.yields_hSet (hexec : Serves i clock exec) (k : RedisKey)
    (values : List (String × String)) (ttl : ℤ) :
    (RedisClient.hSet env k values ttl).Yields exec faults stuck (fun _ _ s' =>
      ∃ d, s' = { s with redis := d } ∧ s.redis.OnlyAt k d ∧
        d.hash? k = (s.redis.hash? k).map fun old =>
          overwrite old (written faults n (env.fieldOrder values))) n s := by
  refine (hexec.yields_hSetFields k _ n s).bind ?_
  rintro done n' _ ⟨d, rfl, honly, hhash⟩
  cases done with
  | false => exact ⟨d, rfl, honly, hhash⟩
  | true =>
    rw [if_pos rfl]
    split
    · rename_i httl
      refine (hexec.yields _).mono ?_
      rintro r _ s' ⟨-, hr⟩
      split at hr
      · obtain ⟨rfl, rfl⟩ := Prod.mk.inj hr
        refine ⟨_, rfl, honly.trans (Redis.onlyAt_execute (.expire k ttl.toNat)), ?_⟩
        rw [Redis.expire_hash? d k (by omega), hhash]
      · obtain ⟨rfl, rfl⟩ := Prod.mk.inj hr
        exact ⟨d, rfl, honly, hhash⟩
    · exact ⟨d, rfl, honly, hhash⟩

/-- `Created env d faults n session d'`: what the Redis commands of `Create` turn `d` into,
if the `GET` is the `n`th command. -/
structure Created (env : Env) (d : Redis) (faults : ℕ → Option String) (n : ℕ)
    (session : Session) (d' : Redis) : Prop where
  /-- the hash of the new session -/
  hash : d'.hash? (.session session.sessionId) =
    (d.leftover faults n session.accountId session.sessionId).map fun old =>
      overwrite old (written faults (d.firstHSet faults n session.accountId)
        (env.fieldOrder (RedisSessionRepository.fields session)))
  /-- those of all others -/
  others : ∀ sessionId, sessionId ≠ session.sessionId →
    d'.hash? (.session sessionId) = d.leftover faults n session.accountId sessionId
  /-- the pointer of the account -/
  pointer : (∀ m, faults m = none) →
    d'.oldSession none session.accountId = some session.sessionId
  /-- those of other accounts -/
  pointers : ∀ a, a ≠ session.accountId →
    d'.live (.accountSession a) = d.live (.accountSession a)

/-- The writes of `Create`, from the `HSET`s on. -/
theorem Serves.yields_save (hexec : Serves i clock exec) (session : Session) :
    Prog.Yields exec faults stuck (fun r _ s' => r = session ∧ ∃ d, s' = { s with redis := d } ∧
      d.hash? (.session session.sessionId) =
        (s.redis.hash? (.session session.sessionId)).map (fun old =>
          overwrite old (written faults n
            (env.fieldOrder (RedisSessionRepository.fields session)))) ∧
      (∀ sessionId, sessionId ≠ session.sessionId →
        d.hash? (.session sessionId) = s.redis.hash? (.session sessionId)) ∧
      ((∀ m, faults m = none) →
        d.oldSession none session.accountId = some session.sessionId) ∧
      ∀ a, a ≠ session.accountId → d.live (.accountSession a) = s.redis.live (.accountSession a))
      (do
        let _ ← RedisClient.hSet env (.session session.sessionId)
          (RedisSessionRepository.fields session) env.sessionTtl
        let _ ← RedisClient.set (.accountSession session.accountId) session.sessionId
          env.sessionTtl
        return session) n s := by
  refine (hexec.yields_hSet _ _ _).bind ?_
  rintro _ n' _ ⟨d, rfl, honly, hhash⟩
  refine (hexec.yields _).bind ?_
  rintro r _ s' ⟨-, hr⟩
  by_cases hfault : faults n' = none
  · rw [if_pos hfault] at hr
    obtain ⟨rfl, rfl⟩ := Prod.mk.inj hr
    have hset := Redis.onlyAt_execute (d := d) (.set (.accountSession session.accountId)
      session.sessionId (if 0 < env.sessionTtl then some env.sessionTtl.toNat else none))
    refine ⟨rfl, _, rfl, ?_, fun sessionId hne => ?_, fun _ => ?_, fun a ha => ?_⟩
    · exact (hset.hash? RedisKey.noConfusion).trans hhash
    · exact (hset.hash? RedisKey.noConfusion).trans
        (honly.hash? fun h => hne (RedisKey.session.inj h))
    · refine Redis.oldSession_set d _ _ fun seconds hseconds => ?_
      split at hseconds
      · rw [← Option.some.inj hseconds]
        omega
      · cases hseconds
    · exact (hset.live fun h => ha (RedisKey.accountSession.inj h)).trans
        (honly.live RedisKey.noConfusion)
  · rw [if_neg hfault] at hr
    obtain ⟨rfl, rfl⟩ := Prod.mk.inj hr
    exact ⟨rfl, d, rfl, hhash,
      fun sessionId hne => honly.hash? fun h => hne (RedisKey.session.inj h),
      fun h => absurd (h n') hfault, fun a _ => honly.live RedisKey.noConfusion⟩

/-- What `Create` returns and leaves behind; its `GET` is its third command. -/
theorem Serves.yields_create (hexec : Serves i clock exec) (a p : ℤ) :
    (RedisSessionRepository.create env a p).Yields exec faults stuck (fun session _ s' =>
      session = ⟨RedisSessionRepository.sessionIdText a p (s.sequence i), a, p, clock s⟩ ∧
        ∃ d, s' = { s with
            redis := d, sequence := Function.update s.sequence i (s.sequence i + 1) } ∧
          Created env s.redis faults (n + 2) session d) n s := by
  refine ⟨by rw [hexec.onClock]; nofun, fun createdAt s' hs => ?_⟩
  rw [hexec.onClock] at hs
  obtain ⟨rfl, rfl⟩ := Prod.mk.inj (Option.some.inj hs)
  refine ⟨by rw [hexec.onSequence]; nofun, fun sequence s' hs => ?_⟩
  rw [hexec.onSequence] at hs
  obtain ⟨rfl, rfl⟩ := Prod.mk.inj (Option.some.inj hs)
  refine (hexec.yields_get a).bind ?_
  rintro old _ _ ⟨rfl, rfl, hold⟩
  -- without an old session there is no `DEL`, and the `HSET`s start one command earlier
  cases old with
  | none =>
    have hremoved : s.redis.removed faults (n + 2) a = none := by
      rw [Redis.removed, ← hold, ite_self]
    have hleftover : ∀ sessionId, s.redis.leftover faults (n + 2) a sessionId =
        s.redis.hash? (.session sessionId) := fun sessionId => by
      rw [Redis.leftover, hremoved, if_neg nofun]
    refine (hexec.yields_save _).mono ?_
    rintro _ _ _ ⟨rfl, d, rfl, hhash, hothers, hpointer, hpointers⟩
    refine ⟨rfl, d, rfl, ?_, fun sessionId hne => ?_, hpointer, hpointers⟩
    · rw [hleftover, Redis.firstHSet, ← hold]
      exact hhash
    · exact (hothers sessionId hne).trans (hleftover sessionId).symm
  | some old =>
    have hleftover : ∀ sessionId, s.redis.leftover faults (n + 2) a sessionId =
        if faults (n + 3) = none ∧ sessionId = old then some [] else
          s.redis.hash? (.session sessionId) := fun sessionId => by
      rw [Redis.leftover, Redis.removed, ← hold]
      by_cases hfault : faults (n + 3) = none
      · simp [hfault, eq_comm]
      · simp [hfault]
    refine (hexec.yields_del old).bind ?_
    rintro _ _ _ ⟨rfl, d₁, rfl, hhash₁, hlive₁⟩
    refine (hexec.yields_save _).mono ?_
    rintro _ _ _ ⟨rfl, d, rfl, hhash, hothers, hpointer, hpointers⟩
    refine ⟨rfl, d, rfl, ?_, fun sessionId hne => ?_, hpointer, fun b hb => ?_⟩
    · rw [hleftover, Redis.firstHSet, ← hold]
      exact hhash.trans (congrArg _ (hhash₁ _))
    · exact (hothers sessionId hne).trans ((hhash₁ sessionId).trans (hleftover sessionId).symm)
    · exact (hpointers b hb).trans (hlive₁ b)

end Create

/-! ## Logins -/

section Login

variable {ι : Type} [DecidableEq ι] {env : Env} {i : ι} {s s' : Store ι}
  {faults : ℕ → Option String} {account : Account}

/-- `FindById` with this id returns this session. -/
def Store.Accepts (s : Store ι) (i : ι) (sessionId : String) (session : Session) : Prop :=
  s.runFailing i (RedisSessionRepository.findById sessionId) (fun _ => none) =
    some (some session, s)

theorem Store.accepts_iff {sessionId : String} {session : Session} :
    s.Accepts i sessionId session ↔ s.redis.session sessionId = some session := by
  constructor
  · intro h
    obtain ⟨_, -, -, hsession⟩ := (yields_findById sessionId fun _ _ _ => trivial).runFailing h
    exact (hsession.trans (if_pos rfl)).symm
  · intro h
    have hreadable : ∀ values, s.redis.hGetAll (.session sessionId) = some values →
        RedisSessionRepository.decode sessionId values ≠ none :=
      fun _ => Redis.readable_of_session h
    have hyields : (RedisSessionRepository.findById sessionId).Yields (Store.failing i)
        (fun _ => none) False _ 0 s := yields_findById sessionId hreadable
    obtain ⟨r, s', hrun⟩ := hyields.runFailing_returns id
    obtain ⟨_, -, rfl, rfl⟩ := hyields.runFailing hrun
    rw [Store.Accepts, hrun, if_pos rfl, h]

/-- The session is that of the account, it can be used, and no older session of the account
can be used any more. -/
structure Store.Usable (s s' : Store ι) (i : ι) (account : Account) (session : Session) :
    Prop where
  found : s'.Accepts i session.sessionId session
  accountId : session.accountId = account.accountId
  playerId : session.playerId = account.defaultPlayerId
  revoked : ∀ sessionId old, sessionId ≠ session.sessionId → s.Accepts i sessionId old →
    old.accountId = account.accountId → ∀ found, ¬s'.Accepts i sessionId found

/-- The session a login of this account creates. -/
def Store.loginSession (s : Store ι) (i : ι) (account : Account) : Session where
  sessionId := RedisSessionRepository.sessionIdText account.accountId account.defaultPlayerId
    (s.sequence i)
  accountId := account.accountId
  playerId := account.defaultPlayerId
  createdAtEpochSeconds := (s.redis.now / 1000 : ℕ)

/-- The commands that matter to a login go through. The `GET` of its `Create` is its fourth
command. -/
structure Store.Establishes (env : Env) (s : Store ι) (i : ι) (account : Account)
    (faults : ℕ → Option String) : Prop where
  /-- every field of the new session is written before an `HSET` fails, or has its value
  already -/
  stored : ∃ values, s.redis.leftover faults 3 account.accountId
      (s.loginSession i account).sessionId = some values ∧
    ∀ f v, (f, v) ∈ RedisSessionRepository.fields (s.loginSession i account) →
      (f, v) ∈ written faults (s.redis.firstHSet faults 3 account.accountId)
          (env.fieldOrder (RedisSessionRepository.fields (s.loginSession i account))) ∨
        (fieldOf values f).bind stoll = stoll v
  /-- every other session of the account that can be used is the one that is removed -/
  removed : ∀ sessionId old, sessionId ≠ (s.loginSession i account).sessionId →
    s.Accepts i sessionId old → old.accountId = account.accountId →
    s.redis.removed faults 3 account.accountId = some sessionId

/-- A hash decodes to a session if it has its values. -/
theorem decode_eq_some_iff (session : Session) (values : List (String × String)) :
    RedisSessionRepository.decode session.sessionId values = some session ↔
      ∀ f v, (f, v) ∈ RedisSessionRepository.fields session →
        (fieldOf values f).bind stoll = stoll v := by
  obtain ⟨sessionId, a, p, createdAt⟩ := session
  simp only [RedisSessionRepository.fields, List.mem_cons, List.not_mem_nil, or_false,
    Prod.mk.injEq]
  constructor
  · intro h f v hfv
    simp only [RedisSessionRepository.decode, Option.bind_eq_bind, Option.bind_eq_some_iff,
      Option.pure_def, Option.some.injEq, Session.mk.injEq, true_and] at h
    obtain ⟨_, h₁, _, h₁', _, h₂, _, h₂', _, h₃, _, h₃', rfl, rfl, rfl⟩ := h
    rcases hfv with ⟨rfl, rfl⟩ | ⟨rfl, rfl⟩ | ⟨rfl, rfl⟩
    · rw [h₁, Option.bind_some, h₁', stoll_toString]
    · rw [h₂, Option.bind_some, h₂', stoll_toString]
    · rw [h₃, Option.bind_some, h₃', stoll_toString]
  · intro h
    have h₁ := (h _ _ (.inl ⟨rfl, rfl⟩)).trans (stoll_toString a)
    have h₂ := (h _ _ (.inr (.inl ⟨rfl, rfl⟩))).trans (stoll_toString p)
    have h₃ := (h _ _ (.inr (.inr ⟨rfl, rfl⟩))).trans (stoll_toString createdAt)
    obtain ⟨_, h₁, h₁'⟩ := Option.bind_eq_some_iff.mp h₁
    obtain ⟨_, h₂, h₂'⟩ := Option.bind_eq_some_iff.mp h₂
    obtain ⟨_, h₃, h₃'⟩ := Option.bind_eq_some_iff.mp h₃
    simp [RedisSessionRepository.decode, h₁, h₁', h₂, h₂', h₃, h₃']

/-- A field that is set last has the value it is set to; in a hash of `values` the others
have their old value. -/
theorem fieldOf_overwrite_iff {values writes fields : List (String × String)}
    (hnodup : (fields.map Prod.fst).Nodup) (hsub : writes.Subperm fields) {f v : String}
    (hfv : (f, v) ∈ fields) :
    (fieldOf (overwrite values writes) f).bind stoll = stoll v ↔
      (f, v) ∈ writes ∨ (fieldOf values f).bind stoll = stoll v := by
  obtain ⟨fields', hperm, hsublist⟩ := hsub
  have hwrites : (writes.map Prod.fst).Nodup :=
    (hperm.map Prod.fst).nodup_iff.mp (hnodup.sublist (hsublist.map Prod.fst))
  have hsubset : ∀ w ∈ writes, w ∈ fields :=
    fun w hw => hsublist.subset (hperm.mem_iff.mpr hw)
  rw [fieldOf_overwrite f values hwrites]
  by_cases hmem : (f, v) ∈ writes
  · rw [fieldOf_of_mem hwrites hmem]
    exact iff_of_true rfl (.inl hmem)
  · -- the write of a field with another value would be a second field of that name
    have hnone : fieldOf writes f = none := by
      rw [fieldOf, List.lookup_eq_none_iff]
      rintro ⟨g, w⟩ hw
      refine bne_iff_ne.mpr ?_
      rintro rfl
      have hv : some w = some v :=
        (fieldOf_of_mem hnodup (hsubset _ hw)).symm.trans (fieldOf_of_mem hnodup hfv)
      exact hmem (Option.some.inj hv ▸ hw)
    rw [hnone, Option.none_or, or_iff_right hmem]

/-- What the hash of a new session decodes to. -/
theorem Created.found_iff {session : Session} {d d' : Redis} {n : ℕ}
    (h : Created env d faults n session d') :
    d'.session session.sessionId = some session ↔
      ∃ values, d.leftover faults n session.accountId session.sessionId = some values ∧
        ∀ f v, (f, v) ∈ RedisSessionRepository.fields session →
          (f, v) ∈ written faults (d.firstHSet faults n session.accountId)
              (env.fieldOrder (RedisSessionRepository.fields session)) ∨
            (fieldOf values f).bind stoll = stoll v := by
  have hsub : (written faults (d.firstHSet faults n session.accountId)
      (env.fieldOrder (RedisSessionRepository.fields session))).Subperm
      (RedisSessionRepository.fields session) :=
    (written_isPrefix ..).sublist.subperm.trans (env.fieldOrder_perm _).subperm
  have hnodup : ((RedisSessionRepository.fields session).map Prod.fst).Nodup :=
    (by decide : ["account_id", "player_id", "created_at_epoch_seconds"].Nodup)
  rw [Redis.session_eq, h.hash]
  rcases d.leftover faults n session.accountId session.sessionId with _ | values
  · exact iff_of_false nofun fun h => nomatch h.choose_spec.1
  · rw [Option.map_some, Option.bind_some, decode_eq_some_iff]
    constructor
    · exact fun h => ⟨values, rfl, fun f v hfv =>
        (fieldOf_overwrite_iff hnodup hsub hfv).mp (h f v hfv)⟩
    · rintro ⟨_, hvalues, h⟩ f v hfv
      obtain rfl := Option.some.inj hvalues
      exact (fieldOf_overwrite_iff hnodup hsub hfv).mpr (h f v hfv)

/-- The other sessions are what they were, but for the one that is removed. -/
theorem Created.other {session : Session} {d d' : Redis} {n : ℕ}
    (h : Created env d faults n session d') {sessionId : String}
    (hne : sessionId ≠ session.sessionId) :
    d'.session sessionId =
      if d.removed faults n session.accountId = some sessionId then none
      else d.session sessionId := by
  rw [Redis.session_eq, h.others sessionId hne, Redis.leftover]
  split
  · rfl
  · exact (Redis.session_eq d sessionId).symm

/-- A successful login has created a session of the account. -/
theorem yields_login (request : LoginRequest) :
    (LoginService.login env request).Yields (Store.failing i) faults True
      (fun response _ s' => response.success = true → ∃ account,
        ((Query.account request.accountName).rows (s.mysql.view i)).head? = some account ∧
        response.session = some (s.loginSession i account) ∧
        Created env s.redis faults 3 (s.loginSession i account) s'.redis) 0 s := by
  refine (yields_queryOne _).bind ?_
  rintro row _ s' ⟨rfl, rfl, hrow⟩
  cases row with
  | none => exact nofun
  | some account =>
    have haccount : ((Query.account request.accountName).rows (s'.mysql.view i)).head? =
        some account := by
      split at hrow
      · exact hrow.symm
      · cases hrow
    simp only
    split
    · exact nofun
    · split
      · exact nofun
      · refine ((serves_failing i).yields_create _ _).bind ?_
        rintro session _ _ ⟨rfl, d, rfl, hcreated⟩
        exact fun _ => ⟨account, haccount, rfl, hcreated⟩

/-- **A successful login gives a usable session** exactly if the commands that matter go
through. -/
theorem login_session_usable {request : LoginRequest} {response : LoginResponse}
    (hrun : s.runFailing i (LoginService.login env request) faults = some (response, s'))
    (hsuccess : response.success = true) :
    ∃ account session,
      ((Query.account request.accountName).rows (s.mysql.view i)).head? = some account ∧
      response.session = some session ∧
      (s.Usable s' i account session ↔ s.Establishes env i account faults) := by
  obtain ⟨_, hyields⟩ := (yields_login request).runFailing hrun
  obtain ⟨account, haccount, hsession, hcreated⟩ := hyields hsuccess
  refine ⟨account, _, haccount, hsession, ?_⟩
  constructor
  · intro h
    refine ⟨hcreated.found_iff.mp (Store.accepts_iff.mp h.found), ?_⟩
    intro sessionId old hne haccepts hold
    by_contra hkept
    -- an older session that is not removed stays
    have hother : s'.redis.session sessionId = s.redis.session sessionId :=
      (hcreated.other hne).trans (if_neg hkept)
    exact h.revoked sessionId old hne haccepts hold old
      (Store.accepts_iff.mpr (hother.trans (Store.accepts_iff.mp haccepts)))
  · intro h
    refine ⟨Store.accepts_iff.mpr (hcreated.found_iff.mpr h.stored), rfl, rfl, ?_⟩
    intro sessionId old hne haccepts hold found hfound
    have hother : s'.redis.session sessionId = none :=
      (hcreated.other hne).trans (if_pos (h.removed sessionId old hne haccepts hold))
    rw [Store.accepts_iff.mp hfound] at hother
    cases hother

/-- Demo servers whose first account has logged in before. -/
def loggedInStore : Store Bool where
  mysql := demoWorld.store.mysql
  redis :=
    { now := 0
      entries
        | .session "s" =>
          some ⟨.hash (RedisSessionRepository.fields ⟨"s", 10001, 20001, 0⟩), none⟩
        | .accountSession 10001 => some ⟨.string "s", none⟩
        | _ => none }
  sequence _ := 1

theorem login_session_usable_demo :
    ∃ response s', loggedInStore.runFailing false
        (LoginService.login demoEnv ⟨"demo", "demo"⟩) (fun _ => none) = some (response, s') ∧
      ∃ account session, response.session = some session ∧
        loggedInStore.Usable s' false account session := by
  have hsuccess : ((loggedInStore.runFailing false
      (LoginService.login demoEnv ⟨"demo", "demo"⟩) fun _ => none).map fun r => r.1.success) =
      some true := by decide +kernel
  obtain ⟨⟨response, s'⟩, hrun, hok⟩ := Option.map_eq_some_iff.mp hsuccess
  obtain ⟨account, session, haccount, hsession, husable⟩ := login_session_usable hrun hok
  refine ⟨response, s', hrun, account, session, hsession, husable.mpr ?_⟩
  obtain rfl : (⟨10001, "demo", "demo", 20001, true⟩ : Account) = account :=
    Option.some.inj (Eq.trans (by decide +kernel) haccount)
  refine ⟨⟨[], by decide +kernel, fun f v hfv => .inl ?_⟩, fun sessionId old hne haccepts _ => ?_⟩
  · rw [written_all fun _ => rfl]
    exact hfv
  · have hlive : (loggedInStore.redis.live (.session sessionId)).isSome = true := by
      obtain ⟨values, hvalues, -⟩ := Option.bind_eq_some_iff.mp (Store.accepts_iff.mp haccepts)
      obtain ⟨e, he, -⟩ := Redis.live_of_hGetAll hvalues
      rw [he]
      rfl
    by_cases hid : sessionId = "s"
    · subst hid
      decide +kernel
    · have hnone : loggedInStore.redis.entries (.session sessionId) = none := by
        simp only [loggedInStore]
        split <;> simp_all
      simp [Redis.live, hnone] at hlive

/-- A login whose first `HSET` fails succeeds, although nobody finds its session. -/
theorem login_session_unusable :
    ¬∀ (env : Env) (s : Store Bool) (i : Bool) (faults : ℕ → Option String)
      (request : LoginRequest) (response : LoginResponse) (s' : Store Bool),
      s.runFailing i (LoginService.login env request) faults = some (response, s') →
      response.success = true →
      ∃ account session,
        ((Query.account request.accountName).rows (s.mysql.view i)).head? = some account ∧
        response.session = some session ∧ s.Usable s' i account session := by
  intro h
  let faults : ℕ → Option String := fun n => if n = 5 then some "connection lost" else none
  have hlost : ((loggedInStore.runFailing false (LoginService.login demoEnv ⟨"demo", "demo"⟩)
      faults).map fun r => (r.1.success,
        r.1.session.bind fun session => r.2.redis.session session.sessionId)) =
      some (true, none) := by decide +kernel
  obtain ⟨⟨response, s'⟩, hrun, hfound⟩ := Option.map_eq_some_iff.mp hlost
  obtain ⟨hsuccess, hnone⟩ := Prod.mk.inj hfound
  obtain ⟨account, session, -, hsession, husable⟩ := h _ _ _ _ _ _ _ hrun hsuccess
  rw [hsession, Option.bind_some, Store.accepts_iff.mp husable.found] at hnone
  cases hnone

end Login

end GameBackend
