import GameBackend.AllOrNothing
import GameBackend.Footprints

/-!
# One live session an account

A login deletes the session the account had before, which it finds through the
key `account:session:<id>`. That key expires, too; but it is set after the session
it points to, so it outlives it, and a session that is still there is always the
one the key points to.

Requests are processed one after the other here, with any delays between their
commands.

* `Store.respond`, `Visit`, `Office` — the machine; it notes the sessions that
  logins have returned.
* `Current` — the invariant: a session that is present and valid is the latest one
  of its account, and the key of the account points to it for as long as it lives.
  Here every session is valid.
* `Signing` — the same in the middle of a login.
-/

namespace GameBackend

variable {ι : Type} [DecidableEq ι] {env : Env}

/-! ## The machine -/

namespace Store

/-- Execute a command of process `i` after `ms` milliseconds. -/
def later (s : Store ι) (i : ι) (ms : ℕ) (c : Cmd) : Option (c.Reply × Store ι) :=
  (s.tick ms).perform i none c

/-- Process `i` responds to a request; its `n`th command is sent after `delays n`
milliseconds and fails with `faults n`. -/
def respond (env : Env) (s : Store ι) (i : ι) (request : Request) (delays : ℕ → ℕ)
    (faults : ℕ → Option String) : Option (Response × Store ι) :=
  (GameBackend.serve env request).run (fun s x c => (s.tick x.1).perform i x.2 c)
    (fun n => (delays n, faults n)) s

theorem respond_faultless {s : Store ι} {i : ι} {request : Request} {delays : ℕ → ℕ}
    {faults : ℕ → Option String} (hfaults : ∀ n, faults n = none) :
    s.respond env i request delays faults =
      (GameBackend.serve env request).run (fun s ms c => s.later i ms c) delays s := by
  obtain rfl : faults = fun _ => none := funext hfaults
  exact Prog.run_comp (fun ms => (ms, none)) (GameBackend.serve env request) delays s

end Store

/-- The session a response brings. -/
def Response.session : Response → Option Session
  | .login response => if response.success then response.session else none
  | _ => none

/-- Whether a response is a success. -/
def Response.success : Response → Bool
  | .login response => response.success
  | .loadPlayer response => response.success
  | .enterDungeon response => response.success
  | .settleDungeon response => response.success
  | .restoreBinding binding => binding.isSome

/-- The session id a request carries. -/
def Request.sessionId : Request → Option String
  | .login _ => none
  | .loadPlayer request => some request.sessionId
  | .enterDungeon request => some request.sessionId
  | .settleDungeon request => some request.sessionId
  | .restoreBinding sessionId _ => some sessionId

/-- The servers, and the sessions that logins have returned, newest first. -/
structure Office (ι : Type) where
  store : Store ι
  logins : List Session

/-- What happens to it. -/
inductive Visit (ι : Type) where
  | serve (i : ι) (request : Request) (delays : ℕ → ℕ) (faults : ℕ → Option String)
  | tick (ms : ℕ)
  | restart (i : ι)
  | evict (k : RedisKey)

/-- One visit. -/
def Office.step (env : Env) (o : Office ι) : Visit ι → Option (Office ι)
  | .serve i request delays faults =>
    (o.store.respond env i request delays faults).map fun result =>
      ⟨result.2, result.1.session.toList ++ o.logins⟩
  | .tick ms => some { o with store := o.store.tick ms }
  | .restart i => some { o with store := o.store.crash i }
  | .evict k => some { o with store := o.store.evict k }

/-- No command fails, and keys of sessions are present until their time is up. -/
def Office.KeepsSessions (_ : Office ι) : Visit ι → Prop
  | .serve _ _ _ faults => ∀ n, faults n = none
  | .evict k => k.ofLogin = false
  | _ => True

/-- The latest session of an account. -/
def latestSession (logins : List Session) (accountId : ℤ) : Option String :=
  (logins.find? fun session => session.accountId = accountId).map Session.sessionId

/-! ## Session ids -/

/-- The id of the session was made with the number `n`. -/
def Numbered (session : Session) (n : UInt64) : Prop :=
  session.sessionId = RedisSessionRepository.sessionIdText session.accountId session.playerId n

/-- The text is the id of a session of the account. -/
def SessionOf (accountId : ℤ) (sessionId : String) : Prop :=
  ∃ playerId n, sessionId = RedisSessionRepository.sessionIdText accountId playerId n

theorem Numbered.sessionOf {session : Session} {n : UInt64} (h : Numbered session n) :
    SessionOf session.accountId session.sessionId := ⟨_, n, h⟩

/-- A session id tells its account. -/
theorem SessionOf.unique {a b : ℤ} {sessionId : String} (ha : SessionOf a sessionId)
    (hb : SessionOf b sessionId) : a = b := by
  obtain ⟨p, n, rfl⟩ := ha
  obtain ⟨q, m, h⟩ := hb
  exact (RedisSessionRepository.sessionIdText_inj h).1

/-! ## The invariant -/

/-- The key of the account `a` points to the session `sessionId`, and outlives its
entry `e`. -/
def Pointed (d : Redis) (a : ℤ) (sessionId : String) (e : RedisEntry) : Prop :=
  ∃ e', d.live (.accountSession a) = some e' ∧ e'.value = .string sessionId ∧
    ∀ t' ∈ e'.expiresAt, ∃ t ∈ e.expiresAt, t ≤ t'

/-- The stored session `sessionId` has fields of a session with this id. -/
def Holds (sessionId : String) (e : RedisEntry) : Prop :=
  ∃ session n values, session.sessionId = sessionId ∧ Numbered session n ∧
    e.value = .hash values ∧ SubHash values (RedisSessionRepository.fields session)

/-- The session `sessionId` with entry `e` is the one account `a` has. -/
structure LatestOf (d : Redis) (logins : List Session) (a : ℤ) (sessionId : String)
    (e : RedisEntry) : Prop where
  text : SessionOf a sessionId
  pointed : Pointed d a sessionId e
  latest : latestSession logins a = some sessionId

/-- Every session that is present and valid is the latest one of its account. -/
structure Current (Valid : String → RedisEntry → Prop) (d : Redis) (logins : List Session) :
    Prop where
  holds : ∀ sessionId e, d.live (.session sessionId) = some e → Holds sessionId e
  live : ∀ sessionId e, d.live (.session sessionId) = some e → Valid sessionId e →
    ∃ a, LatestOf d logins a sessionId e
  texts : ∀ session ∈ logins, ∃ n, Numbered session n

variable {Valid : String → RedisEntry → Prop} {d d' : Redis} {logins : List Session}

/-- The key of an account outlives the session it points to. -/
theorem Pointed.tick {a : ℤ} {sessionId : String} {e : RedisEntry} {ms : ℕ}
    (h : Pointed d a sessionId e) (hlive : (d.tick ms).live (.session sessionId) = some e) :
    Pointed (d.tick ms) a sessionId e := by
  obtain ⟨e', he', hvalue, houtlives⟩ := h
  refine ⟨e', Redis.live_eq_some.mpr ⟨(Redis.live_eq_some.mp he').1, fun t' ht' => ?_⟩, hvalue,
    houtlives⟩
  obtain ⟨t, ht, hle⟩ := houtlives t' ht'
  exact lt_of_lt_of_le ((Redis.live_eq_some.mp hlive).2 t ht) hle

theorem LatestOf.tick {a : ℤ} {sessionId : String} {e : RedisEntry} {ms : ℕ}
    (h : LatestOf d logins a sessionId e) (hlive : (d.tick ms).live (.session sessionId) = some e) :
    LatestOf (d.tick ms) logins a sessionId e :=
  { h with pointed := h.pointed.tick hlive }

/-- It depends on the key of the account only. -/
theorem LatestOf.congr {a : ℤ} {sessionId : String} {e : RedisEntry}
    (h : LatestOf d logins a sessionId e)
    (hsame : d'.live (.accountSession a) = d.live (.accountSession a)) :
    LatestOf d' logins a sessionId e where
  text := h.text
  pointed := by
    obtain ⟨e', he', hrest⟩ := h.pointed
    exact ⟨e', hsame.trans he', hrest⟩
  latest := h.latest

theorem Current.tick (h : Current Valid d logins) (ms : ℕ) : Current Valid (d.tick ms) logins where
  holds sessionId e he := h.holds sessionId e (Redis.live_of_tick he)
  live sessionId e he hvalid := by
    obtain ⟨a, hlatest⟩ := h.live sessionId e (Redis.live_of_tick he) hvalid
    exact ⟨a, hlatest.tick he⟩
  texts := h.texts

/-- The invariant only looks at the keys of the login server. -/
theorem Current.congr (h : Current Valid d logins)
    (hsame : ∀ k, k.ofLogin = true → d'.live k = d.live k) : Current Valid d' logins where
  holds sessionId e he := h.holds sessionId e ((hsame _ rfl).symm.trans he)
  live sessionId e he hvalid := by
    obtain ⟨a, hlatest⟩ := h.live sessionId e ((hsame _ rfl).symm.trans he) hvalid
    exact ⟨a, hlatest.congr (hsame _ rfl)⟩
  texts := h.texts

/-- So it survives an eviction of any other key. -/
theorem Current.evict (h : Current Valid d logins) {k : RedisKey} (hk : k.ofLogin = false) :
    Current Valid (d.put k none) logins := by
  refine h.congr fun k' hk' => Redis.live_put_ne ?_
  rintro rfl
  rw [hk] at hk'
  cases hk'

/-! ## In the middle of a login -/

/-- No valid session of the account is present. -/
def Cleared (Valid : String → RedisEntry → Prop) (d : Redis) (a : ℤ) : Prop :=
  ∀ sessionId e, d.live (.session sessionId) = some e → Valid sessionId e → ¬SessionOf a sessionId

/-- A login is writing `session`: every other valid session is of another account, and
the latest one there. -/
structure Signing (Valid : String → RedisEntry → Prop) (d : Redis) (logins : List Session)
    (session : Session) : Prop where
  holds : ∀ sessionId e, d.live (.session sessionId) = some e → Holds sessionId e
  others : ∀ sessionId e, d.live (.session sessionId) = some e → Valid sessionId e →
    sessionId ≠ session.sessionId → ∃ a, a ≠ session.accountId ∧ LatestOf d logins a sessionId e
  texts : ∀ session ∈ logins, ∃ n, Numbered session n

/-- The new session expires, if it does, no later than a key set now. -/
def Timed (env : Env) (d : Redis) (session : Session) : Prop :=
  ∀ e, d.live (.session session.sessionId) = some e → 0 < env.sessionTtl →
    ∃ t ∈ e.expiresAt, t ≤ d.now + 1000 * env.sessionTtl.toNat

variable {session : Session} {a : ℤ}

theorem Signing.tick (h : Signing Valid d logins session) (ms : ℕ) :
    Signing Valid (d.tick ms) logins session where
  holds sessionId e he := h.holds sessionId e (Redis.live_of_tick he)
  others sessionId e he hvalid hne := by
    obtain ⟨b, hb, hlatest⟩ := h.others sessionId e (Redis.live_of_tick he) hvalid hne
    exact ⟨b, hb, hlatest.tick he⟩
  texts := h.texts

theorem Timed.tick (h : Timed env d session) (ms : ℕ) : Timed env (d.tick ms) session := by
  intro e he hpos
  obtain ⟨t, ht, hle⟩ := h e (Redis.live_of_tick he) hpos
  exact ⟨t, ht, hle.trans (Nat.add_le_add_right (Nat.le_add_right _ _) _)⟩

/-- Without a session of the account the login can write a new one. -/
theorem Current.signing (h : Current Valid d logins)
    (hcleared : Cleared Valid d session.accountId) : Signing Valid d logins session where
  holds := h.holds
  others sessionId e he hvalid _ := by
    obtain ⟨b, hlatest⟩ := h.live sessionId e he hvalid
    exact ⟨b, fun hb => hcleared sessionId e he hvalid (hb ▸ hlatest.text), hlatest⟩
  texts := h.texts

/-- As long as the new session is not valid nothing has changed. -/
theorem Signing.current (h : Signing Valid d logins session)
    (hinvalid : ∀ e, d.live (.session session.sessionId) = some e →
      ¬Valid session.sessionId e) : Current Valid d logins where
  holds := h.holds
  live sessionId e he hvalid := by
    have hne : sessionId ≠ session.sessionId := by
      rintro rfl
      exact hinvalid e he hvalid
    obtain ⟨b, -, hlatest⟩ := h.others sessionId e he hvalid hne
    exact ⟨b, hlatest⟩
  texts := h.texts

/-- What the key of an account says when it is asked. -/
theorem Current.asked (h : Current Valid d logins) {sessionId : String} {e : RedisEntry}
    (he : d.live (.session sessionId) = some e) (hvalid : Valid sessionId e)
    (hof : SessionOf a sessionId) :
    (d.execute (.get (.accountSession a))).1 = some (some sessionId) := by
  obtain ⟨b, hlatest⟩ := h.live sessionId e he hvalid
  obtain ⟨⟨value, expires⟩, he', hvalue, -⟩ := hlatest.pointed
  obtain rfl := hof.unique hlatest.text
  obtain rfl : value = .string sessionId := hvalue
  simp only [Redis.execute, he']

/-- Deleting a session keeps the invariant. -/
theorem Current.delete (h : Current Valid d logins) (old : String) :
    Current Valid (d.put (.session old) none) logins := by
  have hkept : ∀ sessionId e, (d.put (.session old) none).live (.session sessionId) = some e →
      d.live (.session sessionId) = some e := by
    intro sessionId e he
    have hne : RedisKey.session sessionId ≠ .session old := by
      rintro heq
      rw [heq] at he
      exact absurd (Redis.entries_of_live he) (by simp)
    rwa [Redis.live_put_ne hne] at he
  refine ⟨fun sessionId e he => h.holds sessionId e (hkept sessionId e he),
    fun sessionId e he hvalid => ?_, h.texts⟩
  obtain ⟨a, hlatest⟩ := h.live sessionId e (hkept sessionId e he) hvalid
  exact ⟨a, hlatest.congr (Redis.live_put_ne (by simp))⟩

/-- Deleting the only session an account has clears it. -/
theorem cleared_delete {old : String} (h : ∀ sessionId e,
    d.live (.session sessionId) = some e → Valid sessionId e → SessionOf a sessionId →
      old = sessionId) :
    Cleared Valid (d.put (.session old) none) a := by
  intro sessionId e he hvalid hof
  by_cases hne : sessionId = old
  · subst hne
    exact absurd (Redis.entries_of_live he) (by simp)
  · rw [Redis.live_put_ne (by simpa using hne)] at he
    exact hne (h sessionId e he hvalid hof).symm

/-- Changing the entry of the new session to fields of it keeps the invariant. -/
theorem Signing.put (h : Signing Valid d logins session) {e : RedisEntry}
    (hholds : Holds session.sessionId e) :
    Signing Valid (d.put (.session session.sessionId) (some e)) logins session where
  holds sessionId e' he := by
    by_cases hne : sessionId = session.sessionId
    · subst hne
      have hentry := Redis.entries_of_live he
      rw [Redis.entries_put_self] at hentry
      exact Option.some.inj hentry ▸ hholds
    · rw [Redis.live_put_ne (by simpa using hne)] at he
      exact h.holds sessionId e' he
  others sessionId e' he hvalid hne := by
    rw [Redis.live_put_ne (by simpa using hne)] at he
    obtain ⟨b, hb, hlatest⟩ := h.others sessionId e' he hvalid hne
    exact ⟨b, hb, hlatest.congr (Redis.live_put_ne (by simp))⟩
  texts := h.texts

/-- A field of a session is written over those of a session with the same id, which may
have been made at another time. -/
theorem Holds.setField {n : UInt64} {values : List (String × String)} {expires : Option ℕ}
    {f v : String} (h : Holds session.sessionId ⟨.hash values, expires⟩)
    (hnumbered : Numbered session n) (hfield : (f, v) ∈ RedisSessionRepository.fields session) :
    Holds session.sessionId ⟨.hash (setField f v values), expires⟩ := by
  obtain ⟨old, m, _, hid, hold, hvalue, hsub⟩ := h
  obtain rfl := RedisValue.hash.inj hvalue
  obtain ⟨haccount, hplayer, -⟩ :=
    RedisSessionRepository.sessionIdText_inj ((hold.symm.trans hid).trans hnumbered)
  have hnodup : ∀ s : Session, ((RedisSessionRepository.fields s).map Prod.fst).Nodup := by
    simp [RedisSessionRepository.fields]
  by_cases hcreated : f = "created_at_epoch_seconds"
  · -- the time is new, account and player are the same
    refine ⟨session, n, _, rfl, hnumbered, rfl, fun g w hw => ?_⟩
    rw [fieldOf, lookup_setField] at hw
    split at hw
    · rename_i hg
      rw [hg, ← Option.some.inj hw]
      exact fieldOf_of_mem (hnodup session) hfield
    · rename_i hg
      have hgw := hsub g w hw
      simp only [RedisSessionRepository.fields, fieldOf, List.lookup_cons,
        beq_eq_false_iff_ne.mpr (hcreated ▸ hg), haccount, hplayer] at hgw ⊢
      exact hgw
  · refine ⟨old, m, _, hid, hold, rfl, hsub.setField (fieldOf_of_mem (hnodup old) ?_)⟩
    simp only [RedisSessionRepository.fields, List.mem_cons, Prod.mk.injEq, hcreated, false_and,
      List.not_mem_nil, or_false, haccount, hplayer] at hfield ⊢
    exact hfield

/-- One field of the new session is written. -/
theorem Signing.hset (h : Signing Valid d logins session) {n : UInt64}
    (hnumbered : Numbered session n) {f v : String}
    (hfield : (f, v) ∈ RedisSessionRepository.fields session) :
    (d.execute (.hset (.session session.sessionId) f v)).1 = true ∧
      Signing Valid (d.execute (.hset (.session session.sessionId) f v)).2 logins session := by
  obtain ⟨fields, expires, hexec, hbefore⟩ := Redis.execute_hset (f := f) (v := v)
    fun e he => by
      obtain ⟨-, -, values, -, -, hvalue, -⟩ := h.holds session.sessionId e he
      exact ⟨values, hvalue⟩
  rw [hexec]
  refine ⟨rfl, h.put (Holds.setField ?_ hnumbered hfield)⟩
  rcases hbefore with ⟨-, rfl, -⟩ | hbefore
  · exact ⟨session, n, [], rfl, hnumbered, rfl, .nil _⟩
  · exact h.holds _ _ hbefore

/-- The lifetime of the new session is set. -/
theorem Signing.expire (h : Signing Valid d logins session) :
    Signing Valid (d.execute (.expire (.session session.sessionId) env.sessionTtl.toNat)).2 logins
        session ∧
      Timed env (d.execute (.expire (.session session.sessionId) env.sessionTtl.toNat)).2
        session := by
  simp only [Redis.execute]
  split
  · rename_i hnone
    refine ⟨h, fun e he => ?_⟩
    rw [hnone] at he
    cases he
  · rename_i e hlive
    refine ⟨h.put (h.holds session.sessionId e hlive), fun e' he' _ => ?_⟩
    have hentry := Redis.entries_of_live he'
    rw [Redis.entries_put_self] at hentry
    obtain rfl := Option.some.inj hentry
    exact ⟨_, rfl, le_rfl⟩

theorem latestSession_self : latestSession (session :: logins) session.accountId =
    some session.sessionId := by
  simp [latestSession]

theorem latestSession_ne {b : ℤ} (h : session.accountId ≠ b) :
    latestSession (session :: logins) b = latestSession logins b := by
  simp [latestSession, h]

/-- The entry that a login stores for its account. -/
def accountEntry (env : Env) (d : Redis) (session : Session) : RedisEntry :=
  ⟨.string session.sessionId, (if 0 < env.sessionTtl then some env.sessionTtl.toNat else none).map
    fun ttl => d.now + 1000 * ttl⟩

theorem live_accountEntry : (d.put (.accountSession session.accountId)
    (some (accountEntry env d session))).live (.accountSession session.accountId) =
      some (accountEntry env d session) := by
  refine Redis.live_put_self fun t ht => ?_
  simp only [accountEntry] at ht
  split at ht
  · rename_i hpos
    obtain rfl := Option.some.inj ht
    have := Int.lt_toNat.mpr hpos
    change d.now < d.now + 1000 * env.sessionTtl.toNat
    omega
  · cases ht

/-- The key of the account is set, and the login is over. -/
theorem Signing.set (h : Signing Valid d logins session) (htimed : Timed env d session)
    {n : UInt64} (hnumbered : Numbered session n) :
    Current Valid (d.put (.accountSession session.accountId) (some (accountEntry env d session)))
      (session :: logins) := by
  refine ⟨fun sessionId e he => ?_, fun sessionId e he hvalid => ?_,
    List.forall_mem_cons.mpr ⟨⟨n, hnumbered⟩, h.texts⟩⟩
  · rw [Redis.live_put_ne (by simp)] at he
    exact h.holds sessionId e he
  rw [Redis.live_put_ne (by simp)] at he
  by_cases hne : sessionId = session.sessionId
  · subst hne
    refine ⟨session.accountId, hnumbered.sessionOf,
      ⟨_, live_accountEntry, rfl, fun t' ht' => ?_⟩, latestSession_self⟩
    simp only [accountEntry] at ht'
    split at ht'
    · rename_i hpos
      obtain rfl := Option.some.inj ht'
      exact htimed e he hpos
    · cases ht'
  · obtain ⟨b, hb, hlatest⟩ := h.others sessionId e he hvalid hne
    have hkey : RedisKey.accountSession b ≠ .accountSession session.accountId := by simpa using hb
    have hlatest' := hlatest.congr
      (Redis.live_put_ne (d := d) (e := some (accountEntry env d session)) hkey)
    exact ⟨b, { hlatest' with latest := (latestSession_ne hb.symm).trans hlatest.latest }⟩

/-! ## A login -/

/-- The session that a command helps to make. -/
def Cmd.makes : Cmd → Option String
  | .redis (.hset (.session sessionId) _ _) => some sessionId
  | .redis (.expire (.session sessionId) _) => some sessionId
  | .redis (.set (.accountSession _) sessionId _) => some sessionId
  | _ => none

/-- In front of the command a session is valid that the key of its account does not point
to yet. -/
def Cmd.Unpointed (Valid : String → RedisEntry → Prop) (c : Cmd) (d : Redis) : Prop :=
  ∃ sessionId ∈ c.makes, ∃ e, d.live (.session sessionId) = some e ∧ Valid sessionId e

/-- What a login says in front of a command. -/
def Meanwhile (Valid : String → RedisEntry → Prop) (logins : List Session) (c : Cmd)
    (s : Store ι) : Prop := ¬c.Unpointed Valid s.redis → Current Valid s.redis logins

/-- Run from `s` with any delays, the routine comes to an end with a result and a Redis in
`Q`, draws no number, and keeps the sessions `logins` current in front of every command. -/
abbrev Leads {α : Type} (Valid : String → RedisEntry → Prop) (logins : List Session) (i : ι)
    (Q : α → Redis → Prop) (m : Program α) (s : Store ι) : Prop :=
  m.Secures (fun s ms c => s.later i ms c) (Meanwhile Valid logins)
    (fun a s' => Q a s'.redis ∧ s'.sequence = s.sequence) s

section Login

variable {i : ι} {s : Store ι}

theorem Leads.bind {α β : Type} {P : α → Redis → Prop} {Q : β → Redis → Prop} {m : Program α}
    {f : α → Program β} (hm : Leads Valid logins i P m s)
    (hf : ∀ a s', P a s'.redis → Leads Valid logins i Q (f a) s') :
    Leads Valid logins i Q (m >>= f) s :=
  Prog.Secures.bind hm fun a s' h =>
    (hf a s' h.1).mono fun _ _ h' => ⟨h'.1, h'.2.trans h.2⟩

theorem leads_redis (c : RedisCmd) {Q : c.Reply → Redis → Prop}
    (hmeanwhile : Meanwhile Valid logins (.redis c) s)
    (h : ∀ ms, Q ((s.redis.tick ms).execute c).1 ((s.redis.tick ms).execute c).2) :
    Leads Valid logins i Q (redis c) s :=
  ⟨hmeanwhile, fun ms => ⟨_, _, rfl, h ms, rfl⟩⟩

omit [DecidableEq ι] in
/-- The new session is being written. -/
theorem Signing.meanwhile {session : Session} (h : Signing Valid s.redis logins session) {c : Cmd}
    (hc : c.makes = some session.sessionId) : Meanwhile Valid logins c s :=
  fun hunpointed => h.current fun e he hvalid => hunpointed ⟨_, hc, e, he, hvalid⟩

/-- The `HSET` loop writes every field of the new session. -/
theorem leads_hSetFields {session : Session} {n : UInt64} (hnumbered : Numbered session n) :
    ∀ {values : List (String × String)} {s : Store ι},
      (∀ f v, (f, v) ∈ values → (f, v) ∈ RedisSessionRepository.fields session) →
      Signing Valid s.redis logins session →
      Leads Valid logins i (fun ok d => ok = true ∧ Signing Valid d logins session)
        (RedisClient.hSetFields (.session session.sessionId) values) s
  | [], s, _, h => ⟨⟨rfl, h⟩, rfl⟩
  | (f, v) :: rest, s, hfields, h => by
    refine Leads.bind (P := fun ok d => ok = true ∧ Signing Valid d logins session)
      (leads_redis (.hset _ f v) (h.meanwhile rfl)
        fun ms => (h.tick ms).hset hnumbered (hfields f v List.mem_cons_self)) ?_
    rintro ok s' ⟨rfl, h'⟩
    exact leads_hSetFields hnumbered
      (fun f' v' hmem => hfields f' v' (List.mem_cons_of_mem _ hmem)) h'

theorem leads_hSet {session : Session} {n : UInt64} (hnumbered : Numbered session n)
    (h : Signing Valid s.redis logins session) :
    Leads Valid logins i (fun _ d => Signing Valid d logins session ∧ Timed env d session)
      (RedisClient.hSet env (.session session.sessionId) (RedisSessionRepository.fields session)
        env.sessionTtl) s := by
  refine Leads.bind (leads_hSetFields hnumbered (fun f v hmem =>
    (env.fieldOrder_perm _).mem_iff.mp hmem) h) ?_
  rintro ok s' ⟨rfl, h'⟩
  rw [if_pos rfl]
  split
  · exact leads_redis (.expire _ _)
      (Q := fun _ d => Signing Valid d logins session ∧ Timed env d session) (h'.meanwhile rfl)
      fun ms => (h'.tick ms).expire
  · rename_i hneg
    exact ⟨⟨h', fun e he hpos => absurd hpos hneg⟩, rfl⟩

/-- The session is a new one of this account and player, with the number `n`. -/
structure MadeFor (accountId playerId : ℤ) (n : UInt64) (session : Session) : Prop where
  accountId : session.accountId = accountId
  playerId : session.playerId = playerId
  numbered : Numbered session n

/-- Writing the new session once the old one is gone. -/
theorem leads_store {session : Session} {playerId : ℤ} {n : UInt64}
    (hmade : MadeFor a playerId n session) (h : Current Valid s.redis logins)
    (hcleared : Cleared Valid s.redis a) :
    Leads Valid logins i
      (fun result d => MadeFor a playerId n result ∧ Current Valid d (result :: logins)) (do
        let _ ← RedisClient.hSet env (.session session.sessionId)
          (RedisSessionRepository.fields session) env.sessionTtl
        let _ ← RedisClient.set (.accountSession a) session.sessionId env.sessionTtl
        return session) s := by
  obtain rfl := hmade.accountId
  refine Leads.bind (leads_hSet hmade.numbered (h.signing hcleared)) ?_
  rintro ok s' ⟨hsigning, htimed⟩
  refine Leads.bind (P := fun _ d => Current Valid d (session :: logins))
    (leads_redis (.set _ _ _) (hsigning.meanwhile rfl)
      fun ms => (hsigning.tick ms).set (htimed.tick ms) hmade.numbered) ?_
  exact fun _ s'' h'' => ⟨⟨hmade, h''⟩, rfl⟩

/-- What a login learns from the key of its account: the only session the account
can have. -/
theorem leads_get (h : Current Valid s.redis logins) :
    Leads Valid logins i (fun old d => Current Valid d logins ∧
        ∀ sessionId e, d.live (.session sessionId) = some e → Valid sessionId e →
          SessionOf a sessionId → old = some sessionId)
      (RedisClient.get (.accountSession a)) s := by
  refine Leads.bind (P := fun r d => Current Valid d logins ∧
    ∀ sessionId e, d.live (.session sessionId) = some e → Valid sessionId e →
      SessionOf a sessionId → r = some (some sessionId))
    (leads_redis (.get _) (fun _ => h) fun ms => ?_) ?_
  · rw [Redis.execute_reads rfl]
    exact ⟨h.tick ms, fun sessionId e he hvalid hof => (h.tick ms).asked he hvalid hof⟩
  · rintro (_ | old) s' ⟨h', hold⟩
    · exact ⟨⟨h', fun sessionId e he hvalid hof => nomatch hold sessionId e he hvalid hof⟩, rfl⟩
    · exact ⟨⟨h', fun sessionId e he hvalid hof =>
        Option.some.inj (hold sessionId e he hvalid hof)⟩, rfl⟩

/-- `Create`: the new session is the only one of its account, with the number that the
counter shows. -/
theorem leads_create {accountId playerId : ℤ} (h : Current Valid s.redis logins) :
    (RedisSessionRepository.create env accountId playerId).Secures
      (fun s ms c => s.later i ms c) (Meanwhile Valid logins)
      (fun session s' => MadeFor accountId playerId (s.sequence i) session ∧
        Current Valid s'.redis (session :: logins) ∧
        s'.sequence = Function.update s.sequence i (s.sequence i + 1)) s := by
  refine Prog.Secures.bind
    (Q := fun _ (s' : Store ι) => Current Valid s'.redis logins ∧ s'.sequence = s.sequence)
    ⟨fun _ => h, fun ms => ⟨_, _, rfl, h.tick ms, rfl⟩⟩ ?_
  rintro createdAt s₁ ⟨h, hsequence⟩
  refine Prog.Secures.bind
    (Q := fun n (s' : Store ι) => Current Valid s'.redis logins ∧ n = s.sequence i ∧
      s'.sequence = Function.update s.sequence i (s.sequence i + 1))
    ⟨fun _ => h, fun ms => ⟨_, _, rfl, h.tick ms, congrFun hsequence i,
      congrArg (fun f => Function.update f i (f i + 1)) hsequence⟩⟩ ?_
  rintro _ s₂ ⟨h, rfl, hdrawn⟩
  have hmade : MadeFor accountId playerId (s.sequence i)
      ⟨RedisSessionRepository.sessionIdText accountId playerId (s.sequence i), accountId, playerId,
        createdAt⟩ := ⟨rfl, rfl, rfl⟩
  refine Prog.Secures.mono (Q := fun session (s' : Store ι) =>
    (MadeFor accountId playerId (s.sequence i) session ∧
      Current Valid s'.redis (session :: logins)) ∧ s'.sequence = s₂.sequence)
    (fun session s' h' => ⟨h'.1.1, h'.1.2, h'.2.trans hdrawn⟩) ?_
  refine Leads.bind (Q := fun session d => MadeFor accountId playerId (s.sequence i) session ∧
    Current Valid d (session :: logins)) (leads_get (a := accountId) h) ?_
  rintro old s₃ ⟨h, hold⟩
  cases old with
  | none =>
    exact leads_store hmade h fun sessionId e he hvalid hof =>
      nomatch hold sessionId e he hvalid hof
  | some old =>
    refine Leads.bind (P := fun _ d => Current Valid d logins ∧ Cleared Valid d accountId)
      (leads_redis (.del _) (fun _ => h)
        fun ms => ⟨(h.tick ms).delete old, cleared_delete ?_⟩) ?_
    · exact fun sessionId e he hvalid hof =>
        Option.some.inj (hold sessionId e (Redis.live_of_tick he) hvalid hof)
    · exact fun _ s' h' => leads_store hmade h'.1 h'.2

/-- A login that is over has made a session with the number that the counter showed, or none
and has drawn no number. -/
structure LoggedIn (Valid : String → RedisEntry → Prop) (logins : List Session) (s : Store ι)
    (i : ι) (made : Option Session) (s' : Store ι) : Prop where
  current : Current Valid s'.redis (made.toList ++ logins)
  numbered : ∀ session ∈ made, Numbered session (s.sequence i)
  sequence : s'.sequence =
    if made.isSome then Function.update s.sequence i (s.sequence i + 1) else s.sequence

theorem leads_login (request : LoginRequest) (h : Current Valid s.redis logins) :
    (serve env (.login request)).Secures (fun s ms c => s.later i ms c) (Meanwhile Valid logins)
      (fun response s' => LoggedIn Valid logins s i response.session s') s := by
  refine Prog.Secures.bind (Q := fun (response : LoginResponse) s' =>
    LoggedIn Valid logins s i (Response.login response).session s') ?_ fun _ _ h' => h'
  refine Prog.Secures.bind (Q := fun _ (s' : Store ι) =>
    Current Valid s'.redis logins ∧ s'.sequence = s.sequence)
    (Prog.Secures.bind (Q := fun _ (s' : Store ι) =>
        Current Valid s'.redis logins ∧ s'.sequence = s.sequence)
      (Prog.Secures.bind (Q := fun _ (s' : Store ι) =>
          Current Valid s'.redis logins ∧ s'.sequence = s.sequence)
        ⟨fun _ => h, fun ms => ⟨_, _, rfl, h.tick ms, rfl⟩⟩ ?_) fun _ _ h' => h') ?_
  · rintro (_ | rows) s' h'
    · exact h'
    · exact h'
  have hnone : ∀ {s' : Store ι}, Current Valid s'.redis logins → s'.sequence = s.sequence →
      LoggedIn Valid logins s i none s' := fun h' hsequence => ⟨h', nofun, hsequence⟩
  rintro (_ | account) s' ⟨h', hsequence⟩
  · exact hnone h' hsequence
  · dsimp only
    split
    · exact hnone h' hsequence
    split
    · exact hnone h' hsequence
    refine Prog.Secures.bind (leads_create h') fun session s'' ⟨hmade, hcurrent, hdrawn⟩ => ?_
    refine ⟨hcurrent, fun session' hsession => ?_, by rw [hdrawn, hsequence]; rfl⟩
    obtain rfl := Option.some.inj hsession
    exact hsequence ▸ hmade.numbered

end Login

/-! ## Other requests -/

/-- Outside of logins no command writes a key of the login server. -/
theorem Advance.leavesLogin {cfg : DungeonConfig} {φ ψ : Phase} {c : Cmd} {r : c.Reply}
    (h : Advance cfg φ c r ψ) (hψ : ψ ≠ .signing) :
    φ ≠ .signing ∧ ∀ d, c = .redis d → d.reads = true ∨ d.key.ofLogin = false := by
  cases h with
  | pass harmless signs =>
    refine ⟨hψ, fun d hd => ?_⟩
    subst hd
    cases d with
    | get k | hgetall k => exact .inl rfl
    | set k v ttl => cases k <;> first | exact absurd (signs rfl) hψ | cases harmless
    | hset k f v => cases k <;> first | exact absurd (signs rfl) hψ | cases harmless
    | expire k ttl => cases k <;> first | exact absurd (signs rfl) hψ | cases harmless
    | del k => cases k <;> first | exact absurd (signs rfl) hψ | cases harmless
    | setNx k v ttl => cases harmless
  | sign => exact absurd rfl hψ
  | unlock exit =>
    refine ⟨?_, fun d hd => .inr (Cmd.redis.inj hd ▸ rfl)⟩
    rintro rfl
    cases exit
  | miss _ | hit _ | findContext _ | noContext =>
    exact ⟨by simp, fun d hd => .inl (Cmd.redis.inj hd ▸ rfl)⟩
  | fill _ | fillExpire | lock _ | busy _ | saveContext _ | expireContext | dropContext
  | invalidate => exact ⟨by simp, fun d hd => .inr (Cmd.redis.inj hd ▸ rfl)⟩
  | _ => exact ⟨by simp, fun d hd => nomatch hd⟩

section Others

variable {i : ι} {s s' : Store ι} {request : Request} {n : ℕ} {delays : ℕ → ℕ}
  {m : Program Response} {response : Response}

/-- A request that is no login writes no session, wherever it is interrupted. -/
theorem Current.others (h : Current Valid s.redis logins) (hlogin : ∀ r, request ≠ .login r)
    (hrun : (serve env request).runFor (fun s ms c => s.later i ms c) n delays s = some (m, s')) :
    Current Valid s'.redis logins := by
  refine (serve_sends env request).runFor (I := fun s : Store ι => Current Valid s.redis logins)
    (fun s ms c r s' hsends hI hperform => ?_) h hrun
  have hperformed := Store.performed_of_perform hperform
  refine (hI.tick ms).congr fun k hk => ?_
  refine Redis.live_congr (hperformed.entries_eq fun d hd => ?_) hperformed.now_eq
  subst hd
  refine (hsends.spares hlogin).imp_right fun hother hkey => ?_
  rw [← hkey, hk] at hother
  cases hother

/-- And it returns none. -/
theorem session_of_others (hlogin : ∀ r, request ≠ .login r)
    (h : (serve env request).Returns (fun _ _ => True) response) : response.session = none := by
  cases request with
  | login request => exact absurd rfl (hlogin request)
  | loadPlayer request =>
    obtain ⟨_, -, rfl⟩ := Prog.returns_bind.mp h
    rfl
  | enterDungeon request =>
    obtain ⟨_, -, rfl⟩ := Prog.returns_bind.mp h
    rfl
  | settleDungeon request =>
    obtain ⟨_, -, rfl⟩ := Prog.returns_bind.mp h
    rfl
  | restoreBinding sessionId playerId =>
    obtain ⟨_, -, rfl⟩ := Prog.returns_bind.mp h
    rfl

/-- A request that is over has added the session it returns. -/
theorem Current.respond (h : Current Valid s.redis logins)
    (hrun : (serve env request).run (fun s ms c => s.later i ms c) delays s = some (response, s')) :
    Current Valid s'.redis (response.session.toList ++ logins) := by
  obtain ⟨n, hrun⟩ := Prog.runFor_of_run hrun
  by_cases hlogin : ∃ r, request = .login r
  · obtain ⟨request, rfl⟩ := hlogin
    exact ((leads_login request h).runFor hrun).current
  · have hother : ∀ r, request ≠ .login r := fun r hr => hlogin ⟨r, hr⟩
    rw [session_of_others hother (Prog.returns_of_runFor hrun)]
    exact h.others hother hrun

end Others

/-- Every visit keeps the invariant. -/
theorem Current.step {o o' : Office ι} {visit : Visit ι}
    (h : Current Valid o.store.redis o.logins) (hok : o.KeepsSessions visit)
    (hs : o.step env visit = some o') : Current Valid o'.store.redis o'.logins := by
  cases visit with
  | serve i request delays faults =>
    obtain ⟨⟨response, s'⟩, hrun, rfl⟩ := Option.map_eq_some_iff.mp hs
    rw [Store.respond_faultless hok] at hrun
    exact h.respond hrun
  | tick ms =>
    obtain rfl := Option.some.inj hs
    exact h.tick ms
  | restart i =>
    obtain rfl := Option.some.inj hs
    exact h
  | evict k =>
    obtain rfl := Option.some.inj hs
    exact h.evict hok

/-! ## Old sessions -/

section Revoked

variable {i : ι} {s s' : Store ι} {sessionId : String}

/-- A session that is found is decoded from a hash that is present. -/
theorem live_of_findById {delays : ℕ → ℕ} {session : Session}
    (hrun : (RedisSessionRepository.findById sessionId).run (fun s ms c => s.later i ms c)
      delays s = some (some session, s')) :
    ∃ ms values expires,
      (s.redis.tick ms).live (.session sessionId) = some ⟨.hash values, expires⟩ ∧
      RedisSessionRepository.decode sessionId values = some session := by
  obtain ⟨⟨r, t⟩, hs, hrest⟩ := Option.bind_eq_some_iff.mp hrun
  have hread : (s.redis.tick (delays 0)).hash? (.session sessionId) = r :=
    congrArg Prod.fst (Option.some.inj hs)
  rcases r with _ | _ | ⟨field, values⟩
  · cases hrest
  · cases hrest
  · rcases hlive : (s.redis.tick (delays 0)).live (.session sessionId) with
      _ | ⟨_ | fields, expires⟩
    · simp [Redis.hash?, hlive] at hread
    · simp [Redis.hash?, hlive] at hread
    · simp only [Redis.hash?, hlive, Option.some.injEq] at hread
      refine ⟨_, _, _, hlive, ?_⟩
      subst hread
      change Prog.run _ (orThrow (RedisSessionRepository.decode sessionId (field :: values)) >>=
        fun found => Prog.ret (some found)) _ t = _ at hrest
      rcases hdecode : RedisSessionRepository.decode sessionId (field :: values) with _ | found
      · rw [hdecode] at hrest
        cases hrest
      · rw [hdecode] at hrest
        rw [Option.some.inj (Prod.mk.inj (Option.some.inj hrest)).1]

/-- A session that is accepted is the latest one of its account. -/
theorem Current.accepted (h : Current Valid s.redis logins)
    (hvalid : ∀ values expires session, RedisSessionRepository.decode sessionId values =
      some session → Valid sessionId ⟨.hash values, expires⟩)
    {delays : ℕ → ℕ} {session : Session}
    (hrun : (RedisSessionRepository.findById sessionId).run (fun s ms c => s.later i ms c)
      delays s = some (some session, s')) :
    SessionOf session.accountId sessionId ∧
      latestSession logins session.accountId = some sessionId := by
  obtain ⟨ms, values, expires, hlive, hdecode⟩ := live_of_findById hrun
  obtain ⟨stored, n, _, rfl, hnumbered, hvalue, hsub⟩ := (h.tick ms).holds sessionId _ hlive
  obtain ⟨a, hlatest⟩ := (h.tick ms).live _ _ hlive (hvalid _ _ _ hdecode)
  obtain rfl := RedisValue.hash.inj hvalue
  rw [RedisSessionRepository.decode_of_subHash hsub hdecode]
  obtain rfl := hnumbered.sessionOf.unique hlatest.text
  exact ⟨hlatest.text, hlatest.latest⟩

/-- Run from `s` with any delays, the routine refuses and changes nothing of
importance. -/
abbrev Refuses (i : ι) (m : Program Response) (s : Store ι) : Prop :=
  m.Ensures (fun s ms c => s.later i ms c)
    (fun response s' => response.success = false ∧ s.Unchanged s') s

/-- A session that is not present is not found. -/
theorem findById_dead (hdead : s.redis.live (.session sessionId) = none) :
    (RedisSessionRepository.findById sessionId).Ensures (fun s ms c => s.later i ms c)
      (fun found s' => found = none ∧ s.Unchanged s') s := by
  intro ms
  refine ⟨_, _, rfl, ?_⟩
  have hlater : (s.redis.tick ms).live (.session sessionId) = none :=
    Option.eq_none_iff_forall_ne_some.mpr fun e he =>
      nomatch hdead.symm.trans (Redis.live_of_tick he)
  have hhash : (s.redis.tick ms).hash? (.session sessionId) = some [] := by
    simp only [Redis.hash?, hlater]
  simp only [Store.tick, Redis.execute, hhash]
  exact ⟨rfl, rfl, fun _ => rfl, fun _ => rfl⟩

/-- A request with such a session is refused. -/
theorem refuses_dead {request : Request} (hid : request.sessionId = some sessionId)
    (hdead : s.redis.live (.session sessionId) = none) :
    Refuses i (serve env request) s := by
  cases request with
  | login request => cases hid
  | loadPlayer request =>
    obtain rfl := Option.some.inj hid
    refine Prog.Ensures.bind (P := fun (response : LoadPlayerResponse) s' =>
      response.success = false ∧ s.Unchanged s')
      (Prog.Ensures.bind (findById_dead hdead) ?_) fun _ _ h => h
    rintro found s' ⟨rfl, h⟩
    exact ⟨rfl, h⟩
  | enterDungeon request =>
    obtain rfl := Option.some.inj hid
    refine Prog.Ensures.bind (P := fun (response : EnterDungeonResponse) s' =>
      response.success = false ∧ s.Unchanged s')
      (Prog.Ensures.bind (findById_dead hdead) ?_) fun _ _ h => h
    rintro found s' ⟨rfl, h⟩
    exact ⟨rfl, h⟩
  | settleDungeon request =>
    obtain rfl := Option.some.inj hid
    refine Prog.Ensures.bind (P := fun (response : SettleDungeonResponse) s' =>
      response.success = false ∧ s.Unchanged s') ?_ fun _ _ h => h
    unfold DungeonService.settleDungeon
    split
    · exact ⟨rfl, rfl, fun _ => rfl, fun _ => rfl⟩
    · refine Prog.Ensures.bind (findById_dead hdead) ?_
      rintro found s' ⟨rfl, h⟩
      exact ⟨rfl, h⟩
  | restoreBinding sessionId playerId =>
    -- Redis is not even asked for an empty session id
    obtain rfl := Option.some.inj hid
    refine Prog.Ensures.bind (P := fun binding s' => binding = none ∧ s.Unchanged s') ?_ ?_
    · unfold SessionBindingAuthorizer.restoreBindingFromSession
      split
      · exact ⟨rfl, rfl, fun _ => rfl, fun _ => rfl⟩
      · refine Prog.Ensures.bind (findById_dead hdead) ?_
        rintro found s' ⟨rfl, h⟩
        exact ⟨rfl, h⟩
    · rintro binding s' ⟨rfl, h⟩
      exact ⟨rfl, h⟩

end Revoked

/-! ## Every run -/

/-- No session is present before the first login. -/
theorem Current.init (hsessions : ∀ sessionId, d.live (.session sessionId) = none) :
    Current Valid d [] where
  holds sessionId _ he := nomatch (hsessions sessionId).symm.trans he
  live sessionId _ he := nomatch (hsessions sessionId).symm.trans he
  texts _ hmem := nomatch hmem

/-- **One live session an account.** Between requests, `FindById` accepts no other
session of an account than the one its latest login has returned; and a request
with an older one is refused and changes neither a table nor a battle context nor
a snapshot. -/
theorem single_live_session {o₀ o : Office ι}
    (hsessions : ∀ sessionId, o₀.store.redis.live (.session sessionId) = none)
    (hlogins : o₀.logins = []) (hrun : Reach (Office.step env) Office.KeepsSessions o₀ o) :
    (∀ i sessionId delays session s',
      (RedisSessionRepository.findById sessionId).run (fun s ms c => s.later i ms c) delays
        o.store = some (some session, s') →
      latestSession o.logins session.accountId = some sessionId) ∧
    ∀ old ∈ o.logins, latestSession o.logins old.accountId ≠ some old.sessionId →
      ∀ i request delays, request.sessionId = some old.sessionId →
        ∃ response s', o.store.respond env i request delays (fun _ => none) =
            some (response, s') ∧
          response.success = false ∧ o.store.Unchanged s' := by
  -- every session that is present is valid here
  let Valid : String → RedisEntry → Prop := fun _ _ => True
  have hcurrent : Current Valid o.store.redis o.logins :=
    hrun.invariant (I := fun o => Current Valid o.store.redis o.logins)
      (hlogins ▸ .init hsessions) fun _ _ _ _ hI hok hs => hI.step hok hs
  refine ⟨fun i sessionId delays session s' hfound =>
    (hcurrent.accepted (fun _ _ _ _ => trivial) hfound).2, ?_⟩
  intro old hold hrevoked i request delays hid
  have hdead : o.store.redis.live (.session old.sessionId) = none := by
    refine Option.eq_none_iff_forall_ne_some.mpr fun e he => hrevoked ?_
    obtain ⟨a, hlatest⟩ := hcurrent.live _ e he trivial
    obtain ⟨n, hnumbered⟩ := hcurrent.texts old hold
    rw [hnumbered.sessionOf.unique hlatest.text, hlatest.latest]
  rw [Store.respond_faultless fun _ => rfl]
  exact (refuses_dead hid hdead).run delays

/-- The demo player logs in twice; the second login revokes the first session. -/
theorem single_live_session_demo :
    ∃ o : Office Bool, ∃ old ∈ o.logins, old.sessionId = "sess-10001-20001-1" ∧
      (∃ session s', (RedisSessionRepository.findById "sess-10001-20001-2").run
          (fun s ms c => s.later true ms c) (fun _ => 0) o.store = some (some session, s') ∧
        latestSession o.logins session.accountId = some "sess-10001-20001-2") ∧
      ∃ response s', o.store.respond demoEnv true
          (.enterDungeon ⟨old.sessionId, 20001, 1001⟩) (fun _ => 0) (fun _ => none) =
            some (response, s') ∧
        response.success = false ∧ o.store.Unchanged s' := by
  have hreplay : (replay (Office.step demoEnv) (fun _ _ => true) ⟨emptyWorld.store, []⟩
      [.tick 5000, .serve false (.login ⟨"demo", "demo"⟩) (fun _ => 0) fun _ => none, .tick 60000,
        .serve false (.login ⟨"demo", "demo"⟩) (fun _ => 7) fun _ => none]).any (fun o =>
          o.logins = [⟨"sess-10001-20001-2", 10001, 20001, 65⟩,
            ⟨"sess-10001-20001-1", 10001, 20001, 5⟩] ∧
          ((RedisSessionRepository.findById "sess-10001-20001-2").run
            (fun s ms c => s.later true ms c) (fun _ => 0) o.store).any
              fun found => found.1.isSome) = true := by
    decide +kernel
  obtain ⟨o, hrun, hfound⟩ := Reach.of_replay_any_mem (o := Office.KeepsSessions)
    (by simp [Office.KeepsSessions]) hreplay
  obtain ⟨hlogins, haccepts⟩ := of_decide_eq_true hfound
  obtain ⟨⟨found, s'⟩, hfind, hsome⟩ := (Option.any_eq_true _ _).mp haccepts
  obtain ⟨session, rfl⟩ := Option.isSome_iff_exists.mp hsome
  obtain ⟨honly, hrevoked⟩ := single_live_session (fun _ => rfl) rfl hrun
  have hold : (⟨"sess-10001-20001-1", 10001, 20001, 5⟩ : Session) ∈ o.logins := by
    rw [hlogins]
    decide
  refine ⟨o, _, hold, rfl, ⟨session, s', hfind, honly _ _ _ _ _ hfind⟩,
    hrevoked _ hold ?_ _ _ _ rfl⟩
  rw [hlogins]
  decide

end GameBackend
