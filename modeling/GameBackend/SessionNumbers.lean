import GameBackend.Counting
import GameBackend.Hashes
import GameBackend.Revocation

/-!
# Numbers of sessions

A session id is made of the account, the player and a number that a login server
counts up from 1. A login server that was started again counts from 1 again, and a
session that was revoked before comes back with its old number. And a login server
that stops in the middle of a login can leave a session that no later login finds:
one with all its fields, to which the key of its account does not point yet.

Here servers stop and are started again at any time, also in the middle of a request.

* `Registry` — the servers, with the starts and logins of the login servers counted
  along, and the sessions that logins have made.
* `Registry.Sound` — the invariant: `Current` for the sessions with all their fields;
  the number of a session tells at which position of a run it was made.
* `superseded_stays_revoked` — a session that a later login has superseded is never
  accepted again, if no login stops at that one place and no two logins of the same
  account and player are made at the same position of two runs.
-/

namespace GameBackend

variable {ι : Type} [DecidableEq ι] {env : Env}

/-! ## Logins that stop -/

/-- The request is a login. -/
def Request.isLogin : Request → Bool
  | .login _ => true
  | _ => false

/-- The entry has all the fields of a session. -/
def CompleteSession (sessionId : String) (e : RedisEntry) : Prop :=
  e.Complete (.session sessionId)

instance (sessionId : String) (e : RedisEntry) : Decidable (CompleteSession sessionId e) :=
  inferInstanceAs (Decidable (e.Complete _))

instance (c : Cmd) (d : Redis) : Decidable (c.Unpointed CompleteSession d) :=
  decidable_of_iff (c.makes.any fun sessionId => (d.live (.session sessionId)).any fun e =>
    CompleteSession sessionId e) (by simp [Cmd.Unpointed, Option.any_eq_true])

/-- The session that the rest of a login returns if every command succeeds, if it has begun
to write it. -/
def makes : Program Response → Option Session
  | .ret response => response.session
  | .call (.redis (.hset (.session _) _ _)) k => makes (k true)
  | .call (.redis (.expire (.session _) _)) k => makes (k true)
  | .call (.redis (.set (.accountSession _) _ _)) k => makes (k true)
  | _ => none

/-- The session that a login has made where it stops, and whether it has come to its end. A
session that lacks a field is none. -/
def madeBy (rest : Program Response) (d : Redis) : Option (Session × Bool) :=
  match rest with
  | .ret response => response.session.map fun session => (session, true)
  | .throw => none
  | .call c k =>
    if c.Unpointed CompleteSession d then (makes (.call c k)).map fun session => (session, false)
    else none

/-- A session is there with all its fields, and the rest of the login has still to set the
key of its account. -/
def Astray (rest : Program Response) (d : Redis) : Prop :=
  ∃ c k, rest = .call c k ∧ c.Unpointed CompleteSession d

instance (rest : Program Response) (d : Redis) : Decidable (Astray rest d) :=
  match rest with
  | .ret _ => isFalse nofun
  | .throw => isFalse nofun
  | .call c k => decidable_of_iff (c.Unpointed CompleteSession d)
    ⟨fun h => ⟨c, k, rfl, h⟩, fun ⟨_, _, hrest, h⟩ => by cases hrest; exact h⟩

namespace Store

/-- Process `i` begins to process a request: the first `n` commands. -/
def begin (env : Env) (s : Store ι) (i : ι) (request : Request) (delays : ℕ → ℕ)
    (faults : ℕ → Option String) (n : ℕ) : Option (Program Response × Store ι) :=
  (GameBackend.serve env request).runFor (fun s x c => (s.tick x.1).perform i x.2 c) n
    (fun n => (delays n, faults n)) s

theorem begin_faultless {s : Store ι} {i : ι} {request : Request} {delays : ℕ → ℕ}
    {faults : ℕ → Option String} {n : ℕ} (hfaults : ∀ n, faults n = none) :
    s.begin env i request delays faults n =
      (GameBackend.serve env request).runFor (fun s ms c => s.later i ms c) n delays s := by
  obtain rfl : faults = fun _ => none := funext hfaults
  exact Prog.runFor_comp (fun ms => (ms, none)) n (GameBackend.serve env request) delays s

end Store

/-! ## The machine -/

/-- A session that a login has made. -/
structure Issue (ι : Type) where
  session : Session
  place : Place ι
  /-- else the login stopped before it set the key of the account -/
  finished : Bool
  deriving DecidableEq, Repr

/-- The servers, with the starts and logins of the login servers counted and the sessions
that were made, newest first. -/
structure Registry (ι : Type) where
  store : Store ι
  tally : Tally ι := {}
  issued : List (Issue ι) := []

/-- What happens to it. -/
inductive Incident (ι : Type) where
  | serve (i : ι) (request : Request) (delays : ℕ → ℕ) (faults : ℕ → Option String)
  /-- the process stops after `n` commands of a request, and is started again -/
  | stop (i : ι) (request : Request) (delays : ℕ → ℕ) (faults : ℕ → Option String) (n : ℕ)
  | tick (ms : ℕ)
  | restart (i : ι)
  | evict (k : RedisKey)

namespace Registry

/-- Process `i` has made a session, or none. -/
def issue (r : Registry ι) (i : ι) (made : Option (Session × Bool)) : List (Issue ι) :=
  (made.map fun m => ⟨m.1, r.tally.place i, m.2⟩).toList ++ r.issued

/-- One incident. The login servers serve logins and nothing else. -/
def step (env : Env) (isLoginServer : ι → Bool) (r : Registry ι) :
    Incident ι → Option (Registry ι)
  | .serve i request delays faults =>
    if isLoginServer i = request.isLogin then
      (r.store.respond env i request delays faults).map fun result =>
        { store := result.2
          tally := if result.1.session.isSome then r.tally.call i else r.tally
          issued := r.issue i (result.1.session.map fun session => (session, true)) }
    else none
  | .stop i request delays faults n =>
    if isLoginServer i = request.isLogin then
      (r.store.begin env i request delays faults n).map fun left =>
        { store := left.2.crash i
          tally := r.tally.restart i
          issued := r.issue i (madeBy left.1 left.2.redis) }
    else none
  | .tick ms => some { r with store := r.store.tick ms }
  | .restart i => some { r with store := r.store.crash i, tally := r.tally.restart i }
  | .evict k => some { r with store := r.store.evict k }

/-- The logins that have made sessions: account, player and place. -/
def calls (r : Registry ι) : List ((ℤ × ℤ) × Place ι) :=
  r.issued.map fun issue => ((issue.session.accountId, issue.session.playerId), issue.place)

/-- A later login of its account has superseded the session id. -/
def Superseded (r : Registry ι) (sessionId : String) : Prop :=
  ∃ later old earlier, r.issued = later ++ old :: earlier ∧ old.session.sessionId = sessionId ∧
    ∃ new ∈ later, new.finished = true ∧ new.session.accountId = old.session.accountId

/-- `FindById` accepts no session id that was superseded. -/
def NeverAgain (r : Registry ι) : Prop :=
  ∀ sessionId, r.Superseded sessionId → ∀ i delays session s',
    (RedisSessionRepository.findById sessionId).run (fun s ms c => s.later i ms c) delays
      r.store ≠ some (some session, s')

/-- No command fails, and keys of the login server are present until their time is up. -/
def KeepsSessions (_ : Registry ι) : Incident ι → Prop
  | .serve _ _ _ faults => ∀ n, faults n = none
  | .stop _ _ _ faults _ => ∀ n, faults n = none
  | .evict k => k.ofLogin = false
  | _ => True

/-- And no login stops while its session goes astray. -/
def Keeps (env : Env) (r : Registry ι) (incident : Incident ι) : Prop :=
  r.KeepsSessions incident ∧ ∀ i request delays faults n rest store,
    incident = .stop i request delays faults n →
    r.store.begin env i request delays faults n = some (rest, store) → ¬Astray rest store.redis

/-! ## The invariant -/

/-- The sessions with all their fields are current, and the numbers of sessions tell where
they were made. -/
structure Sound (isLoginServer : ι → Bool) (r : Registry ι) : Prop where
  current : Current CompleteSession r.store.redis (r.issued.map Issue.session)
  counts : r.tally.Counts (fun i => isLoginServer i = true) r.store.sequence
  recorded : r.tally.Recorded r.calls
  numbered : ∀ issue ∈ r.issued, Numbered issue.session issue.place.number

section Step

variable {isLoginServer : ι → Bool} {r r' : Registry ι} {incident : Incident ι} {i : ι}

/-- A request of process `i` draws no number from another counter. -/
theorem sequence_of_begin {s s' : Store ι} {request : Request} {delays : ℕ → ℕ} {n : ℕ}
    {rest : Program Response} {j : ι} (hj : j ≠ i)
    (hrun : (serve env request).runFor (fun s ms c => s.later i ms c) n delays s =
      some (rest, s')) : s'.sequence j = s.sequence j := by
  refine (serve_sends env request).runFor (I := fun s' : Store ι => s'.sequence j = s.sequence j)
    (fun s₁ ms c reply s₂ _ hI hperform => ?_) rfl hrun
  cases Store.performed_of_perform hperform with
  | fetchAddSequence => exact (Function.update_of_ne hj ..).trans hI
  | _ => exact hI

omit [DecidableEq ι] in
/-- A session that was made is recorded with its number. -/
theorem Sound.numbered_issue (h : r.Sound isLoginServer) {made : Option (Session × Bool)}
    (hmade : ∀ m ∈ made, Numbered m.1 (r.tally.place i).number) :
    ∀ issue ∈ r.issue i made, Numbered issue.session issue.place.number := by
  intro issue hissue
  rcases List.mem_append.mp hissue with hnew | hold
  · obtain ⟨m, hm, rfl⟩ := Option.map_eq_some_iff.mp (Option.mem_toList.mp hnew)
    exact hmade m hm
  · exact h.numbered issue hold

omit [DecidableEq ι] in
theorem sessions_issue (r : Registry ι) (i : ι) (made : Option (Session × Bool)) :
    (r.issue i made).map Issue.session =
      (made.map Prod.fst).toList ++ r.issued.map Issue.session := by
  cases made with
  | none => rfl
  | some m => rfl

/-- A login is served. -/
theorem Sound.login (h : r.Sound isLoginServer) (hi : isLoginServer i = true)
    {made : Option Session} {s' : Store ι}
    (hlogin : LoggedIn CompleteSession (r.issued.map Issue.session) r.store i made s') :
    Sound isLoginServer
      { store := s'
        tally := if made.isSome then r.tally.call i else r.tally
        issued := r.issue i (made.map fun session => (session, true)) } := by
  obtain ⟨hcurrent, hnumbered, hsequence⟩ := hlogin
  refine ⟨?_, ?_, ?_, h.numbered_issue ?_⟩
  · rw [sessions_issue, Option.map_map]
    simpa [Function.comp_def] using hcurrent
  · rw [hsequence]
    cases made with
    | none => exact h.counts
    | some session => exact h.counts.call i
  · cases made with
    | none => exact h.recorded
    | some session => exact h.recorded.call i _
  · intro m hm
    obtain ⟨session, hsession, rfl⟩ := Option.map_eq_some_iff.mp hm
    exact h.counts i hi ▸ hnumbered session hsession

/-- A process stops behind a request, or in the middle of one. -/
theorem Sound.stop (h : r.Sound isLoginServer) {s' : Store ι} {made : Option (Session × Bool)}
    (hcurrent : Current CompleteSession s'.redis
      ((made.map Prod.fst).toList ++ r.issued.map Issue.session))
    (hnumbered : ∀ m ∈ made, Numbered m.1 (r.tally.place i).number)
    (hsequence : ∀ j, j ≠ i → s'.sequence j = r.store.sequence j) :
    Sound isLoginServer
      { store := s'.crash i, tally := r.tally.restart i, issued := r.issue i made } := by
  refine ⟨by rw [sessions_issue]; exact hcurrent, ?_, ?_, h.numbered_issue hnumbered⟩
  · refine (h.counts.restart i).congr fun j _ => ?_
    by_cases hj : j = i
    · subst hj
      rw [Function.update_self]
      exact Function.update_self ..
    · have hcrash : (s'.crash i).sequence j = s'.sequence j := Function.update_of_ne hj ..
      rw [Function.update_of_ne hj]
      exact hcrash.trans (hsequence j hj)
  · cases made with
    | none => exact h.recorded.restart i
    | some m => exact h.recorded.call_restart i _

/-- A login stops, and its session is not astray. -/
theorem Sound.stop_login (h : r.Sound isLoginServer) (hi : isLoginServer i = true)
    {request : LoginRequest} {delays : ℕ → ℕ} {n : ℕ} {rest : Program Response} {s' : Store ι}
    (hrun : (serve env (.login request)).runFor (fun s ms c => s.later i ms c) n delays r.store =
      some (rest, s')) (hastray : ¬Astray rest s'.redis) :
    Sound isLoginServer { store := s'.crash i, tally := r.tally.restart i,
                          issued := r.issue i (madeBy rest s'.redis) } := by
  have hleft := (leads_login request h.current).runFor hrun
  have hsequence : ∀ j, j ≠ i → s'.sequence j = r.store.sequence j :=
    fun j hj => sequence_of_begin hj hrun
  cases rest with
  | ret response =>
    -- it has come to its end, and may have made a session
    obtain ⟨hcurrent, hnumbered, -⟩ := hleft
    refine h.stop ?_ (fun m hm => ?_) hsequence
    · rw [madeBy, Option.map_map]
      simpa [Function.comp_def] using hcurrent
    · obtain ⟨session, hsession, rfl⟩ := Option.map_eq_some_iff.mp hm
      exact h.counts i hi ▸ hnumbered session hsession
  | throw => exact hleft.elim
  | call c k =>
    have hpointed : ¬c.Unpointed CompleteSession s'.redis :=
      fun hunpointed => hastray ⟨c, k, rfl, hunpointed⟩
    rw [madeBy, if_neg hpointed]
    exact h.stop (hleft.1 hpointed) nofun hsequence

/-- A request that is no login makes no session. -/
theorem madeBy_others {s s' : Store ι} {request : Request} {delays : ℕ → ℕ} {n : ℕ}
    {rest : Program Response} (hother : ∀ login, request ≠ .login login)
    (hrun : (serve env request).runFor (fun s ms c => s.later i ms c) n delays s =
      some (rest, s')) (hastray : ¬Astray rest s'.redis) : madeBy rest s'.redis = none := by
  cases rest with
  | ret response =>
    rw [madeBy, session_of_others hother (Prog.returns_of_runFor hrun)]
    rfl
  | throw => rfl
  | call c k => exact if_neg fun hunpointed => hastray ⟨c, k, rfl, hunpointed⟩

/-- Every incident keeps the invariant. -/
theorem Sound.step (h : r.Sound isLoginServer) (hok : r.Keeps env incident)
    (hs : r.step env isLoginServer incident = some r') : r'.Sound isLoginServer := by
  cases incident with
  | serve i request delays faults =>
    obtain ⟨hrole, hs⟩ := Option.ite_none_right_eq_some.mp hs
    obtain ⟨⟨response, s'⟩, hrun, rfl⟩ := Option.map_eq_some_iff.mp hs
    rw [Store.respond_faultless hok.1] at hrun
    obtain ⟨n, hrun⟩ := Prog.runFor_of_run hrun
    by_cases hlogin : ∃ login, request = .login login
    · obtain ⟨login, rfl⟩ := hlogin
      exact h.login hrole ((leads_login login h.current).runFor hrun)
    · have hother : ∀ login, request ≠ .login login := fun login hl => hlogin ⟨login, hl⟩
      have hnotLogin : request.isLogin = false := by
        cases request with
        | login login => exact absurd rfl (hother login)
        | _ => rfl
      simp only [session_of_others hother (Prog.returns_of_runFor hrun)]
      refine ⟨h.current.others hother hrun, h.counts.congr fun j hj => ?_, h.recorded, h.numbered⟩
      refine sequence_of_begin (i := i) ?_ hrun
      rintro rfl
      exact Bool.false_ne_true ((hrole.trans hnotLogin).symm.trans hj)
  | stop i request delays faults n =>
    obtain ⟨hrole, hs⟩ := Option.ite_none_right_eq_some.mp hs
    obtain ⟨⟨rest, s'⟩, hrun, rfl⟩ := Option.map_eq_some_iff.mp hs
    have hastray := hok.2 i request delays faults n rest s' rfl hrun
    rw [Store.begin_faultless hok.1] at hrun
    by_cases hlogin : ∃ login, request = .login login
    · obtain ⟨login, rfl⟩ := hlogin
      exact h.stop_login hrole hrun hastray
    · have hother : ∀ login, request ≠ .login login := fun login hl => hlogin ⟨login, hl⟩
      rw [madeBy_others hother hrun hastray]
      exact h.stop (h.current.others hother hrun) nofun fun j hj => sequence_of_begin hj hrun
  | tick ms =>
    obtain rfl := Option.some.inj hs
    exact ⟨h.current.tick ms, h.counts, h.recorded, h.numbered⟩
  | restart i =>
    obtain rfl := Option.some.inj hs
    have hissued : r.issue i none = r.issued := rfl
    exact hissued ▸ h.stop h.current nofun fun _ _ => rfl
  | evict k =>
    obtain rfl := Option.some.inj hs
    exact ⟨h.current.evict hok.1, h.counts, h.recorded, h.numbered⟩

end Step

/-! ## Every run -/

omit [DecidableEq ι] in
/-- No session is there before the first login, and the login servers have just been
started. -/
theorem Sound.init {isLoginServer : ι → Bool} {s₀ : Store ι}
    (hsessions : ∀ sessionId, s₀.redis.live (.session sessionId) = none)
    (hstarted : ∀ i, isLoginServer i = true → s₀.sequence i = 1) :
    Sound isLoginServer { store := s₀ } :=
  ⟨.init hsessions, .init hstarted, .init, nofun⟩

omit [DecidableEq ι] in
/-- Sessions that logins make apart have different ids. -/
theorem Sound.nodup {isLoginServer : ι → Bool} {r : Registry ι} (h : r.Sound isLoginServer)
    (hapart : Apart r.calls) :
    r.issued.Pairwise fun a b => a.session.sessionId ≠ b.session.sessionId := by
  rw [Apart, calls, List.pairwise_map] at hapart
  refine hapart.imp_of_mem fun {a b} ha hb hclash hid => ?_
  obtain ⟨haccount, hplayer, hnumber⟩ := RedisSessionRepository.sessionIdText_inj
    ((h.numbered a ha).symm.trans (hid.trans (h.numbered b hb)))
  exact hclash (Prod.ext haccount hplayer) (Place.number_eq_iff.mp hnumber)

omit [DecidableEq ι] in
/-- The latest session of an account is not superseded, if no two sessions have the
same id. -/
theorem not_superseded_of_latest {r : Registry ι} {sessionId : String} {a : ℤ}
    (hnodup : r.issued.Pairwise fun a b => a.session.sessionId ≠ b.session.sessionId)
    (hlatest : latestSession (r.issued.map Issue.session) a = some sessionId)
    (haccount : ∀ old ∈ r.issued, old.session.sessionId = sessionId → old.session.accountId = a) :
    ¬r.Superseded sessionId := by
  rintro ⟨later, old, earlier, hissued, rfl, new, hnew, -, hsame⟩
  rw [hissued] at hnodup hlatest haccount
  have holdAccount : old.session.accountId = a := haccount old (by simp) rfl
  obtain ⟨found, hfound, hid⟩ := Option.map_eq_some_iff.mp hlatest
  rw [List.map_append, List.find?_append] at hfound
  have hlater : found ∈ later.map Issue.session := by
    rcases hfind : (later.map Issue.session).find? fun session =>
      decide (session.accountId = a) with _ | first
    · have hnone := List.find?_eq_none.mp hfind new.session (List.mem_map_of_mem hnew)
      rw [hsame, holdAccount] at hnone
      exact absurd (decide_eq_true rfl) hnone
    · rw [hfind, Option.some_or, Option.some.injEq] at hfound
      exact hfound ▸ List.mem_of_find?_eq_some hfind
  obtain ⟨again, hagain, rfl⟩ := List.mem_map.mp hlater
  exact (List.pairwise_append.mp hnodup).2.2 again hagain old List.mem_cons_self hid

end Registry

/-- A hash that `FindById` can read has all the fields of a session. -/
theorem completeSession_of_decode {sessionId : String} {values : List (String × String)}
    {expires : Option ℕ} {session : Session}
    (h : RedisSessionRepository.decode sessionId values = some session) :
    CompleteSession sessionId ⟨.hash values, expires⟩ := by
  simp only [RedisSessionRepository.decode, Option.bind_eq_bind, Option.bind_eq_some_iff] at h
  obtain ⟨_, haccount, _, -, _, hplayer, _, -, _, hcreated, -⟩ := h
  intro f hf
  simp only [RedisKey.fieldNames, List.mem_cons, List.not_mem_nil, or_false] at hf
  rcases hf with rfl | rfl | rfl
  · exact Option.isSome_iff_exists.mpr ⟨_, haccount⟩
  · exact Option.isSome_iff_exists.mpr ⟨_, hplayer⟩
  · exact Option.isSome_iff_exists.mpr ⟨_, hcreated⟩

/-- **A revoked session never comes back**, in every run with stops and restarts in which
no login stops while its session goes astray, and no two logins that make sessions of the
same account and player are made at the same position of two runs of login servers. They
are not if all logins of an account and a player are made by one run. -/
theorem superseded_stays_revoked {isLoginServer : ι → Bool} {s₀ : Store ι} {r : Registry ι}
    (hsessions : ∀ sessionId, s₀.redis.live (.session sessionId) = none)
    (hstarted : ∀ i, isLoginServer i = true → s₀.sequence i = 1)
    (hrun : Reach (Registry.step env isLoginServer) (Registry.Keeps env) { store := s₀ } r) :
    (Apart r.calls → r.NeverAgain) ∧
    ((∀ a ∈ r.calls, ∀ b ∈ r.calls, a.1 = b.1 → a.2.SameRun b.2) →
      (∀ a ∈ r.calls, a.2.position < 2 ^ 64) → Apart r.calls) := by
  have hsound : r.Sound isLoginServer :=
    hrun.invariant (I := Registry.Sound isLoginServer) (.init hsessions hstarted)
      fun _ _ _ _ hI hok hs => hI.step hok hs
  refine ⟨fun hapart sessionId hsuperseded i delays session s' hfound => ?_,
    hsound.recorded.apart_of_one_run⟩
  obtain ⟨hof, hlatest⟩ :=
    hsound.current.accepted (fun _ _ _ => completeSession_of_decode) hfound
  refine Registry.not_superseded_of_latest (hsound.nodup hapart) hlatest
    (fun old hold hid => ?_) hsuperseded
  exact (hid ▸ (hsound.numbered old hold).sessionOf).unique hof

/-- Somebody logs in at the first server. -/
private def logsIn (accountName : String) : Incident Bool :=
  .serve false (.login ⟨accountName, accountName⟩) (fun _ => 0) fun _ => none

/-- The first server stops after `n` commands of a login. -/
private def stopsIn (accountName : String) (n : ℕ) : Incident Bool :=
  .stop false (.login ⟨accountName, accountName⟩) (fun _ => 0) (fun _ => none) n

/-- The first of the two servers is a login server. -/
private def firstServer (i : Bool) : Bool := !i

/-- A process that stops leaves no session astray. -/
private def stopsWell (r : Registry Bool) : Incident Bool → Bool
  | .stop i request delays faults n =>
    (r.store.begin demoEnv i request delays faults n).all fun left =>
      decide ¬Astray left.1 left.2.redis
  | _ => true

private theorem logsIn_ok (r : Registry Bool) (accountName : String) :
    r.Keeps demoEnv (logsIn accountName) :=
  ⟨fun _ => rfl, nofun⟩

private theorem stopsIn_ok {r : Registry Bool} {accountName : String} {n : ℕ}
    (h : stopsWell r (stopsIn accountName n) = true) :
    r.Keeps demoEnv (stopsIn accountName n) := by
  refine ⟨fun _ => rfl, fun i request delays faults n rest store hincident hbegin => ?_⟩
  cases hincident
  have hall := (Option.all_eq_true _ _).mp h _ hbegin
  exact of_decide_eq_true hall

private theorem restarts_ok (r : Registry Bool) (i : Bool) : r.Keeps demoEnv (.restart i) :=
  ⟨trivial, nofun⟩

/-- The demo player logs in, is stopped while the next session is being written, and logs in
behind another player. -/
theorem superseded_stays_revoked_demo :
    ∃ r : Registry Bool, Apart r.calls ∧ r.Superseded "sess-10001-20001-1" ∧ r.NeverAgain := by
  have hreplay : (replay (Registry.step demoEnv firstServer) stopsWell
      { store := emptyWorld.store }
      [logsIn "demo", stopsIn "demo" 6, logsIn "demo2", logsIn "demo"]).any (fun r =>
        r.issued = [⟨⟨"sess-10001-20001-2", 10001, 20001, 0⟩, ⟨false, 1, 1⟩, true⟩,
          ⟨⟨"sess-10002-20002-1", 10002, 20002, 0⟩, ⟨false, 1, 0⟩, true⟩,
          ⟨⟨"sess-10001-20001-1", 10001, 20001, 0⟩, ⟨false, 0, 0⟩, true⟩] ∧
        Apart r.calls) = true := by
    decide +kernel
  obtain ⟨r, hrun, hfound⟩ := Reach.of_replay_any_mem (o := Registry.Keeps demoEnv)
    (by simpa [logsIn_ok] using fun _ h => stopsIn_ok h) hreplay
  obtain ⟨hissued, hapart⟩ := of_decide_eq_true hfound
  have hsuperseded : r.Superseded "sess-10001-20001-1" :=
    ⟨[_, _], _, [], hissued, rfl, _, List.mem_cons_self, rfl, rfl⟩
  exact ⟨r, hapart, hsuperseded,
    (superseded_stays_revoked (fun _ => rfl) (fun _ _ => rfl) hrun).1 hapart⟩

/-- `FindById` accepts the session id. -/
private def accepts (r : Registry Bool) (sessionId : String) : Bool :=
  ((RedisSessionRepository.findById sessionId).run (fun s ms c => s.later true ms c) (fun _ => 0)
    r.store).any fun found => found.1.isSome

private theorem again_of_accepts {r : Registry Bool} {sessionId : String}
    (hsuperseded : r.Superseded sessionId) (haccepts : accepts r sessionId = true) :
    ¬r.NeverAgain := by
  intro hnever
  obtain ⟨⟨found, s'⟩, hfind, hsome⟩ := (Option.any_eq_true _ _).mp haccepts
  obtain ⟨session, rfl⟩ := Option.isSome_iff_exists.mp hsome
  exact hnever sessionId hsuperseded _ _ _ _ hfind

/-- The demo player logs in twice, and once more after the login server was started again:
the first session is accepted again. And a session that goes astray when its login stops is
still accepted after a later login, although the logins are apart. -/
theorem superseded_session_returns :
    (¬∀ r : Registry Bool, Reach (Registry.step demoEnv firstServer) (Registry.Keeps demoEnv)
      { store := emptyWorld.store } r → r.NeverAgain) ∧
    ¬∀ r : Registry Bool, Reach (Registry.step demoEnv firstServer) Registry.KeepsSessions
      { store := emptyWorld.store } r → Apart r.calls → r.NeverAgain := by
  refine ⟨fun hnever => ?_, fun hnever => ?_⟩
  · have hreplay : (replay (Registry.step demoEnv firstServer) (fun _ _ => true)
        { store := emptyWorld.store }
        [logsIn "demo", logsIn "demo", .restart false, logsIn "demo"]).any (fun r =>
          r.issued = [⟨⟨"sess-10001-20001-1", 10001, 20001, 0⟩, ⟨false, 1, 0⟩, true⟩,
            ⟨⟨"sess-10001-20001-2", 10001, 20001, 0⟩, ⟨false, 0, 1⟩, true⟩,
            ⟨⟨"sess-10001-20001-1", 10001, 20001, 0⟩, ⟨false, 0, 0⟩, true⟩] ∧
          accepts r "sess-10001-20001-1") = true := by
      decide +kernel
    obtain ⟨r, hrun, hfound⟩ := Reach.of_replay_any_mem (o := Registry.Keeps demoEnv)
      (by simp [logsIn_ok, restarts_ok]) hreplay
    obtain ⟨hissued, haccepts⟩ := of_decide_eq_true hfound
    exact again_of_accepts ⟨[_, _], _, [], hissued, rfl, _, List.mem_cons_self, rfl, rfl⟩ haccepts
      (hnever r hrun)
  · have hreplay : (replay (Registry.step demoEnv firstServer) (fun _ _ => true)
        { store := emptyWorld.store } [stopsIn "demo" 7, logsIn "demo2", logsIn "demo"]).any
        (fun r => r.issued = [⟨⟨"sess-10001-20001-2", 10001, 20001, 0⟩, ⟨false, 1, 1⟩, true⟩,
            ⟨⟨"sess-10002-20002-1", 10002, 20002, 0⟩, ⟨false, 1, 0⟩, true⟩,
            ⟨⟨"sess-10001-20001-1", 10001, 20001, 0⟩, ⟨false, 0, 0⟩, false⟩] ∧
          Apart r.calls ∧ accepts r "sess-10001-20001-1") = true := by
      decide +kernel
    obtain ⟨r, hrun, hfound⟩ := Reach.of_replay_any_mem (o := Registry.KeepsSessions)
      (by simp [logsIn, stopsIn, Registry.KeepsSessions]) hreplay
    obtain ⟨hissued, hapart, haccepts⟩ := of_decide_eq_true hfound
    exact again_of_accepts ⟨[_, _], _, [], hissued, rfl, _, List.mem_cons_self, rfl, rfl⟩ haccepts
      (hnever r hrun hapart)

end GameBackend
