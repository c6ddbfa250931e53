import GameBackend.Authorization
import GameBackend.EventLoop

/-!
# The life of a binding

The gateway on its event loop. Connections are kept by descriptor, bindings by connection
id, and the disconnect handler is all that ties the two together.

* `Treats` — what the gateway does for one packet: the commands it sends, their answers, and
  the bindings it is left with (`handlePacket_treats`).
* `Lawful` — the history of the bindings. Each step changes the binding of its connection
  only, and nothing follows the end of a connection.
* `GatewayState.Sound` — the bindings and the set of open connections. A packet keeps it, the
  end of a connection takes one away, a new connection adds one.
* `Lives` — the same over the connections of the event loop, which has given out no id twice
  as long as the ids do not wrap (`Numbered`, `Runs`).

A lookup that throws ends the process, and the run with it.
-/

namespace GameBackend

/-! ## One packet -/

/-- What the commands of a gateway are answered, one after the other. -/
structure GatewayAnswers where
  reply : ℕ → (c : GatewayCmd) → c.Reply
  /-- a lookup returns what the code does with some answers of Redis -/
  lookup : ∀ n sessionId playerId,
    (SessionBindingAuthorizer.restoreBindingFromSession sessionId playerId).Returns
      (fun _ _ => True) (reply n (.restoreBindingFromSession sessionId playerId))

/-- The commands that were sent, with their answers. -/
abbrev GatewayTrail : Type := List (Call GatewayCmd GatewayCmd.Reply)

/-- Whatever Redis says, a lookup finds the session and the player it is asked for. -/
theorem restoreBindingFromSession_honest {sessionId : String} {playerId : ℤ}
    {found : Option (String × ℤ)}
    (h : (SessionBindingAuthorizer.restoreBindingFromSession sessionId playerId).Returns
      (fun _ _ => True) found) :
    GatewayCmd.Honest (.restoreBindingFromSession sessionId playerId) found := by
  rw [SessionBindingAuthorizer.restoreBindingFromSession] at h
  split at h
  · cases h
    exact fun _ hb => by cases hb
  rw [RedisSessionRepository.findById] at h
  simp only [Prog.returns_bind] at h
  obtain ⟨session, ⟨values, -, hsession⟩, h⟩ := h
  -- the session is decoded under the id that was asked for
  have hid : ∀ s ∈ session, s.sessionId = sessionId := by
    cases values with
    | none =>
      cases hsession
      exact fun _ hb => by cases hb
    | some values =>
      dsimp only at hsession
      cases hdecode : RedisSessionRepository.decode sessionId values with
      | none =>
        rw [hdecode] at hsession
        exact hsession.elim
      | some s =>
        rw [hdecode] at hsession
        cases hsession
        rintro _ ⟨⟩
        exact sessionId_decode hdecode
  split at h
  · cases h
    exact fun _ hb => by cases hb
  · rename_i hplayer
    cases h
    intro b hb
    obtain ⟨s, rfl, rfl⟩ := Option.map_eq_some_iff.mp hb
    exact Prod.ext (hid s rfl) (Option.some.inj (not_not.mp hplayer))

theorem GatewayAnswers.honest (answers : GatewayAnswers) (n : ℕ) (c : GatewayCmd) :
    c.Honest (answers.reply n c) := by
  cases c with
  | restoreBindingFromSession sessionId playerId =>
    exact restoreBindingFromSession_honest (answers.lookup n sessionId playerId)
  | sendAndReceive upstream packet => trivial

/-- A command is answered and noted. -/
def GatewayAnswers.execute (answers : GatewayAnswers) (s : ℕ × GatewayTrail) (_ : Unit)
    (c : GatewayCmd) : Option (c.Reply × ℕ × GatewayTrail) :=
  some (answers.reply s.1 c, s.1 + 1, s.2 ++ [⟨c, answers.reply s.1 c⟩])

/-- The packet is no login request, and its context names this session and this player. -/
def Carries (codec : Codec) (packet : Packet) (sessionId : String) (playerId : ℤ) : Prop :=
  ∃ id parsed, MessageId.ofInt packet.header.msgId = some id ∧ id ≠ .loginRequest ∧
    codec.extractRequestContext id packet.body = some parsed ∧
    parsed.sessionId = sessionId ∧ parsed.playerId = playerId

/-- The answer to a login request has passed all checks, and the login was successful. -/
structure ValidLogin (codec : Codec) (incoming : IncomingPacket) (answer : Packet)
    (response : Proto.LoginResponse) : Prop where
  login : MessageId.ofInt incoming.packet.header.msgId = some .loginRequest
  matched : GatewayServer.upstreamMismatch incoming answer = false
  type : MessageId.ofInt answer.header.msgId = some .loginResponse
  parsed : codec.parseLoginResponse answer.body = some response
  success : response.success = true

/-- What the gateway does for a packet, the bindings it starts with, and those it is left
with. -/
inductive Treats (codec : Codec) (incoming : IncomingPacket) (before : Bindings) :
    GatewayTrail → Bindings → Prop where
  /-- it answers itself -/
  | answered : Treats codec incoming before [] before
  | refused {sessionId : String} {playerId : ℤ}
      (unbound : before incoming.connectionId = none) :
      Treats codec incoming before [⟨.restoreBindingFromSession sessionId playerId, none⟩] before
  | forwarded {upstream : Server} {sessionId : String} {playerId : ℤ}
      {reply : Except String Packet}
      (bound : before incoming.connectionId = some (sessionId, playerId))
      (carries : Carries codec incoming.packet sessionId playerId) :
      Treats codec incoming before [⟨.sendAndReceive upstream incoming.packet, reply⟩] before
  | restored {upstream : Server} {sessionId : String} {playerId : ℤ}
      {reply : Except String Packet} (unbound : before incoming.connectionId = none)
      (carries : Carries codec incoming.packet sessionId playerId) :
      Treats codec incoming before
        [⟨.restoreBindingFromSession sessionId playerId, some (sessionId, playerId)⟩,
          ⟨.sendAndReceive upstream incoming.packet, reply⟩]
        (Function.update before incoming.connectionId (some (sessionId, playerId)))
  | loginFailed {upstream : Server} {reply : Except String Packet}
      (login : MessageId.ofInt incoming.packet.header.msgId = some .loginRequest) :
      Treats codec incoming before [⟨.sendAndReceive upstream incoming.packet, reply⟩] before
  | loggedIn {upstream : Server} {answer : Packet} {response : Proto.LoginResponse}
      (valid : ValidLogin codec incoming answer response) :
      Treats codec incoming before [⟨.sendAndReceive upstream incoming.packet, .ok answer⟩]
        (SessionBindingAuthorizer.bind before incoming.connectionId response.sessionId
          response.playerId)

section Packet

variable {codec : Codec} {incoming : IncomingPacket} {answers : GatewayAnswers}
  {x : ℕ → Unit} {n : ℕ} {s : ℕ × GatewayTrail}

/-- An answer is relayed, or it is that to a successful login. -/
theorem relay_valid (codec : Codec) (before : Bindings) (incoming : IncomingPacket)
    (id : MessageId) (context : RequestContext) (answer : Packet)
    (hid : MessageId.ofInt incoming.packet.header.msgId = some id) :
    (GatewayServer.relay codec before incoming id context answer).2 = before ∨
      ∃ response, ValidLogin codec incoming answer response ∧
        (GatewayServer.relay codec before incoming id context answer).2 =
          SessionBindingAuthorizer.bind before incoming.connectionId response.sessionId
            response.playerId := by
  rcases relay_cases codec before incoming id context answer with
    hsame | ⟨response, rfl, htype, hparse, hsuccess, hbound⟩
  · exact .inl hsame
  cases hmismatch : GatewayServer.upstreamMismatch incoming answer with
  | true =>
    refine .inl ?_
    rw [GatewayServer.relay, if_pos hmismatch]
  | false => exact .inr ⟨response, ⟨hid, hmismatch, htype, hparse, hsuccess⟩, hbound⟩

theorem yields_gatewayCmd (c : GatewayCmd) :
    Prog.Yields answers.execute x False
      (fun r _ s' => c.Honest r ∧ s'.2 = s.2 ++ [⟨c, r⟩]) (Prog.send (R := GatewayCmd.Reply) c)
      n s := by
  refine ⟨nofun, fun r s' hs => ?_⟩
  obtain ⟨rfl, rfl⟩ := Prod.mk.inj (Option.some.inj hs)
  exact ⟨answers.honest s.1 c, rfl⟩

/-- Forwarding a packet. -/
theorem yields_forward {before : Bindings} {id : MessageId} {context : RequestContext}
    {trail : GatewayTrail} (htrail : s.2 = trail)
    (hid : MessageId.ofInt incoming.packet.header.msgId = some id) :
    (GatewayServer.forward codec before incoming id context).Yields answers.execute x False
      (fun result _ s' => ∃ reply, s'.2 = trail ++
          [⟨.sendAndReceive (GatewayServer.resolveUpstream id) incoming.packet, reply⟩] ∧
        (result.2 = before ∨ ∃ answer response, reply = .ok answer ∧
          ValidLogin codec incoming answer response ∧
          result.2 = SessionBindingAuthorizer.bind before incoming.connectionId
            response.sessionId response.playerId)) n s := by
  subst htrail
  refine (yields_gatewayCmd _).bind ?_
  rintro (errorMessage | answer) _ s' ⟨-, hs'⟩
  · exact ⟨_, hs', .inl rfl⟩
  · rcases relay_valid codec before incoming id context answer hid with
      hsame | ⟨response, hvalid, hbound⟩
    · exact ⟨_, hs', .inl hsame⟩
    · exact ⟨_, hs', .inr ⟨answer, response, rfl, hvalid, hbound⟩⟩

/-- Forwarding a packet that is no login request leaves the bindings as they are. -/
theorem yields_forward_other {before : Bindings} {id : MessageId} {context : RequestContext}
    {trail : GatewayTrail} (htrail : s.2 = trail)
    (hid : MessageId.ofInt incoming.packet.header.msgId = some id) (hlogin : id ≠ .loginRequest) :
    (GatewayServer.forward codec before incoming id context).Yields answers.execute x False
      (fun result _ s' => ∃ reply, s'.2 = trail ++
          [⟨.sendAndReceive (GatewayServer.resolveUpstream id) incoming.packet, reply⟩] ∧
        result.2 = before) n s := by
  refine (yields_forward htrail hid).mono ?_
  rintro result _ s' ⟨reply, hs', hsame | ⟨answer, response, -, hvalid, -⟩⟩
  · exact ⟨reply, hs', hsame⟩
  · exact absurd (Option.some.inj (hid.symm.trans hvalid.login)) hlogin

/-- What a gateway does for a packet. -/
theorem handlePacket_treats (codec : Codec) (before : Bindings) (incoming : IncomingPacket)
    (answers : GatewayAnswers) (asked : ℕ) :
    (GatewayServer.handlePacket codec before incoming).Yields answers.execute x False
      (fun result _ s' => Treats codec incoming before s'.2 result.2) n (asked, []) := by
  obtain ⟨message, -, heq⟩ | ⟨-, heq⟩ | ⟨id, parsed, hid, -, hextract, heq⟩ :=
    GatewayServer.handlePacket_cases codec before incoming
  · rw [heq]
    exact .answered
  · rw [heq]
    exact .answered
  obtain ⟨hsession, hplayer⟩ := normalizeContext_session "gateway" incoming parsed
  rw [heq]
  split
  · -- no login request: it needs a binding
    rename_i hlogin
    have hcarries : Carries codec incoming.packet parsed.sessionId parsed.playerId :=
      ⟨id, parsed, hid, hlogin, hextract, rfl, rfl⟩
    rw [SessionBindingAuthorizer.validateOrRestore, hsession, hplayer]
    cases hbinding : before incoming.connectionId with
    | some binding =>
      dsimp only
      split
      · rename_i hmatch
        refine (yields_forward_other rfl hid hlogin).mono ?_
        rintro ⟨response, _⟩ _ ⟨asked, _⟩ ⟨reply, rfl, rfl⟩
        refine .forwarded ?_ hcarries
        rw [hbinding, ← hmatch.1, ← hmatch.2]
      · exact .answered
    | none =>
      -- the lookup comes before the packet is forwarded
      dsimp only
      rw [Prog.bind_assoc]
      refine (yields_gatewayCmd _).bind ?_
      rintro (_ | binding) _ ⟨asked, trail⟩ ⟨hhonest, htrail⟩
      · obtain rfl := htrail
        exact .refused hbinding
      · obtain rfl := hhonest binding rfl
        refine (yields_forward_other htrail hid hlogin).mono ?_
        rintro ⟨response, _⟩ _ ⟨asked, _⟩ ⟨reply, rfl, rfl⟩
        exact .restored hbinding hcarries
  · rename_i hlogin
    rw [not_not] at hlogin
    subst hlogin
    refine (yields_forward rfl hid).mono ?_
    rintro ⟨response, after⟩ _ ⟨asked, trail⟩
      ⟨reply, rfl, hsame | ⟨answer, proto, rfl, hvalid, hbind⟩⟩
    · obtain rfl := hsame
      exact .loginFailed hid
    · obtain rfl := hbind
      exact .loggedIn hvalid

end Packet

/-! ## The handlers -/

/-- What happens to the bindings, with those that are held afterwards. -/
inductive GatewayStep where
  | handled (incoming : IncomingPacket) (trail : GatewayTrail) (after : Bindings)
  | disconnected (connectionId : UInt64) (after : Bindings)

/-- The history is kept for the proofs, newest first. -/
structure GatewayState where
  bindings : Bindings := fun _ => none
  /-- how many commands were sent -/
  asked : ℕ := 0
  history : List GatewayStep := []

theorem handlePacket_isSome (codec : Codec) (answers : GatewayAnswers) (before : Bindings)
    (incoming : IncomingPacket) (asked : ℕ) :
    ((GatewayServer.handlePacket codec before incoming).run answers.execute (fun _ => ())
      (asked, [])).isSome := by
  obtain ⟨result, s, hrun⟩ :=
    (handlePacket_treats (x := fun _ => ()) (n := 0) codec before incoming answers asked).returns id
  exact Option.isSome_iff_exists.mpr ⟨(result, s), hrun⟩

/-- `HandlePacket` with the bindings of the gateway. -/
def GatewayState.handlePacket (codec : Codec) (answers : GatewayAnswers)
    (incoming : IncomingPacket) (s : GatewayState) : Option Packet × GatewayState :=
  let ((response, after), asked, trail) :=
    ((GatewayServer.handlePacket codec s.bindings incoming).run answers.execute (fun _ => ())
      (s.asked, [])).get (handlePacket_isSome ..)
  (some response, ⟨after, asked, .handled incoming trail after :: s.history⟩)

def GatewayState.unbind (connectionId : UInt64) (s : GatewayState) : GatewayState :=
  let after := SessionBindingAuthorizer.unbind s.bindings connectionId
  { s with bindings := after, history := .disconnected connectionId after :: s.history }

/-- The handlers that `Initialize` sets. -/
def gatewayHandlers (codec : Codec) (answers : GatewayAnswers) : Handlers GatewayState where
  packetHandler := GatewayState.handlePacket codec answers
  disconnectHandler := GatewayState.unbind

/-- What it does for a packet is noted. -/
theorem GatewayState.handlePacket_step (codec : Codec) (answers : GatewayAnswers)
    (incoming : IncomingPacket) (s : GatewayState) :
    ∃ asked trail after, Treats codec incoming s.bindings trail after ∧
      (s.handlePacket codec answers incoming).2 =
        ⟨after, asked, .handled incoming trail after :: s.history⟩ := by
  have htreats := handlePacket_treats (x := fun _ => ()) (n := 0) codec s.bindings incoming answers
    s.asked
  obtain ⟨⟨⟨response, after⟩, asked, trail⟩, hrun⟩ := Option.isSome_iff_exists.mp
    (handlePacket_isSome codec answers s.bindings incoming s.asked)
  obtain ⟨-, hafter⟩ := htreats.run hrun
  refine ⟨asked, trail, after, hafter, ?_⟩
  simp only [GatewayState.handlePacket, hrun, Option.get_some]

/-! ## The history of the bindings -/

/-- The bindings at the end of a history. -/
def bindingsAfter : List GatewayStep → Bindings
  | [] => fun _ => none
  | .handled _ _ after :: _ => after
  | .disconnected _ after :: _ => after

/-- The connection has come to its end. -/
def Ended (history : List GatewayStep) (connectionId : UInt64) : Prop :=
  ∃ after, .disconnected connectionId after ∈ history

/-- Each packet is treated with the bindings left by the step before, and its connection has
not come to its end. -/
inductive Lawful (codec : Codec) : List GatewayStep → Prop where
  | start : Lawful codec []
  | handled {history : List GatewayStep} {incoming : IncomingPacket} {trail : GatewayTrail}
      {after : Bindings} (lawful : Lawful codec history)
      (connected : ¬Ended history incoming.connectionId)
      (treats : Treats codec incoming (bindingsAfter history) trail after) :
      Lawful codec (.handled incoming trail after :: history)
  | disconnected {history : List GatewayStep} {connectionId : UInt64}
      (lawful : Lawful codec history) :
      Lawful codec (.disconnected connectionId
        (SessionBindingAuthorizer.unbind (bindingsAfter history) connectionId) :: history)

/-- A login on this connection goes through and binds it. -/
def LogsIn (codec : Codec) (step : GatewayStep) (connectionId : UInt64) : Prop :=
  ∃ incoming upstream answer response after,
    step = .handled incoming [⟨.sendAndReceive upstream incoming.packet, .ok answer⟩] after ∧
    incoming.connectionId = connectionId ∧ ValidLogin codec incoming answer response ∧
    after connectionId = some (response.sessionId, response.playerId)

/-- A lookup restores the binding of this connection. -/
def Restores (step : GatewayStep) (connectionId : UInt64) : Prop :=
  ∃ incoming sessionId playerId later after,
    step = .handled incoming
      (⟨.restoreBindingFromSession sessionId playerId, some (sessionId, playerId)⟩ :: later)
      after ∧
    incoming.connectionId = connectionId ∧ after connectionId = some (sessionId, playerId)

/-- This connection is closed. -/
def Disconnects (step : GatewayStep) (connectionId : UInt64) : Prop :=
  ∃ after, step = .disconnected connectionId after ∧ after connectionId = none

/-- A request of this connection for this session and player, no login, is forwarded. -/
def Forwards (codec : Codec) (step : GatewayStep) (connectionId : UInt64) (sessionId : String)
    (playerId : ℤ) : Prop :=
  ∃ incoming trail after upstream reply, step = .handled incoming trail after ∧
    incoming.connectionId = connectionId ∧ Carries codec incoming.packet sessionId playerId ∧
    (⟨.sendAndReceive upstream incoming.packet, reply⟩ : Call GatewayCmd GatewayCmd.Reply) ∈ trail

section History

variable {codec : Codec} {history between : List GatewayStep} {step : GatewayStep}
  {incoming : IncomingPacket} {before after : Bindings} {trail : GatewayTrail}
  {connectionId : UInt64} {sessionId : String} {playerId : ℤ}

theorem Treats.other (h : Treats codec incoming before trail after)
    (hne : connectionId ≠ incoming.connectionId) : after connectionId = before connectionId := by
  cases h with
  | answered | refused | forwarded | loginFailed => rfl
  | restored | loggedIn => exact Function.update_of_ne hne ..

theorem Lawful.of_append : ∀ {between : List GatewayStep},
    Lawful codec (between ++ history) → Lawful codec history
  | [], h => h
  | _ :: _, .handled lawful _ _ => lawful.of_append
  | _ :: _, .disconnected lawful => lawful.of_append

/-- A step changes a binding by a login, by restoring it if there is none, or by the end of
the connection. -/
theorem Lawful.changes (h : Lawful codec (step :: history))
    (hchange : bindingsAfter (step :: history) connectionId ≠ bindingsAfter history connectionId) :
    LogsIn codec step connectionId ∨
      (bindingsAfter history connectionId = none ∧ Restores step connectionId) ∨
      Disconnects step connectionId := by
  cases h with
  | handled _ _ treats =>
    -- the packet is one of this connection
    obtain rfl : connectionId = _ := by
      by_contra hne
      exact hchange (treats.other hne)
    cases treats with
    | answered | refused | forwarded | loginFailed => exact absurd rfl hchange
    | restored unbound _ =>
      exact .inr (.inl ⟨unbound, _, _, _, _, _, rfl, rfl, Function.update_self ..⟩)
    | loggedIn valid => exact .inl ⟨_, _, _, _, _, rfl, rfl, valid, Function.update_self ..⟩
  | disconnected _ =>
    obtain rfl : connectionId = _ := by
      by_contra hne
      exact hchange (Function.update_of_ne hne ..)
    exact .inr (.inr ⟨_, rfl, Function.update_self ..⟩)

/-- A binding stays as it is while the connection is open and nobody logs in on it. -/
theorem Lawful.stays {binding : String × ℤ}
    (hbound : bindingsAfter history connectionId = some binding) :
    ∀ {between : List GatewayStep}, Lawful codec (between ++ history) →
      (∀ step ∈ between, ¬LogsIn codec step connectionId) → ¬Ended between connectionId →
      bindingsAfter (between ++ history) connectionId = some binding
  | [], _, _, _ => hbound
  | step :: between, h, hlogin, hopen => by
    have hlawful : Lawful codec ([step] ++ (between ++ history)) := h
    have hrest : bindingsAfter (between ++ history) connectionId = some binding := by
      refine Lawful.stays hbound hlawful.of_append
        (fun step hstep => hlogin step (List.mem_cons_of_mem _ hstep)) ?_
      rintro ⟨after, hafter⟩
      exact hopen ⟨after, List.mem_cons_of_mem _ hafter⟩
    -- each of the three ways to change it is ruled out
    by_contra hne
    rcases h.changes (fun heq => hne (heq.trans hrest)) with hin | ⟨hnone, -⟩ | ⟨after, rfl, -⟩
    · exact hlogin step List.mem_cons_self hin
    · exact Option.some_ne_none binding (hrest.symm.trans hnone)
    · exact hopen ⟨after, List.mem_cons_self⟩

theorem Carries.unique {packet : Packet} {sessionId' : String} {playerId' : ℤ}
    (h : Carries codec packet sessionId playerId) (h' : Carries codec packet sessionId' playerId') :
    (sessionId, playerId) = (sessionId', playerId') := by
  obtain ⟨id, parsed, hid, -, hparsed, rfl, rfl⟩ := h
  obtain ⟨id', parsed', hid', -, hparsed', rfl, rfl⟩ := h'
  obtain rfl := Option.some.inj (hid.symm.trans hid')
  obtain rfl := Option.some.inj (hparsed.symm.trans hparsed')
  rfl

/-- A request that is forwarded is for the binding of its connection. -/
theorem Treats.forwards {upstream : Server} {reply : Except String Packet}
    (h : Treats codec incoming before trail after)
    (hcarries : Carries codec incoming.packet sessionId playerId)
    (hsent : (⟨.sendAndReceive upstream incoming.packet, reply⟩ :
      Call GatewayCmd GatewayCmd.Reply) ∈ trail) :
    after incoming.connectionId = some (sessionId, playerId) ∧
      ∀ binding, before incoming.connectionId = some binding → binding = (sessionId, playerId) := by
  have hlogin : MessageId.ofInt incoming.packet.header.msgId ≠ some .loginRequest := by
    obtain ⟨id, -, hid, hother, -⟩ := hcarries
    rw [hid]
    exact fun heq => hother (Option.some.inj heq)
  cases h with
  | answered => cases hsent
  | refused => cases List.mem_singleton.mp hsent
  | forwarded bound carries =>
    rw [bound, carries.unique hcarries]
    exact ⟨rfl, fun _ h => (Option.some.inj h).symm⟩
  | restored unbound carries =>
    rw [Function.update_self, unbound, carries.unique hcarries]
    exact ⟨rfl, nofun⟩
  | loginFailed login => exact absurd login hlogin
  | loggedIn valid => exact absurd valid.login hlogin

/-- Two requests that are forwarded with no login in between are for one session and
player. -/
theorem Lawful.forwards_same {first second : GatewayStep} {sessionId' : String} {playerId' : ℤ}
    (h : Lawful codec (second :: (between ++ first :: history)))
    (hlogin : ∀ step ∈ between, ¬LogsIn codec step connectionId)
    (hfirst : Forwards codec first connectionId sessionId playerId)
    (hsecond : Forwards codec second connectionId sessionId' playerId') :
    sessionId = sessionId' ∧ playerId = playerId' := by
  obtain ⟨incoming', trail', after', upstream', reply', rfl, rfl, hcarries', hsent'⟩ := hsecond
  cases h with
  | handled lawful connected treats =>
    have hbound : bindingsAfter (first :: history) incoming'.connectionId =
        some (sessionId, playerId) := by
      obtain ⟨incoming, trail, after, upstream, reply, rfl, hid, hcarries, hsent⟩ := hfirst
      rw [← hid]
      cases lawful.of_append with
      | handled _ _ treats => exact (treats.forwards hcarries hsent).1
    -- the second request is treated, so its connection has not ended before
    have hopen : ¬Ended between incoming'.connectionId := by
      rintro ⟨after, hafter⟩
      exact connected ⟨after, List.mem_append_left _ hafter⟩
    have hstays := Lawful.stays hbound lawful hlogin hopen
    exact Prod.mk.inj ((treats.forwards hcarries' hsent').2 _ hstays)

end History

/-! ## The event loop -/

namespace EpollTcpServer

/-- The ids that were given to connections, newest first. -/
def acceptedIds : List Happening → List UInt64
  | [] => []
  | .accepted _ id :: log => id :: acceptedIds log
  | _ :: log => acceptedIds log

/-- The first so many ids, newest first. -/
def firstIds : ℕ → List UInt64
  | 0 => []
  | n + 1 => UInt64.ofNat (n + 1) :: firstIds n

variable {σ : Type}

/-- The ids of the connections, by descriptor. -/
def ids (server : EpollTcpServer σ) (fd : ℕ) : Option UInt64 :=
  (server.connections fd).map fun watched => watched.id

/-- There is a connection with this id. -/
def Connected (server : EpollTcpServer σ) (id : UInt64) : Prop := ∃ fd, server.ids fd = some id

variable {server : EpollTcpServer σ} {fd fd' : ℕ} {peerAddress : String} {added : Bool}
  {id : UInt64}

/-- The connections that are there are kept when one is accepted, which gets the next id. -/
theorem ids_acceptOne : (acceptOne server fd peerAddress added).ids fd' =
    (server.ids fd').or (if added ∧ fd' = fd then some server.nextConnectionId else none) := by
  cases added with
  | false => simp [ids, acceptOne]
  | true =>
    by_cases hfd : fd' = fd
    · subst hfd
      cases hwatched : server.connections fd' with
      | none => simp [ids, acceptOne, hwatched, Watched.accepted, Connection.accepted]
      | some watched => simp [ids, acceptOne, hwatched]
    · simp [ids, acceptOne, hfd]

theorem ids_acceptOne_kept (h : server.ids fd' = some id) :
    (acceptOne server fd peerAddress added).ids fd' = some id := by
  rw [ids_acceptOne, h, Option.some_or]

theorem ids_acceptOne_cases (h : (acceptOne server fd peerAddress added).ids fd' = some id) :
    server.ids fd' = some id ∨ (fd' = fd ∧ id = server.nextConnectionId) := by
  rw [ids_acceptOne] at h
  cases hid : server.ids fd' with
  | some old =>
    rw [hid, Option.some_or] at h
    exact .inl h
  | none =>
    rw [hid, Option.none_or] at h
    split at h
    · rename_i hadded
      exact .inr ⟨hadded.2, (Option.some.inj h).symm⟩
    · cases h

theorem ids_update {server' : EpollTcpServer σ} {watched : Option Watched}
    (h : server'.connections = Function.update server.connections fd watched) :
    server'.ids = Function.update server.ids fd (watched.map fun watched => watched.id) := by
  have hmap := Function.comp_update (Option.map fun watched : Watched => watched.id)
    server.connections fd watched
  rw [← h] at hmap
  exact hmap

theorem acceptedIds_passed (fd : ℕ) (log : List Happening) :
    ∀ passed : List Packet, acceptedIds ((passed.map (.passed fd)).reverse ++ log) = acceptedIds log
  | [] => rfl
  | packet :: passed => by
    rw [List.map_cons, List.reverse_cons, List.append_assoc]
    exact acceptedIds_passed fd (.passed fd packet :: log) passed

/-- An event on a connection gives out no id. -/
theorem handleEvent_ready_ids (handlers : Handlers σ) (server : EpollTcpServer σ) (fd : ℕ)
    (ready : Ready) :
    (handleEvent handlers server (.ready fd ready)).2.nextConnectionId = server.nextConnectionId ∧
      acceptedIds (handleEvent handlers server (.ready fd ready)).2.log =
        acceptedIds server.log := by
  cases hwatched : server.connections fd with
  | none =>
    rw [handleEvent, hwatched]
    exact ⟨rfl, rfl⟩
  | some watched =>
    rcases hserve : serve handlers.packetHandler watched ready server.state with
      ⟨fate, passed, watched', s'⟩
    rw [handleEvent_ready hwatched hserve]
    cases fate with
    | kept => exact ⟨rfl, acceptedIds_passed fd server.log passed⟩
    | closed => exact ⟨rfl, acceptedIds_passed fd server.log passed⟩
    | killed => exact ⟨rfl, acceptedIds_passed fd server.log passed⟩

/-- Ids are given out in their order. -/
structure Numbered (server : EpollTcpServer σ) : Prop where
  ids : acceptedIds server.log = firstIds (acceptedIds server.log).length
  next : server.nextConnectionId = UInt64.ofNat ((acceptedIds server.log).length + 1)

theorem Numbered.acceptOne (h : server.Numbered) :
    (acceptOne server fd peerAddress added).Numbered where
  ids := by
    rw [EpollTcpServer.acceptOne, acceptedIds, List.length_cons, firstIds, ← h.ids, ← h.next]
  next := by
    rw [EpollTcpServer.acceptOne, acceptedIds, List.length_cons, UInt64.ofNat_add _ 1, ← h.next]
    rfl

theorem Numbered.ready {handlers : Handlers σ} {ready : Ready} (h : server.Numbered) :
    (handleEvent handlers server (.ready fd ready)).2.Numbered := by
  obtain ⟨hnext, hids⟩ := handleEvent_ready_ids handlers server fd ready
  exact ⟨hids ▸ h.ids, by rw [hnext, hids, h.next]⟩

theorem toNat_le_of_mem_firstIds :
    ∀ {n : ℕ}, n < 2 ^ 64 → id ∈ firstIds n → id.toNat ≤ n
  | 0, _, h => nomatch h
  | n + 1, hn, h => by
    rcases List.mem_cons.mp h with rfl | h
    · exact (UInt64.toNat_ofNat_of_lt' hn).le
    · have hle := toNat_le_of_mem_firstIds (Nat.lt_of_succ_lt hn) h
      omega

/-- The next id is new, while the ids do not wrap. -/
theorem ofNat_succ_notMem_firstIds {n : ℕ} (hn : n + 1 < 2 ^ 64) :
    UInt64.ofNat (n + 1) ∉ firstIds n := by
  intro hmem
  have hle := toNat_le_of_mem_firstIds (Nat.lt_of_succ_lt hn) hmem
  rw [UInt64.toNat_ofNat_of_lt' hn] at hle
  omega

theorem firstIds_nodup : ∀ {n : ℕ}, n < 2 ^ 64 → (firstIds n).Nodup
  | 0, _ => List.nodup_nil
  | _ + 1, hn =>
    List.nodup_cons.mpr ⟨ofNat_succ_notMem_firstIds hn, firstIds_nodup (Nat.lt_of_succ_lt hn)⟩

end EpollTcpServer

section Loop

open EpollTcpServer

variable {codec : Codec} {answers : GatewayAnswers} {s : GatewayState}
  {connected connected' issued issued' : UInt64 → Prop} {connectionId : UInt64}

/-- What holds of the bindings when these connections are open and these ids were issued. -/
structure GatewayState.Sound (codec : Codec) (connected issued : UInt64 → Prop)
    (s : GatewayState) : Prop where
  lawful : Lawful codec s.history
  bindings : s.bindings = bindingsAfter s.history
  bound : ∀ id, s.bindings id ≠ none → connected id
  lives : ∀ id, connected id → ¬Ended s.history id
  ended : ∀ id, Ended s.history id → issued id

theorem GatewayState.Sound.handlePacket (h : s.Sound codec connected issued)
    {incoming : IncomingPacket} (hconnected : connected incoming.connectionId) :
    (s.handlePacket codec answers incoming).2.Sound codec connected issued := by
  obtain ⟨asked, trail, after, htreats, heq⟩ := s.handlePacket_step codec answers incoming
  rw [heq]
  have hended : ∀ id, Ended (.handled incoming trail after :: s.history) id →
      Ended s.history id := by
    rintro id ⟨last, hlast⟩
    rcases List.mem_cons.mp hlast with hlast | hlast
    · cases hlast
    · exact ⟨last, hlast⟩
  refine ⟨.handled h.lawful (h.lives _ hconnected) (h.bindings ▸ htreats), rfl, fun id hid => ?_,
    fun id hid hend => h.lives id hid (hended id hend), fun id hend => h.ended id (hended id hend)⟩
  by_cases hown : id = incoming.connectionId
  · rw [hown]
    exact hconnected
  · exact h.bound id (htreats.other hown ▸ hid)

/-- The end of a connection. -/
theorem GatewayState.Sound.unbind (h : s.Sound codec connected issued) {connectionId : UInt64}
    (hissued : issued connectionId) :
    (s.unbind connectionId).Sound codec (fun id => connected id ∧ id ≠ connectionId) issued := by
  have hended : ∀ id, Ended (s.unbind connectionId).history id →
      id = connectionId ∨ Ended s.history id := by
    rintro id ⟨last, hlast⟩
    rcases List.mem_cons.mp hlast with hlast | hlast
    · cases hlast
      exact .inl rfl
    · exact .inr ⟨last, hlast⟩
  refine ⟨?_, rfl, fun id hid => ?_, fun id hid hend => ?_, fun id hend => ?_⟩
  · rw [GatewayState.unbind, h.bindings]
    exact .disconnected h.lawful
  · -- `Unbind` leaves nothing that the connection had
    have hne : id ≠ connectionId := by
      rintro rfl
      exact hid (Function.update_self ..)
    refine ⟨h.bound id fun hnone => hid ?_, hne⟩
    exact (Function.update_of_ne hne ..).trans hnone
  · rcases hended id hend with heq | hend
    · exact hid.2 heq
    · exact h.lives id hid.1 hend
  · rcases hended id hend with rfl | hend
    · exact hissued
    · exact h.ended id hend

/-- More connections, with new ids. -/
theorem GatewayState.Sound.mono (h : s.Sound codec connected issued)
    (hconnected : ∀ id, connected id → connected' id) (hissued : ∀ id, issued id → issued' id)
    (hnew : ∀ id, connected' id → connected id ∨ ¬issued id) :
    s.Sound codec connected' issued' where
  lawful := h.lawful
  bindings := h.bindings
  bound id hid := hconnected id (h.bound id hid)
  lives id hid hend := by
    rcases hnew id hid with hid | hid
    · exact h.lives id hid hend
    · exact hid (h.ended id hend)
  ended id hend := hissued id (h.ended id hend)

/-- The invariant of the event loop. -/
structure Lives (codec : Codec) (server : EpollTcpServer GatewayState) : Prop where
  issued : ∀ fd id, server.ids fd = some id → id ∈ acceptedIds server.log
  distinct : ∀ fd fd' id, server.ids fd = some id → server.ids fd' = some id → fd = fd'
  sound : server.state.Sound codec server.Connected (· ∈ acceptedIds server.log)

variable {server : EpollTcpServer GatewayState}

/-- An accepted connection with a new id. -/
theorem Lives.acceptOne (h : Lives codec server)
    (hnew : server.nextConnectionId ∉ acceptedIds server.log) (fd : ℕ) (peerAddress : String)
    (added : Bool) : Lives codec (acceptOne server fd peerAddress added) where
  issued fd' id hid := by
    rcases ids_acceptOne_cases hid with hid | ⟨-, rfl⟩
    · exact List.mem_cons_of_mem _ (h.issued fd' id hid)
    · exact List.mem_cons_self
  distinct fd₁ fd₂ id h₁ h₂ := by
    rcases ids_acceptOne_cases h₁ with h₁ | ⟨rfl, rfl⟩
    · rcases ids_acceptOne_cases h₂ with h₂ | ⟨-, rfl⟩
      · exact h.distinct fd₁ fd₂ id h₁ h₂
      · exact absurd (h.issued fd₁ _ h₁) hnew
    · rcases ids_acceptOne_cases h₂ with h₂ | ⟨rfl, -⟩
      · exact absurd (h.issued fd₂ _ h₂) hnew
      · rfl
  sound := by
    refine h.sound.mono ?_ (fun id hid => List.mem_cons_of_mem _ hid) ?_
    · rintro id ⟨fd', hid⟩
      exact ⟨fd', ids_acceptOne_kept hid⟩
    · rintro id ⟨fd', hid⟩
      rcases ids_acceptOne_cases hid with hid | ⟨-, rfl⟩
      · exact .inl ⟨fd', hid⟩
      · exact .inr hnew

/-- The connections are the same ones. -/
theorem Lives.kept {server' : EpollTcpServer GatewayState} (h : Lives codec server)
    (hids : server'.ids = server.ids) (hlog : acceptedIds server'.log = acceptedIds server.log)
    (hsound : server'.state.Sound codec server.Connected (· ∈ acceptedIds server.log)) :
    Lives codec server' := by
  refine ⟨?_, ?_, ?_⟩
  · rw [hids, hlog]
    exact h.issued
  · rw [hids]
    exact h.distinct
  · rw [hlog]
    refine hsound.mono ?_ (fun _ hid => hid) ?_
    · rintro id ⟨fd, hid⟩
      exact ⟨fd, hids ▸ hid⟩
    · rintro id ⟨fd, hid⟩
      exact .inl ⟨fd, hids ▸ hid⟩

/-- A connection is closed. -/
theorem Lives.closed {server' : EpollTcpServer GatewayState} {fd : ℕ} {s : GatewayState}
    (h : Lives codec server) (hid : server.ids fd = some connectionId)
    (hclosed : server'.connections = Function.update server.connections fd none)
    (hlog : acceptedIds server'.log = acceptedIds server.log)
    (hstate : server'.state = s.unbind connectionId)
    (hsound : s.Sound codec server.Connected (· ∈ acceptedIds server.log)) :
    Lives codec server' := by
  have hids : server'.ids = Function.update server.ids fd none := ids_update hclosed
  have hleft : ∀ fd' id, server'.ids fd' = some id → fd' ≠ fd ∧ server.ids fd' = some id := by
    intro fd' id h'
    rw [hids] at h'
    by_cases hfd : fd' = fd
    · rw [hfd, Function.update_self] at h'
      cases h'
    · rw [Function.update_of_ne hfd] at h'
      exact ⟨hfd, h'⟩
  refine ⟨fun fd' id h' => ?_, fun fd₁ fd₂ id h₁ h₂ => ?_, ?_⟩
  · rw [hlog]
    exact h.issued fd' id (hleft fd' id h').2
  · exact h.distinct fd₁ fd₂ id (hleft fd₁ id h₁).2 (hleft fd₂ id h₂).2
  · rw [hlog, hstate]
    refine (hsound.unbind (h.issued fd connectionId hid)).mono ?_ (fun _ hid => hid) ?_
    · rintro id ⟨⟨fd', hid'⟩, hne⟩
      refine ⟨fd', ?_⟩
      have hfd : fd' ≠ fd := by
        rintro rfl
        exact hne (Option.some.inj (hid'.symm.trans hid))
      rw [hids, Function.update_of_ne hfd, hid']
    · -- no other descriptor has the id of the closed connection
      rintro id ⟨fd', h'⟩
      obtain ⟨hfd, hid'⟩ := hleft fd' id h'
      refine .inl ⟨⟨fd', hid'⟩, ?_⟩
      rintro rfl
      exact hfd (h.distinct fd' fd id hid' hid)

/-- An event on a connection. -/
theorem Lives.ready (h : Lives codec server) (fd : ℕ) (ready : Ready) :
    Lives codec (handleEvent (gatewayHandlers codec answers) server (.ready fd ready)).2 := by
  cases hwatched : server.connections fd with
  | none =>
    rw [handleEvent, hwatched]
    exact h
  | some watched =>
    have hid : server.ids fd = some watched.id := congrArg _ hwatched
    rcases hserve : EpollTcpServer.serve (gatewayHandlers codec answers).packetHandler watched ready
      server.state with ⟨fate, passed, watched', s'⟩
    -- the handler is called for a connection that is there
    obtain ⟨hsound, hsame⟩ := serve_kept
      (fun packet s (hs : s.Sound codec server.Connected (· ∈ acceptedIds server.log)) =>
        hs.handlePacket ⟨fd, hid⟩) hserve h.sound
    have hlog := acceptedIds_passed fd server.log passed
    rw [handleEvent_ready hwatched hserve]
    by_cases hfate : fate = .closed
    · rw [if_pos hfate]
      rw [← hsame] at hid
      exact h.closed hid rfl hlog rfl hsound
    · rw [if_neg hfate]
      refine h.kept ((ids_update rfl).trans ?_) hlog hsound
      rw [Option.map_some, hsame, ← hid, Function.update_eq_self]

/-- The invariant, as long as the ids do not wrap. -/
structure Runs (codec : Codec) (server : EpollTcpServer GatewayState) : Prop where
  numbered : server.Numbered
  lives : (acceptedIds server.log).length < 2 ^ 64 → Lives codec server

theorem Runs.acceptOne (h : Runs codec server) (fd : ℕ) (peerAddress : String) (added : Bool) :
    Runs codec (acceptOne server fd peerAddress added) := by
  refine ⟨h.numbered.acceptOne, fun hids => ?_⟩
  have hlength : (acceptedIds server.log).length + 1 < 2 ^ 64 := hids
  have hnew := ofNat_succ_notMem_firstIds hlength
  rw [← h.numbered.ids, ← h.numbered.next] at hnew
  exact (h.lives (Nat.lt_of_succ_lt hlength)).acceptOne hnew fd peerAddress added

theorem Runs.accepts (h : Runs codec server) (accepts : List Accept) :
    Runs codec (acceptConnections server accepts).2 :=
  acceptConnections_invariant (fun _ fd peerAddress added h => h.acceptOne fd peerAddress added)
    accepts server h

theorem Runs.event (h : Runs codec server) (event : EpollTcpServer.Event) :
    Runs codec (handleEvent (gatewayHandlers codec answers) server event).2 := by
  cases event with
  | listening accepts => exact h.accepts accepts
  | ready fd ready =>
    refine ⟨h.numbered.ready, fun hids => ?_⟩
    rw [(handleEvent_ready_ids _ server fd ready).2] at hids
    exact (h.lives hids).ready fd ready

/-- A connection that is accepted at a free descriptor is not bound. -/
theorem Runs.accepted_unbound (h : Runs codec server) {accepts : List Accept} {fd : ℕ}
    {watched : Watched} (hfree : server.connections fd = none)
    (hwatched : (acceptConnections server accepts).2.connections fd = some watched)
    (hids : (acceptedIds (acceptConnections server accepts).2.log).length < 2 ^ 64)
    (hold : (acceptedIds server.log).length < 2 ^ 64) :
    (acceptConnections server accepts).2.state.bindings watched.id = none := by
  have hstate : (EpollTcpServer.acceptConnections server accepts).2.state = server.state := by
    let Q : EpollTcpServer GatewayState → Prop := fun later => later.state = server.state
    have hkept : ∀ later fd peerAddress added, Q later →
        Q (EpollTcpServer.acceptOne later fd peerAddress added) := fun _ _ _ _ h => h
    exact acceptConnections_invariant hkept accepts server rfl
  have hlives := (h.accepts accepts).lives hids
  rw [hstate]
  -- a binding would be that of an old connection, which is kept under its descriptor
  by_contra hbound
  obtain ⟨fd', hid⟩ := (h.lives hold).sound.bound _ hbound
  obtain ⟨old, hconnection, hsame⟩ := Option.map_eq_some_iff.mp hid
  have hkept := acceptConnections_kept accepts hconnection
  have hfd : fd' = fd :=
    hlives.distinct fd' fd watched.id ((congrArg _ hkept).trans (congrArg some hsame))
      (congrArg _ hwatched)
  rw [hfd, hfree] at hconnection
  cases hconnection

theorem Runs.initial : Runs codec { state := {} } where
  numbered := ⟨rfl, rfl⟩
  lives _ := by
    refine ⟨nofun, nofun, .start, rfl, fun _ h => absurd rfl h, ?_, ?_⟩
    · rintro _ ⟨_, h⟩
      cases h
    · rintro _ ⟨_, h⟩
      cases h

/-- **The life of a binding.** In every run of the loop in which the ids do not wrap, no id
is given out twice and only connections that are there are bound. A binding changes by a
login on its connection, by a restore while there is none, or by the end of the connection.
So a new connection is not bound, and the requests of a connection that are forwarded
between two logins are for the same session and player. -/
theorem binding_lifecycle (codec : Codec) (answers : GatewayAnswers) (rounds : List Round)
    (server : EpollTcpServer GatewayState)
    (hrun : (run (gatewayHandlers codec answers) { state := {} } rounds).2 = server)
    (hids : (acceptedIds server.log).length < 2 ^ 64) :
    (acceptedIds server.log).Nodup ∧
    (∀ id, server.state.bindings id ≠ none →
      ∃ fd watched, server.connections fd = some watched ∧ watched.id = id) ∧
    server.state.bindings = bindingsAfter server.state.history ∧
    (∀ later step earlier connectionId, server.state.history = later ++ step :: earlier →
      bindingsAfter (step :: earlier) connectionId ≠ bindingsAfter earlier connectionId →
      LogsIn codec step connectionId ∨
        (bindingsAfter earlier connectionId = none ∧ Restores step connectionId) ∨
        Disconnects step connectionId) ∧
    (∀ accepts fd watched, server.connections fd = none →
      (acceptConnections server accepts).2.connections fd = some watched →
      (acceptedIds (acceptConnections server accepts).2.log).length < 2 ^ 64 →
      (acceptConnections server accepts).2.state.bindings watched.id = none) ∧
    ∀ later second between first earlier connectionId sessionId playerId sessionId' playerId',
      server.state.history = later ++ second :: (between ++ first :: earlier) →
      (∀ step ∈ between, ¬LogsIn codec step connectionId) →
      Forwards codec first connectionId sessionId playerId →
      Forwards codec second connectionId sessionId' playerId' →
      sessionId = sessionId' ∧ playerId = playerId' := by
  have hruns : Runs codec server := by
    rw [← hrun]
    exact run_invariant (fun _ event h => h.event event) rounds _ .initial
  obtain ⟨hissued, hdistinct, hsound⟩ := hruns.lives hids
  refine ⟨?_, fun id hbound => ?_, hsound.bindings, ?_, ?_, ?_⟩
  · rw [hruns.numbered.ids]
    exact firstIds_nodup hids
  · obtain ⟨fd, hid⟩ := hsound.bound id hbound
    obtain ⟨watched, hwatched, rfl⟩ := Option.map_eq_some_iff.mp hid
    exact ⟨fd, watched, hwatched, rfl⟩
  · intro later step earlier connectionId hhistory
    have hlawful := hsound.lawful
    rw [hhistory] at hlawful
    exact hlawful.of_append.changes
  · exact fun accepts fd watched hfree hwatched hmore =>
      hruns.accepted_unbound hfree hwatched hmore hids
  · intro later second between first earlier connectionId sessionId playerId sessionId' playerId'
      hhistory hlogin hfirst hsecond
    have hlawful := hsound.lawful
    rw [hhistory] at hlawful
    exact hlawful.of_append.forwards_same hlogin hfirst hsecond

/-- The login service answers, nothing else does. -/
def demoAnswers : GatewayAnswers where
  reply
    | _, .restoreBindingFromSession _ _ => none
    | 0, .sendAndReceive _ _ =>
      .ok ⟨{ msgId := 1002, bodyLen := 78, requestId := 1 }, demoLoginResponseBody⟩
    | _ + 1, .sendAndReceive _ _ => .error "timeout"
  lookup _ sessionId playerId := by
    rw [SessionBindingAuthorizer.restoreBindingFromSession]
    split
    · exact rfl
    · exact ⟨none, trivial, rfl⟩

/-- A client logs in, enters a dungeon and goes away. -/
def demoRounds : List Round :=
  let login : Packet := ⟨{ msgId := 1001, bodyLen := 12, requestId := 1 }, demoLoginBody⟩
  let enter : Packet := ⟨{ msgId := 1201, bodyLen := 29, requestId := 2 }, demoEnterBody⟩
  [{ wait := .ready [.listening [.accepted 5 "client" true true]] },
    { wait := .ready [.ready 5 {
      readable := true
      recvs := [.bytes ⟨login.encode ++ enter.encode, by decide, by decide⟩] }] },
    { wait := .ready [.ready 5 { hangup := true }] }]

/-- The next client gets the same descriptor, another id, and no binding. -/
theorem binding_lifecycle_demo :
    ∃ server watched,
      (run (gatewayHandlers demoCodec demoAnswers) { state := {} } demoRounds).2 = server ∧
      server.state.history.length = 3 ∧
      (acceptConnections server [.accepted 5 "other" true true]).2.connections 5 = some watched ∧
      watched.id = 2 ∧
      (acceptConnections server [.accepted 5 "other" true true]).2.state.bindings watched.id =
        none := by
  obtain ⟨server, hrun⟩ : ∃ server, server =
      (run (gatewayHandlers demoCodec demoAnswers) { state := {} } demoRounds).2 := ⟨_, rfl⟩
  have hhistory : server.state.history.length = 3 := by
    rw [hrun]
    decide +kernel
  have hids : acceptedIds server.log = [1] := by
    rw [hrun]
    decide +kernel
  have hfree : server.ids 5 = none := by
    rw [hrun]
    decide +kernel
  have hid : (acceptConnections server [.accepted 5 "other" true true]).2.ids 5 = some 2 := by
    rw [hrun]
    decide +kernel
  obtain ⟨watched, hwatched, hsecond⟩ := Option.map_eq_some_iff.mp hid
  obtain ⟨-, -, -, -, hunbound, -⟩ :=
    binding_lifecycle demoCodec demoAnswers demoRounds server hrun.symm (by rw [hids]; decide)
  refine ⟨server, watched, hrun.symm, hhistory, hwatched, hsecond, ?_⟩
  refine hunbound _ 5 watched (Option.map_eq_none_iff.mp hfree) hwatched ?_
  have hnext : acceptedIds (acceptConnections server [.accepted 5 "other" true true]).2.log =
      server.nextConnectionId :: acceptedIds server.log := rfl
  have htwo : 2 < 2 ^ 64 := by decide
  rw [hnext, hids]
  exact htwo

end Loop

end GameBackend
