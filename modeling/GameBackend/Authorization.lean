import GameBackend.Deployment
import GameBackend.Isolation

/-!
# Player authorization

A client may put any player and any battle into its packets. Whatever a service does for a
packet that a gateway has forwarded, it does for the player of the connection's binding.

* The session of a binding is one of its player (`Secure.bindings`): a login brings such a
  session, and a lookup finds no other.
* The gateway forwards a packet of a player only if its context names the session of the
  binding (`Permitted`), and this is the session that the service checks.
* What the service does, it does for the player of its session (`World.Run.custody`,
  `World.Run.isolated`). And a session id has one player.
-/

namespace GameBackend

variable {codec : Codec} {env : Env}

/-! ## What the gateway forwards -/

/-- The gateway may forward the packet of a connection with this binding: unless it is a
login, its context names the session and the player of the binding. -/
def Permitted (codec : Codec) (upstream : Server) (packet : Packet)
    (binding : Option (String × ℤ)) : Prop :=
  ∃ id parsed, MessageId.ofInt packet.header.msgId = some id ∧
    upstream = GatewayServer.resolveUpstream id ∧
    codec.extractRequestContext id packet.body = some parsed ∧
    (id ≠ .loginRequest → binding = some (parsed.sessionId, parsed.playerId))

/-- A session lookup finds the session and the player that it was asked for. -/
def GatewayCmd.Honest : (c : GatewayCmd) → c.Reply → Prop
  | .restoreBindingFromSession sessionId playerId, reply => ∀ b ∈ reply, b = (sessionId, playerId)
  | .sendAndReceive _ _, _ => True

/-- What the gateway does for a packet, and the bindings that it holds then. -/
inductive Handles (codec : Codec) (incoming : IncomingPacket) :
    Bindings → (c : GatewayCmd) → c.Reply → Bindings → Prop where
  | refused {bindings : Bindings} {sessionId : String} {playerId : ℤ} :
      Handles codec incoming bindings (.restoreBindingFromSession sessionId playerId) none bindings
  | restored {bindings : Bindings} {sessionId : String} {playerId : ℤ} {binding : String × ℤ} :
      Handles codec incoming bindings (.restoreBindingFromSession sessionId playerId) (some binding)
        (Function.update bindings incoming.connectionId (some binding))
  | failed {bindings : Bindings} {upstream : Server} {errorMessage : String}
      (permitted : Permitted codec upstream incoming.packet (bindings incoming.connectionId)) :
      Handles codec incoming bindings (.sendAndReceive upstream incoming.packet)
        (.error errorMessage) bindings
  | relayed {bindings : Bindings} {upstream : Server} {answer : Packet}
      (permitted : Permitted codec upstream incoming.packet (bindings incoming.connectionId)) :
      Handles codec incoming bindings (.sendAndReceive upstream incoming.packet) (.ok answer)
        bindings
  | bound {bindings : Bindings} {upstream : Server} {answer : Packet}
      {response : Proto.LoginResponse}
      (permitted : Permitted codec upstream incoming.packet (bindings incoming.connectionId))
      (login : MessageId.ofInt incoming.packet.header.msgId = some .loginRequest)
      (type : MessageId.ofInt answer.header.msgId = some .loginResponse)
      (parsed : codec.parseLoginResponse answer.body = some response)
      (success : response.success = true) :
      Handles codec incoming bindings (.sendAndReceive upstream incoming.packet) (.ok answer)
        (SessionBindingAuthorizer.bind bindings incoming.connectionId response.sessionId
          response.playerId)

/-- `Conducts incoming m bindings`: with these bindings the gateway handles the packet so. -/
abbrev Conducts (codec : Codec) (incoming : IncomingPacket)
    (m : GatewayProgram (Packet × Bindings)) (bindings : Bindings) : Prop :=
  Follows GatewayCmd.Honest (Handles codec incoming) (fun _ => False)
    (fun result bindings => result.2 = bindings) m bindings

variable {incoming : IncomingPacket} {bindings : Bindings}

/-- An answer is relayed, or it brings the session of a login. -/
theorem relay_cases (codec : Codec) (bindings : Bindings) (incoming : IncomingPacket)
    (id : MessageId) (context : RequestContext) (answer : Packet) :
    (GatewayServer.relay codec bindings incoming id context answer).2 = bindings ∨
      ∃ response, id = .loginRequest ∧
        MessageId.ofInt answer.header.msgId = some .loginResponse ∧
        codec.parseLoginResponse answer.body = some response ∧ response.success = true ∧
        (GatewayServer.relay codec bindings incoming id context answer).2 =
          SessionBindingAuthorizer.bind bindings incoming.connectionId response.sessionId
            response.playerId := by
  unfold GatewayServer.relay
  split
  · exact .inl rfl
  split
  · exact .inl rfl
  rename_i upstreamId hid
  split
  · exact .inl rfl
  split
  · rename_i hlogin
    obtain ⟨rfl, rfl⟩ := hlogin
    split
    · exact .inl rfl
    rename_i response hparse
    split
    · rename_i hsuccess
      exact .inr ⟨response, rfl, hid, hparse, hsuccess, rfl⟩
    · exact .inl rfl
  · exact .inl rfl

theorem forward_conducts {id : MessageId} {context : RequestContext}
    (hid : MessageId.ofInt incoming.packet.header.msgId = some id)
    (hpermitted : Permitted codec (GatewayServer.resolveUpstream id) incoming.packet
      (bindings incoming.connectionId)) :
    Conducts codec incoming (GatewayServer.forward codec bindings incoming id context)
      bindings := by
  rintro (errorMessage | answer) -
  · exact ⟨bindings, .failed hpermitted, rfl⟩
  · rcases relay_cases codec bindings incoming id context answer with
      hsame | ⟨response, rfl, htype, hparse, hsuccess, hbound⟩
    · exact ⟨bindings, .relayed hpermitted, hsame⟩
    · exact ⟨_, .bound hpermitted hid htype hparse hsuccess, hbound⟩

/-- The gateway handles every packet so. -/
theorem handlePacket_conducts (codec : Codec) (bindings : Bindings) (incoming : IncomingPacket) :
    Conducts codec incoming (GatewayServer.handlePacket codec bindings incoming) bindings := by
  obtain ⟨message, -, heq⟩ | ⟨-, heq⟩ | ⟨id, parsed, hid, -, hextract, heq⟩ :=
    GatewayServer.handlePacket_cases codec bindings incoming
  · rw [heq]
    exact rfl
  · rw [heq]
    exact rfl
  rw [heq]
  obtain ⟨hsession, hplayer⟩ := normalizeContext_session "gateway" incoming parsed
  split
  · rw [SessionBindingAuthorizer.validateOrRestore]
    cases hbinding : bindings incoming.connectionId with
    | some binding =>
      dsimp only
      split
      · rename_i hmatch
        refine forward_conducts hid ⟨id, parsed, hid, rfl, hextract, fun _ => ?_⟩
        rw [hbinding, ← hsession, ← hplayer, ← hmatch.1, ← hmatch.2]
      · exact rfl
    | none =>
      rintro (_ | binding) hhonest
      · exact ⟨bindings, .refused, rfl⟩
      · obtain rfl := hhonest binding rfl
        refine ⟨_, .restored, forward_conducts hid ⟨id, parsed, hid, rfl, hextract, fun _ => ?_⟩⟩
        rw [Function.update_self, hsession, hplayer]
  · rename_i hlogin
    exact forward_conducts hid ⟨id, parsed, hid, rfl, hextract, fun h => absurd h hlogin⟩

/-- What it holds is what it says. -/
theorem held_of_conducts {m : GatewayProgram (Packet × Bindings)} :
    ∀ {bindings : Bindings}, Conducts codec incoming m bindings → m.held = bindings := by
  induction m with
  | ret result => exact fun h => h
  | throw => exact fun h => h.elim
  | call c k ih =>
    intro bindings h
    cases c with
    | restoreBindingFromSession sessionId playerId =>
      obtain ⟨bindings', hadv, hk⟩ := h none nofun
      cases hadv
      exact ih none hk
    | sendAndReceive upstream packet =>
      obtain ⟨bindings', hadv, hk⟩ := h (.error "") trivial
      cases hadv
      exact ih (.error "") hk

/-! ## What the services make of it -/

/-- A server asks its service for a login, or for something with the session of the
message's context. -/
theorem claims_of_decode {server : Server} {request : Request} {context parsed : RequestContext}
    {id : MessageId} (h : server.decode codec incoming = .request request context)
    (hid : MessageId.ofInt incoming.packet.header.msgId = some id)
    (hparsed : codec.extractRequestContext id incoming.packet.body = some parsed) :
    (id = .loginRequest ∧ ∃ r, request = .login r) ∨
      id ≠ .loginRequest ∧ ∃ p, request.claims = some (parsed.sessionId, p) := by
  have hsession : ∀ server p, (actingPlayer p (normalizeContext server incoming parsed)).sessionId =
      parsed.sessionId := fun server p => (normalizeContext_session server incoming parsed).1
  cases server with
  | login =>
    rw [Server.decode, LoginNetworkServer.decode, hid] at h
    cases id with
    | loginRequest =>
      cases hparse : codec.parseLoginRequest incoming.packet.body with
      | none =>
        simp only [hparse] at h
        cases h
      | some r =>
        simp only [hparse] at h
        obtain ⟨rfl, -⟩ := Decoded.request.inj h
        exact .inl ⟨rfl, _, rfl⟩
    | _ => cases h
  | game =>
    rw [Server.decode, GameNetworkServer.decode, hid] at h
    cases id with
    | loadPlayerRequest =>
      rw [Codec.extractRequestContext] at hparsed
      obtain ⟨r, hparse, rfl⟩ := Option.map_eq_some_iff.mp hparsed
      simp only [hparse] at h
      obtain ⟨rfl, -⟩ := Decoded.request.inj h
      exact .inr ⟨by decide, _, by rw [Request.claims, hsession]⟩
    | _ => cases h
  | dungeon =>
    rw [Server.decode, DungeonNetworkServer.decode, hid] at h
    cases id with
    | enterDungeonRequest =>
      rw [Codec.extractRequestContext] at hparsed
      obtain ⟨r, hparse, rfl⟩ := Option.map_eq_some_iff.mp hparsed
      simp only [hparse] at h
      obtain ⟨rfl, -⟩ := Decoded.request.inj h
      exact .inr ⟨by decide, _, by rw [Request.claims, hsession]⟩
    | settleDungeonRequest =>
      rw [Codec.extractRequestContext] at hparsed
      obtain ⟨r, hparse, rfl⟩ := Option.map_eq_some_iff.mp hparsed
      simp only [hparse] at h
      obtain ⟨rfl, -⟩ := Decoded.request.inj h
      exact .inr ⟨by decide, _, by rw [Request.claims, hsession]⟩
    | _ => cases h

/-- What the login server answers at once is no login response. -/
theorem type_of_answered {packet : Packet}
    (h : LoginNetworkServer.decode codec incoming = .answer packet) :
    MessageId.ofInt packet.header.msgId ≠ some .loginResponse := by
  have herror : ∀ context code message,
      MessageId.ofInt (codec.buildErrorPacket context code message).header.msgId ≠
        some .loginResponse := by
    intro context code message
    rw [Codec.buildErrorPacket, buildPacket, MessageId.ofInt_toInt]
    decide
  have hping : MessageId.ofInt (answerPing codec "login" incoming).header.msgId ≠
      some .loginResponse := by
    unfold answerPing
    split
    · exact herror _ _ _
    · rw [Codec.buildPingResponsePacket, buildPacket, MessageId.ofInt_toInt]
      decide
  rw [LoginNetworkServer.decode] at h
  split at h
  · exact Decoded.answer.inj h ▸ herror _ _ _
  · exact Decoded.answer.inj h ▸ hping
  · split at h
    · exact Decoded.answer.inj h ▸ herror _ _ _
    · cases h
  · exact Decoded.answer.inj h ▸ herror _ _ _

/-- A login response was made of what the login service has returned. -/
theorem login_of_packet {context : RequestContext} {response : Response} {answer : Packet}
    (h : response.packet codec context = some answer)
    (htype : MessageId.ofInt answer.header.msgId = some .loginResponse) :
    ∃ result, response = .login result ∧
      answer = LoginNetworkServer.respond codec context result := by
  cases response with
  | login result => exact ⟨result, rfl, (Option.some.inj h).symm⟩
  | loadPlayer result =>
    rw [← Option.some.inj h, GameNetworkServer.respond, buildPacket, MessageId.ofInt_toInt] at htype
    cases htype
  | enterDungeon result =>
    rw [← Option.some.inj h, DungeonNetworkServer.respondEnter, buildPacket,
      MessageId.ofInt_toInt] at htype
    cases htype
  | settleDungeon result =>
    rw [← Option.some.inj h, DungeonNetworkServer.respondSettle, buildPacket,
      MessageId.ofInt_toInt] at htype
    cases htype
  | restoreBinding binding => cases h

/-! ## The invariant -/

variable {ι : Type} [DecidableEq ι] {d d' : Deployment ι} {act : Act ι} {w w' w₀ : World ι}

/-- What has become of a forwarded packet is what its server has made of it. -/
def Receipt.Of (codec : Codec) (history : List Event) (f : Forwarded) : Receipt → Prop
  | .answered packet => ∃ connectionId peerAddress,
      f.upstream.decode codec ⟨connectionId, f.packet, peerAddress⟩ = .answer packet
  | .request id context => ∃ connectionId peerAddress request,
      f.upstream.decode codec ⟨connectionId, f.packet, peerAddress⟩ = .request request context ∧
        requestOf history id = some request

/-- What the gateway is waiting for is what it has asked for. -/
def Handling.Awaits (d : Deployment ι) (handling : Handling) : Waiting → Prop
  | .nothing => True
  | .lookup id => ∃ sessionId p k,
      handling.rest = .call (.restoreBindingFromSession sessionId p) k ∧
        requestOf d.world.history id = some (.restoreBinding sessionId p)
  | .answer number => ∃ f, d.forwarded[number]? = some f ∧
      f.connectionId = handling.incoming.connectionId ∧ f.packet = handling.incoming.packet ∧
      f.binding = d.bindings f.connectionId

/-- The bindings are those of logins and of sessions, and everything that is forwarded is
forwarded for them. -/
structure Secure (codec : Codec) (d : Deployment ι) : Prop where
  bindings : ∀ c sessionId p, d.bindings c = some (sessionId, p) → SessionFor p sessionId
  handling : ∀ h, d.handling = some h →
    Conducts codec h.incoming h.rest d.bindings ∧ h.Awaits d h.waiting
  forwarded : ∀ (number : ℕ) f, d.forwarded[number]? = some f →
    Permitted codec f.upstream f.packet f.binding ∧
      ∀ sessionId p, f.binding = some (sessionId, p) → SessionFor p sessionId
  received : ∀ number receipt, d.received.lookup number = some receipt →
    ∃ f, d.forwarded[number]? = some f ∧ receipt.Of codec d.world.history f

omit [DecidableEq ι] in
theorem Secure.boot (w : World ι) : Secure codec (Deployment.boot w) where
  bindings _ _ _ h := nomatch h
  handling _ h := nomatch h
  forwarded _ _ h := by simp [Deployment.boot] at h
  received _ _ h := by simp [Deployment.boot] at h

/-- The part of the deployment that is the world runs as it does. -/
theorem Deployment.Run.world (h : Deployment.Run codec env w₀ d) :
    World.Run env (fun w l => ¬w.Fails l (.sql .rollback)) w₀ d.world := by
  have hstart : ∀ (w : World ι) i request, ¬w.Fails (.start i request) (.sql .rollback) := by
    rintro w i request ⟨j, message, hlabel, -⟩
    cases hlabel
  induction h with
  | refl => exact .refl
  | tail hr hok hs ih =>
    cases Deployment.happens_of_step hs with
    | world step => exact ih.tail hok step
    | lookUp handling step => exact ih.tail (hstart _ _ _) step
    | deliverRequest forwarded decoded step => exact ih.tail (hstart _ _ _) step
    | _ => exact ih

/-- What a request answers bears its number. -/
theorem finish_of_response {history : List Event} {id : ℕ} {response : Response}
    (h : responseOf history id = some response) :
    ∃ request, Event.finish id request response ∈ history := by
  obtain ⟨e, hmem, he⟩ := List.exists_of_findSome?_eq_some h
  split at he
  · rename_i id' request response'
    split at he
    · rename_i hid
      obtain rfl := Option.some.inj he
      exact ⟨request, hid ▸ hmem⟩
    · cases he
  · cases he

/-- The session that a login response names is the one the service has created. -/
theorem session_of_login
    (hcodec : ∀ response parsed, codec.parseLoginResponse (codec.serializeLoginResponse response) =
      some parsed → parsed = response)
    {context : RequestContext} {result : LoginResponse} {response : Proto.LoginResponse}
    (hparse : codec.parseLoginResponse (LoginNetworkServer.respond codec context result).body =
      some response) :
    response.success = result.success ∧ ∀ session, result.session = some session →
      response.sessionId = session.sessionId ∧ response.playerId = session.playerId := by
  obtain rfl := hcodec _ _ hparse
  cases hsession : result.session with
  | none => exact ⟨rfl, nofun⟩
  | some session =>
    refine ⟨rfl, fun session' hsession' => ?_⟩
    obtain rfl := Option.some.inj hsession'
    exact ⟨rfl, rfl⟩

/-- What the world must promise for the answers in its history. -/
def World.Promises (env : Env) (w : World ι) : Prop :=
  ∀ id request response, responseOf w.history id = some response →
    requestOf w.history id = some request → response.success = true →
    Vouched env.dungeonConfig w.history w.store.mysql.tables request response

omit [DecidableEq ι] in
/-- The answer to a login brings a session of its player. -/
theorem Secure.login (h : Secure codec d)
    (hcodec : ∀ response parsed, codec.parseLoginResponse (codec.serializeLoginResponse response) =
      some parsed → parsed = response)
    (hpromises : d.world.Promises env) {number : ℕ} {f : Forwarded} {answer : Packet}
    {response : Proto.LoginResponse} (hf : d.forwarded[number]? = some f)
    (hanswer : d.answerTo codec number = some answer)
    (hlogin : MessageId.ofInt f.packet.header.msgId = some .loginRequest)
    (htype : MessageId.ofInt answer.header.msgId = some .loginResponse)
    (hparse : codec.parseLoginResponse answer.body = some response)
    (hsuccess : response.success = true) : SessionFor response.playerId response.sessionId := by
  obtain ⟨⟨id, parsed, hid, hupstream, hextract, -⟩, -⟩ := h.forwarded number f hf
  obtain rfl := Option.some.inj (hlogin.symm.trans hid)
  rw [Deployment.answerTo] at hanswer
  split at hanswer
  · rename_i packet hlookup
    obtain rfl := Option.some.inj hanswer
    obtain ⟨f', hf', connectionId, peerAddress, hdecode⟩ :=
      h.received number _ hlookup
    obtain rfl := Option.some.inj (hf.symm.trans hf')
    rw [hupstream] at hdecode
    exact absurd htype (type_of_answered hdecode)
  · rename_i number' context hlookup
    obtain ⟨f', hf', connectionId, peerAddress, request, hdecode, hrequest⟩ :=
      h.received number _ hlookup
    obtain rfl := Option.some.inj (hf.symm.trans hf')
    obtain ⟨response', hresponse, hpacket⟩ := Option.bind_eq_some_iff.mp hanswer
    obtain ⟨result, rfl, rfl⟩ := login_of_packet hpacket htype
    obtain ⟨hsame, hsession⟩ := session_of_login hcodec hparse
    obtain ⟨-, r, rfl⟩ | ⟨hne, -⟩ := claims_of_decode hdecode hid hextract
    · obtain ⟨session, hcreated, hfor⟩ :=
        (hpromises _ _ _ hresponse hrequest (hsame.symm.trans hsuccess)).belongs
      obtain ⟨hid, hp⟩ := hsession session hcreated
      rw [hid, hp]
      exact hfor
    · exact absurd rfl hne
  · cases hanswer

/-! ### Steps -/

/-- The bindings after one of them is set or removed. -/
theorem sessionFor_update {connectionId : UInt64} {binding : Option (String × ℤ)}
    (h : ∀ c sessionId p, bindings c = some (sessionId, p) → SessionFor p sessionId)
    (hnew : ∀ sessionId p, binding = some (sessionId, p) → SessionFor p sessionId) :
    ∀ c sessionId p, Function.update bindings connectionId binding c = some (sessionId, p) →
      SessionFor p sessionId := by
  intro c sessionId p hc
  by_cases hconnection : c = connectionId
  · subst hconnection
    rw [Function.update_self] at hc
    exact hnew sessionId p hc
  · rw [Function.update_of_ne hconnection] at hc
    exact h c sessionId p hc

/-- What has become of a packet does not change. -/
theorem Receipt.Of.mono {history history' : List Event} {f : Forwarded} {receipt : Receipt}
    (hkeep : ∀ id request, requestOf history id = some request →
      requestOf history' id = some request)
    (h : receipt.Of codec history f) : receipt.Of codec history' f := by
  cases receipt with
  | answered packet => exact h
  | request id context =>
    obtain ⟨connectionId, peerAddress, request, hdecode, hrequest⟩ := h
    exact ⟨connectionId, peerAddress, request, hdecode, hkeep id request hrequest⟩

omit [DecidableEq ι] in
/-- A step of the world leaves the gateway secure. -/
theorem Secure.world (h : Secure codec d) (hkeep : ∀ id request,
      requestOf d.world.history id = some request → requestOf w.history id = some request) :
    Secure codec { d with world := w } where
  bindings := h.bindings
  handling handling hh := by
    obtain ⟨hconducts, hawaits⟩ := h.handling handling hh
    refine ⟨hconducts, ?_⟩
    generalize handling.waiting = waiting at hawaits
    cases waiting with
    | nothing => trivial
    | lookup id =>
      obtain ⟨sessionId, p, k, hrest, hrequest⟩ := hawaits
      exact ⟨sessionId, p, k, hrest, hkeep id _ hrequest⟩
    | answer number => exact hawaits
  forwarded := h.forwarded
  received number receipt hlookup := by
    obtain ⟨f, hf, hof⟩ := h.received number receipt hlookup
    exact ⟨f, hf, hof.mono hkeep⟩

omit [DecidableEq ι] in
/-- The gateway goes on after an answer. -/
theorem Secure.goOn (h : Secure codec d) {c : GatewayCmd}
    {k : c.Reply → GatewayProgram (Packet × Bindings)} {waiting : Waiting}
    (hhandling : d.handling = some ⟨incoming, .call c k, waiting⟩) {r : c.Reply}
    (hhonest : c.Honest r)
    (hfor : ∀ bindings, Handles codec incoming d.bindings c r bindings →
      ∀ connectionId sessionId p, bindings connectionId = some (sessionId, p) →
        SessionFor p sessionId) : Secure codec (d.goOn incoming (k r)) := by
  obtain ⟨bindings, hadv, hk⟩ := (h.handling _ hhandling).1 r hhonest
  have hheld : (k r).held = bindings := held_of_conducts hk
  refine ⟨fun connectionId sessionId p hbinding => ?_, fun handling hh => ?_, h.forwarded,
    h.received⟩
  · exact hfor bindings hadv connectionId sessionId p (hheld ▸ hbinding)
  · obtain rfl := Option.some.inj hh
    refine ⟨?_, trivial⟩
    change Conducts codec incoming (k r) (k r).held
    rw [hheld]
    exact hk

omit [DecidableEq ι] in
/-- A packet that was forwarded is received. -/
theorem Secure.receipt (h : Secure codec d) {number : ℕ} {f : Forwarded} {receipt : Receipt}
    (hf : d.forwarded[number]? = some f) (hof : receipt.Of codec d.world.history f) :
    Secure codec { d with received := (number, receipt) :: d.received } := by
  refine ⟨h.bindings, h.handling, h.forwarded, fun number' receipt' hlookup => ?_⟩
  rw [List.lookup_cons] at hlookup
  split at hlookup
  · rename_i hnumber
    obtain rfl := eq_of_beq hnumber
    obtain rfl := Option.some.inj hlookup
    exact ⟨f, hf, hof⟩
  · exact h.received number' receipt' hlookup

omit [DecidableEq ι] in
/-- A lookup comes to its end. It finds the session and the player it was asked for. -/
theorem Secure.lookedUp (h : Secure codec d) (hpromises : d.world.Promises env)
    {sessionId : String} {p : ℤ} {k : Option (String × ℤ) → GatewayProgram (Packet × Bindings)}
    {id : ℕ} {binding : Option (String × ℤ)} (hhandling : d.handling = some
      ⟨incoming, .call (.restoreBindingFromSession sessionId p) k, .lookup id⟩)
    (hresponse : responseOf d.world.history id = some (.restoreBinding binding)) :
    Secure codec (d.goOn incoming (k binding)) := by
  obtain ⟨_, _, _, hrest, hrequest⟩ := (h.handling _ hhandling).2
  cases hrest
  have hfound : ∀ b, binding = some b → b = (sessionId, p) ∧ SessionFor p sessionId := by
    rintro b rfl
    have hvouched := hpromises id _ _ hresponse hrequest rfl
    exact ⟨Option.some.inj hvouched.belongs, hvouched.session sessionId p rfl⟩
  refine h.goOn hhandling (fun b hb => (hfound b hb).1) fun bindings hadv => ?_
  cases hadv with
  | refused => exact h.bindings
  | restored =>
    refine sessionFor_update h.bindings fun sessionId' p' heq => ?_
    obtain ⟨hb, hfor⟩ := hfound _ heq
    cases hb
    exact hfor

omit [DecidableEq ι] in
/-- The gateway forwards the packet it works on. -/
theorem Secure.send (h : Secure codec d) {upstream : Server} {packet : Packet}
    {k : Except String Packet → GatewayProgram (Packet × Bindings)}
    (hhandling : d.handling = some
      ⟨incoming, .call (.sendAndReceive upstream packet) k, .nothing⟩) :
    Secure codec { d with
      forwarded := d.forwarded ++
        [⟨incoming.connectionId, upstream, packet, d.bindings incoming.connectionId⟩]
      handling := some ⟨incoming, .call (.sendAndReceive upstream packet) k,
        .answer d.forwarded.length⟩ } := by
  have hconducts : Conducts codec incoming (.call (.sendAndReceive upstream packet) k)
      d.bindings := (h.handling _ hhandling).1
  obtain ⟨hpacket, hpermitted⟩ : packet = incoming.packet ∧
      Permitted codec upstream incoming.packet (d.bindings incoming.connectionId) := by
    obtain ⟨bindings, hadv, -⟩ := hconducts (.error "") trivial
    cases hadv with
    | failed permitted => exact ⟨rfl, permitted⟩
  refine ⟨h.bindings, fun handling' hh => ?_, fun number f hf => ?_,
    fun number receipt hlookup => ?_⟩
  · obtain rfl := Option.some.inj hh
    refine ⟨hconducts, ⟨_, upstream, packet, d.bindings incoming.connectionId⟩, ?_, rfl, hpacket,
      rfl⟩
    rw [List.getElem?_append_right (le_refl _), Nat.sub_self]
    rfl
  · rw [List.getElem?_append] at hf
    split at hf
    · exact h.forwarded number f hf
    · obtain rfl := List.mem_singleton.mp (List.mem_of_getElem? hf)
      exact ⟨hpacket ▸ hpermitted, h.bindings _⟩
  · obtain ⟨f, hf, hof⟩ := h.received number receipt hlookup
    exact ⟨f, by rw [List.getElem?_append_left (List.getElem?_eq_some_iff.mp hf).1, hf], hof⟩

theorem Secure.step (h : Secure codec d)
    (hcodec : ∀ response parsed, codec.parseLoginResponse (codec.serializeLoginResponse response) =
      some parsed → parsed = response)
    (hrecorded : Recorded d.world) (hpromises : d.world.Promises env)
    (hs : d.Happens codec env act d') : Secure codec d' := by
  have hkeep : ∀ {l w}, d.world.step env l = some w → ∀ id request,
      requestOf d.world.history id = some request → requestOf w.history id = some request :=
    fun hstep id request => requestOf_step hrecorded hstep
  -- a request is noted under the number of the events before it
  have hnew : ∀ {i request w}, d.world.step env (.start i request) = some w →
      requestOf w.history d.world.history.length = some request := by
    intro i request w hstep
    cases does_of_step hstep with
    | start idle => simp [requestOf]
  cases hs with
  | world step => exact h.world (hkeep step)
  | receive idle =>
    refine ⟨h.bindings, fun handling hh => ?_, h.forwarded, h.received⟩
    obtain rfl := Option.some.inj hh
    exact ⟨handlePacket_conducts codec d.bindings _, trivial⟩
  | lookUp handling step =>
    have hworld := h.world (hkeep step)
    refine ⟨hworld.bindings, fun handling' hh => ?_, hworld.forwarded, hworld.received⟩
    obtain rfl := Option.some.inj hh
    exact ⟨(h.handling _ handling).1, _, _, _, rfl, hnew step⟩
  | lookedUp handling response => exact h.lookedUp hpromises handling response
  | send handling => exact h.send handling
  | deliverAnswered forwarded decoded => exact h.receipt forwarded ⟨_, _, decoded⟩
  | deliverRequest forwarded decoded step =>
    exact (h.world (hkeep step)).receipt forwarded ⟨_, _, _, decoded, hnew step⟩
  | answered handling there =>
    rename_i incoming upstream packet answer k number
    obtain ⟨f, hf, -, hpacket, -⟩ := (h.handling _ handling).2
    refine h.goOn handling trivial fun bindings hadv => ?_
    cases hadv with
    | relayed permitted => exact h.bindings
    | bound permitted login type parsed success =>
      -- the new binding is what the login service has answered
      refine sessionFor_update h.bindings fun sessionId p heq => ?_
      cases heq
      exact h.login hcodec hpromises hf there (hpacket ▸ login) type parsed success
  | failed handling =>
    refine h.goOn handling trivial fun bindings hadv => ?_
    cases hadv with
    | failed permitted => exact h.bindings
  | reply => exact ⟨h.bindings, fun _ hh => (by cases hh), h.forwarded, h.received⟩
  | disconnect idle =>
    refine ⟨sessionFor_update h.bindings fun _ _ hb => (by cases hb), fun handling hh => ?_,
      h.forwarded, h.received⟩
    cases idle.symm.trans hh
  | restart =>
    exact ⟨fun _ _ _ hb => (by cases hb), fun _ hh => (by cases hh), h.forwarded, h.received⟩

/-! ## Authorization -/

/-- The world keeps its promises. -/
theorem World.Run.promises {ok : World ι → Label ι → Prop} (hw₀ : w₀.Fresh)
    (hsessions : ∀ sessionId, w₀.store.redis.live (.session sessionId) = none)
    (hsnapshots : ∀ p, w₀.store.redis.live (.playerSnapshot p) = none)
    (hroll : ∀ w l, ok w l → ¬w.Fails l (.sql .rollback)) (h : World.Run env ok w₀ w) :
    w.Promises env := by
  obtain ⟨φ, -, -, hcustody⟩ := World.Run.custody hw₀ hsessions hsnapshots hroll h
  intro id request response hresponse hrequest hsuccess
  obtain ⟨request', hmem⟩ := finish_of_response hresponse
  obtain rfl := Option.some.inj ((World.Run.finished hw₀ h hmem).symm.trans hrequest)
  exact hcustody.vouched id request' response hmem hsuccess

theorem Deployment.Run.secure
    (hcodec : ∀ response parsed, codec.parseLoginResponse (codec.serializeLoginResponse response) =
      some parsed → parsed = response) (hw₀ : w₀.Fresh)
    (hsessions : ∀ sessionId, w₀.store.redis.live (.session sessionId) = none)
    (hsnapshots : ∀ p, w₀.store.redis.live (.playerSnapshot p) = none)
    (h : Deployment.Run codec env w₀ d) : Secure codec d := by
  refine h.invariant (.boot w₀) fun d act d' hr hI _ hs => ?_
  have hworld := Deployment.Run.world hr
  exact hI.step hcodec (World.Run.recorded hw₀ hworld)
    (World.Run.promises hw₀ hsessions hsnapshots (fun _ _ hok => hok) hworld)
    (Deployment.happens_of_step hs)

/-- The request with this number is served for player `p`: what it returns with success is
data of the player, and its steps change nothing of anybody else. -/
structure ServedFor (env : Env) (w : World ι) (id : ℕ) (p : ℤ) : Prop where
  returned : ∀ request response, Event.finish id request response ∈ w.history →
    response.success = true → (∃ sessionId, request.claims = some (sessionId, p)) ∧
      Belongs env.dungeonConfig w.history w.store.mysql.tables request response
  changed : ∀ i fault task w', w.tasks i = some task → task.id = id →
    ¬w.Fails (.exec i fault) (.sql .rollback) → w.step env (.exec i fault) = some w' →
    ∀ q, q ≠ p → w.store.SameFor q w'.store

/-- The messages of a player. -/
def MessageId.ofPlayer : List MessageId :=
  [.loadPlayerRequest, .enterDungeonRequest, .settleDungeonRequest]

/-- **Player authorization.** In every run of a deployment that starts without sessions and
snapshots, and in which no `ROLLBACK` fails: whatever a client has put into a message, the
request that becomes of it is served for the player of the binding that the gateway holds
for the connection when it forwards the message, and until it has the answer. -/
theorem player_authorization
    (hcodec : ∀ response parsed, codec.parseLoginResponse (codec.serializeLoginResponse response) =
      some parsed → parsed = response) (hw₀ : w₀.Fresh)
    (hsessions : ∀ sessionId, w₀.store.redis.live (.session sessionId) = none)
    (hsnapshots : ∀ p, w₀.store.redis.live (.playerSnapshot p) = none)
    (h : Deployment.Run codec env w₀ d) {number : ℕ} {f : Forwarded} {message : MessageId}
    (hf : d.forwarded[number]? = some f)
    (hid : MessageId.ofInt f.packet.header.msgId = some message)
    (hmessage : message ∈ MessageId.ofPlayer) {id : ℕ} {context : RequestContext}
    (hreceived : d.received.lookup number = some (.request id context)) :
    ∃ sessionId p, f.binding = some (sessionId, p) ∧
      (∀ handling, d.handling = some handling → handling.waiting = .answer number →
        d.bindings f.connectionId = f.binding) ∧
      ServedFor env d.world id p := by
  have hworld := Deployment.Run.world h
  have hsecure := Deployment.Run.secure hcodec hw₀ hsessions hsnapshots h
  obtain ⟨f', hf', connectionId, peerAddress, request, hdecode, hrequest⟩ :=
    hsecure.received number _ hreceived
  obtain rfl := Option.some.inj (hf.symm.trans hf')
  obtain ⟨⟨message', parsed, hid', -, hextract, hbinding⟩, hfor⟩ := hsecure.forwarded number f hf
  obtain rfl := Option.some.inj (hid.symm.trans hid')
  have hlogin : message ≠ .loginRequest := by
    rintro rfl
    exact absurd hmessage (by decide)
  -- the session of the request is the one of the binding
  obtain ⟨rfl, -⟩ | ⟨-, p', hclaims⟩ := claims_of_decode hdecode hid hextract
  · exact absurd rfl hlogin
  have hsession := hfor _ _ (hbinding hlogin)
  refine ⟨_, _, hbinding hlogin, fun handling hh hwaiting => ?_, ?_, ?_⟩
  · have hawaits := (hsecure.handling handling hh).2
    rw [hwaiting] at hawaits
    obtain ⟨f', hf', -, -, heq⟩ := hawaits
    obtain rfl := Option.some.inj (hf.symm.trans hf')
    exact heq.symm
  · intro request' response hmem hsuccess
    obtain rfl := Option.some.inj ((World.Run.finished hw₀ hworld hmem).symm.trans hrequest)
    obtain ⟨φ, -, -, hcustody⟩ :=
      World.Run.custody hw₀ hsessions hsnapshots (fun _ _ hok => hok) hworld
    have hvouched := hcustody.vouched id request' response hmem hsuccess
    -- a session is for one player, whom the message cannot choose
    obtain rfl := (hvouched.session _ _ hclaims).unique hsession
    exact ⟨⟨_, hclaims⟩, hvouched.belongs⟩
  · intro i fault task w' hi hnumber hroll hs q hq
    have hstarted := (World.Run.scoped hw₀ hworld).started i task hi
    rw [hnumber] at hstarted
    obtain rfl := Option.some.inj (hstarted.symm.trans hrequest)
    exact World.Run.isolated hw₀ hsessions hsnapshots (fun _ _ hok => hok) hworld hi hclaims
      hsession hroll hs hq

/-! ## A run -/

/-- `LoginRequest` of the demo account. -/
def demoLoginBody : List UInt8 :=
  [0x12, 0x04, 0x64, 0x65, 0x6D, 0x6F, 0x1A, 0x04, 0x64, 0x65, 0x6D, 0x6F]

/-- `sess-10001-20001-1` -/
def demoSessionBytes : List UInt8 :=
  [0x73, 0x65, 0x73, 0x73, 0x2D, 0x31, 0x30, 0x30, 0x30, 0x31, 0x2D, 0x32, 0x30, 0x30, 0x30, 0x31,
    0x2D, 0x31]

/-- The answer to the login. -/
def demoLoginResponse : Proto.LoginResponse where
  context := ⟨"login-1", 1, "sess-10001-20001-1", 20001⟩
  success := true
  errorCode := 0
  errorName := "OK"
  errorMessage := ""
  sessionId := "sess-10001-20001-1"
  accountId := 10001
  playerId := 20001

def demoLoginResponseBody : List UInt8 :=
  [0x0A, 0x23, 0x0A, 0x07, 0x6C, 0x6F, 0x67, 0x69, 0x6E, 0x2D, 0x31, 0x10, 0x01, 0x1A, 0x12] ++
    demoSessionBytes ++ [0x20, 0xA1, 0x9C, 0x01, 0x10, 0x01, 0x22, 0x02, 0x4F, 0x4B, 0x32, 0x12] ++
    demoSessionBytes ++ [0x38, 0x91, 0x4E, 0x40, 0xA1, 0x9C, 0x01]

/-- `EnterDungeonRequest` with the session in its context. -/
def demoEnterBody : List UInt8 :=
  [0x0A, 0x18, 0x1A, 0x12] ++ demoSessionBytes ++ [0x20, 0xA1, 0x9C, 0x01, 0x18, 0xE9, 0x07]

/-- The generated code on these messages. -/
def demoCodec : Codec where
  parsePingRequest _ := none
  parseLoginRequest body :=
    if body = demoLoginBody then some { accountName := "demo", password := "demo" } else none
  parseLoadPlayerRequest _ := none
  parseEnterDungeonRequest body :=
    if body = demoEnterBody then
      some {
        context := { sessionId := "sess-10001-20001-1", playerId := 20001 }
        dungeonId := 1001 }
    else none
  parseSettleDungeonRequest _ := none
  parseLoginResponse body := if body = demoLoginResponseBody then some demoLoginResponse else none
  serializePingResponse _ := []
  serializeErrorResponse _ := []
  serializeLoginResponse response :=
    if response = demoLoginResponse then demoLoginResponseBody else []
  serializeLoadPlayerResponse _ := []
  serializeEnterDungeonResponse _ := []
  serializeSettleDungeonResponse _ := []

theorem demoCodec_login (response parsed : Proto.LoginResponse)
    (h : demoCodec.parseLoginResponse (demoCodec.serializeLoginResponse response) = some parsed) :
    parsed = response := by
  simp only [demoCodec] at h
  by_cases hresponse : response = demoLoginResponse
  · rw [if_pos hresponse, if_pos rfl] at h
    exact (Option.some.inj h).symm.trans hresponse.symm
  · rw [if_neg hresponse, if_neg (by decide)] at h
    cases h

/-- The steps in which no command fails. -/
def Act.faultless {ι : Type} : Act ι → Bool
  | .world l => l.faultless
  | _ => true

theorem Act.rollsBack_of_faultless {ι : Type} (d : Deployment ι) {act : Act ι}
    (h : act.faultless = true) : d.RollsBack act := by
  cases act with
  | world l => exact Label.not_fails h _
  | _ => trivial

/-- A client logs in and enters a dungeon. -/
def demoActs : List (Act Bool) :=
  [.receive ⟨1, ⟨{ msgId := 1001, bodyLen := 12, requestId := 1 }, demoLoginBody⟩, "client"⟩, .send,
    .deliver 0 false 7 "gateway"] ++
  List.replicate 9 (.world (.exec false none)) ++ [.world (.finish false), .answered, .reply] ++
  [.receive ⟨1, ⟨{ msgId := 1201, bodyLen := 29, requestId := 2 }, demoEnterBody⟩, "client"⟩, .send,
    .deliver 1 true 8 "gateway"] ++
  List.replicate 18 (.world (.exec true none)) ++ [.world (.finish true)]

/-- The packet of the second request, and the binding it was forwarded with. -/
def Deployment.entering (d : Deployment Bool) : Bool :=
  match d.forwarded[1]?, d.received.lookup 1 with
  | some f, some (.request id _) =>
    id = 11 ∧ MessageId.ofInt f.packet.header.msgId = some .enterDungeonRequest ∧
      f.binding = some ("sess-10001-20001-1", 20001)
  | _, _ => false

/-- The second request is served with success for the player who has logged in. -/
theorem player_authorization_demo :
    ∃ d : Deployment Bool, Deployment.Run demoCodec demoEnv emptyWorld d ∧
      (responseOf d.world.history 11).any Response.success = true ∧
      ServedFor demoEnv d.world 11 20001 := by
  have hrun : (replay (Deployment.step demoCodec demoEnv) (fun _ act => act.faultless)
      (.boot emptyWorld) demoActs).any (fun d => d.entering &&
        (responseOf d.world.history 11).any Response.success) = true := by
    decide +kernel
  obtain ⟨d, hreach, hend⟩ : ∃ d, Deployment.Run demoCodec demoEnv emptyWorld d ∧
      (d.entering && (responseOf d.world.history 11).any Response.success) = true :=
    Reach.of_replay_any (fun d act h => Act.rollsBack_of_faultless d h) hrun
  obtain ⟨hentering, hsuccess⟩ := Bool.and_eq_true_iff.mp hend
  rw [Deployment.entering] at hentering
  split at hentering
  · rename_i f id context hf hreceived
    obtain ⟨rfl, hid, hbinding⟩ := of_decide_eq_true hentering
    obtain ⟨sessionId, p, hb, -, hserved⟩ := player_authorization demoCodec_login
      (World.fresh_boot rfl fun _ => rfl) (fun _ => rfl) (fun _ => rfl) hreach hf hid (by decide)
      hreceived
    obtain ⟨-, rfl⟩ := Prod.mk.inj (Option.some.inj (hbinding.symm.trans hb))
    exact ⟨d, hreach, hsuccess, hserved⟩
  · cases hentering

end GameBackend
