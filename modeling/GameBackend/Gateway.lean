import GameBackend.NetworkServers
import GameBackend.World
import Mathlib.Logic.Function.Basic

/-!
# The gateway

`GatewayServer::HandlePacket` with the `SessionBindingAuthorizer`, as a program over two
commands: looking a session up in Redis to restore a binding, and a call of an upstream
pool.

The gateway and the services behind it put the request id of the message's context into
their answers, the gateway compares the ids of the headers. So an answer carries the
request id of the client's header exactly when the context names no other
(`correlates_iff`).
-/

namespace GameBackend

/-! ## Commands -/

inductive GatewayCmd where
  /-- `RestoreBindingFromSession` -/
  | restoreBindingFromSession (sessionId : String) (playerId : ℤ)
  /-- `UpstreamClientPool::SendAndReceive` -/
  | sendAndReceive (upstream : Server) (packet : Packet)
  deriving DecidableEq, Repr

abbrev GatewayCmd.Reply : GatewayCmd → Type
  | .restoreBindingFromSession _ _ => Option (String × ℤ)
  | .sendAndReceive _ _ => Except String Packet

abbrev GatewayProgram (α : Type) : Type := Prog GatewayCmd GatewayCmd.Reply α

/-- `client_bindings_`: the session and the player of a connection. -/
abbrev Bindings : Type := UInt64 → Option (String × ℤ)

namespace SessionBindingAuthorizer

inductive Status where
  | bound
  | restored
  | invalid (reason : String)
  deriving DecidableEq, Repr

def validateOrRestore (bindings : Bindings) (connectionId : UInt64) (context : RequestContext) :
    GatewayProgram (Status × Bindings) :=
  match bindings connectionId with
  | some binding =>
    if binding.1 = context.sessionId ∧ binding.2 = context.playerId then
      return (.bound, bindings)
    else return (.invalid "connection session binding mismatch", bindings)
  | none => do
    let restoredBinding ← Prog.send (R := GatewayCmd.Reply)
      (.restoreBindingFromSession context.sessionId context.playerId)
    match restoredBinding with
    | none => return (.invalid "session restore failed", bindings)
    | some binding => return (.restored, Function.update bindings connectionId (some binding))

def bind (bindings : Bindings) (connectionId : UInt64) (sessionId : String) (playerId : ℤ) :
    Bindings :=
  Function.update bindings connectionId (some (sessionId, playerId))

def unbind (bindings : Bindings) (connectionId : UInt64) : Bindings :=
  Function.update bindings connectionId none

end SessionBindingAuthorizer

namespace GatewayServer

/-- `ResolveUpstream` -/
def resolveUpstream : MessageId → Server
  | .loginRequest => .login
  | .loadPlayerRequest => .game
  | .enterDungeonRequest => .dungeon
  | .settleDungeonRequest => .dungeon
  | _ => .login

def mapUpstreamError (errorMessage : String) : ErrorCode :=
  if errorMessage = "timeout" then .upstreamTimeout else .serviceUnavailable

/-- The answer of an upstream service is taken for that to another request. -/
def upstreamMismatch (incoming : IncomingPacket) (upstreamResponse : Packet) : Bool :=
  upstreamResponse.header.requestId != incoming.packet.header.requestId

/-- `HandlePacket` from the answer of the upstream service on. -/
def relay (codec : Codec) (bindings : Bindings) (incoming : IncomingPacket) (id : MessageId)
    (context : RequestContext) (upstreamResponse : Packet) : Packet × Bindings :=
  if upstreamMismatch incoming upstreamResponse then
    (codec.buildErrorPacket context .badGateway "upstream request_id mismatch", bindings)
  else
    match MessageId.ofInt upstreamResponse.header.msgId with
    | none =>
      (codec.buildErrorPacket context .badGateway "upstream returned unknown message id", bindings)
    | some upstreamId =>
      if upstreamId ≠ .errorResponse ∧ id.expectedResponse ≠ some upstreamId then
        (codec.buildErrorPacket context .badGateway "upstream returned unexpected response type",
          bindings)
      else if id = .loginRequest ∧ upstreamId = .loginResponse then
        match codec.parseLoginResponse upstreamResponse.body with
        | none =>
          (codec.buildErrorPacket context .badGateway "failed to parse login response", bindings)
        | some response =>
          if response.success then
            (upstreamResponse, SessionBindingAuthorizer.bind bindings incoming.connectionId
              response.sessionId response.playerId)
          else (upstreamResponse, bindings)
      else (upstreamResponse, bindings)

/-- `HandlePacket` from the checks of the session on. -/
def forward (codec : Codec) (bindings : Bindings) (incoming : IncomingPacket) (id : MessageId)
    (context : RequestContext) : GatewayProgram (Packet × Bindings) := do
  let reply ← Prog.send (R := GatewayCmd.Reply)
    (.sendAndReceive (resolveUpstream id) incoming.packet)
  match reply with
  | .error errorMessage =>
    return (codec.buildErrorPacket context (mapUpstreamError errorMessage) errorMessage, bindings)
  | .ok upstreamResponse => return relay codec bindings incoming id context upstreamResponse

def handlePacket (codec : Codec) (bindings : Bindings) (incoming : IncomingPacket) :
    GatewayProgram (Packet × Bindings) :=
  let fallback := fallbackContext "gateway" incoming
  match MessageId.ofInt incoming.packet.header.msgId with
  | none => return (codec.buildErrorPacket fallback .badGateway "unknown message id", bindings)
  | some .pingRequest => return (answerPing codec "gateway" incoming, bindings)
  | some id =>
    match codec.extractRequestContext id incoming.packet.body with
    | none =>
      return (codec.buildErrorPacket fallback .badGateway "failed to parse request context",
        bindings)
    | some parsed => do
      let context := normalizeContext "gateway" incoming parsed
      if id ≠ .loginRequest then
        match ← SessionBindingAuthorizer.validateOrRestore bindings incoming.connectionId context
        with
        | (.invalid reason, bindings) =>
          return (codec.buildErrorPacket context .sessionInvalid reason, bindings)
        | (_, bindings) => forward codec bindings incoming id context
      else forward codec bindings incoming id context

/-! ## Request ids -/

/-- The context of a message, if it can be read. -/
def requestContext (codec : Codec) (packet : Packet) : Option RequestContext :=
  (MessageId.ofInt packet.header.msgId).bind fun id => codec.extractRequestContext id packet.body

/-- A message whose context can be read names no request id there, or the one of the
header. -/
def Correlated (codec : Codec) (packet : Packet) : Prop :=
  ∀ context, requestContext codec packet = some context →
    context.requestId = 0 ∨ context.requestId = packet.header.requestId

/-- What the commands of the gateway may answer: an upstream service that answers has
processed the packet. -/
def Behaves (codec : Codec) (env : Env) : (c : GatewayCmd) → c.Reply → Prop
  | .restoreBindingFromSession _ _, _ => True
  | .sendAndReceive upstream packet, reply => ∀ answer, reply = .ok answer →
      ∃ connectionId peerAddress,
        (upstream.handlePacket codec env ⟨connectionId, packet, peerAddress⟩).Returns
          (fun _ _ => True) answer

/-- The packet the gateway returns carries the request id of the incoming packet, and it
takes no answer of the service to that packet for an answer to another request. -/
def Correlates (codec : Codec) (env : Env) (incoming : IncomingPacket) : Prop :=
  (∀ bindings response bindings',
    (handlePacket codec bindings incoming).Returns (Behaves codec env) (response, bindings') →
    response.header.requestId = incoming.packet.header.requestId) ∧
  ∀ id connectionId peerAddress answer,
    MessageId.ofInt incoming.packet.header.msgId = some id →
    (resolveUpstream id).Serves id →
    ((resolveUpstream id).handlePacket codec env
      ⟨connectionId, incoming.packet, peerAddress⟩).Returns (fun _ _ => True) answer →
    upstreamMismatch incoming answer = false

variable {codec : Codec} {env : Env} {incoming : IncomingPacket} {bindings bindings' : Bindings}
  {response : Packet}

/-- The request id that the gateway and the services answer under. -/
def usedId (codec : Codec) (packet : Packet) : UInt64 :=
  match requestContext codec packet with
  | none => packet.header.requestId
  | some context =>
    if context.requestId = 0 then packet.header.requestId else context.requestId

theorem usedId_eq_iff {packet : Packet} :
    usedId codec packet = packet.header.requestId ↔ Correlated codec packet := by
  unfold usedId Correlated
  cases requestContext codec packet with
  | none => simp
  | some context =>
    by_cases hzero : context.requestId = 0
    · simp [hzero]
    · simp [hzero]

theorem usedId_eq {packet : Packet} {id : MessageId}
    (hid : MessageId.ofInt packet.header.msgId = some id) :
    usedId codec packet = answeredId codec id packet := by
  rw [usedId, requestContext, hid, answeredId]
  rfl

/-- Relaying an answer with the request id of the context gives a packet with that id. -/
theorem relay_requestId {id : MessageId} {context : RequestContext} {upstreamResponse : Packet}
    (h : upstreamResponse.header.requestId = context.requestId) :
    (relay codec bindings incoming id context upstreamResponse).1.header.requestId =
      context.requestId := by
  unfold relay
  split_ifs with hmismatch
  · rfl
  · split
    · rfl
    · split_ifs with hexpected hlogin
      · rfl
      · split
        · rfl
        · split_ifs with hsuccess
          · exact h
          · exact h
      · exact h

/-- The services answer under the same id. -/
theorem forwarded_requestId {id : MessageId} {connectionId : UInt64} {peerAddress : String}
    {answer : Packet} (hid : MessageId.ofInt incoming.packet.header.msgId = some id)
    (hserves : (resolveUpstream id).Serves id)
    (h : ((resolveUpstream id).handlePacket codec env
      ⟨connectionId, incoming.packet, peerAddress⟩).Returns (fun _ _ => True) answer) :
    answer.header.requestId = usedId codec incoming.packet := by
  have hanswer : answer.header.requestId =
      answeredId codec id (IncomingPacket.mk connectionId incoming.packet peerAddress).packet :=
    answer_requestId hid hserves h
  rw [hanswer, usedId_eq hid]

theorem forward_requestId {id : MessageId} {context : RequestContext}
    (hid : MessageId.ofInt incoming.packet.header.msgId = some id)
    (hserves : (resolveUpstream id).Serves id)
    (hcontext : context.requestId = usedId codec incoming.packet)
    (h : (forward codec bindings incoming id context).Returns (Behaves codec env)
      (response, bindings')) :
    response.header.requestId = usedId codec incoming.packet := by
  simp only [forward, Prog.returns_bind, Prog.returns_send] at h
  obtain ⟨reply, hbehaves, hreply⟩ := h
  cases reply with
  | error message =>
    cases hreply
    exact hcontext
  | ok upstreamResponse =>
    obtain ⟨connectionId, peerAddress, hanswer⟩ := hbehaves upstreamResponse rfl
    have hused : upstreamResponse.header.requestId = context.requestId := by
      rw [hcontext]
      exact forwarded_requestId hid hserves hanswer
    have hrelay : (relay codec bindings incoming id context upstreamResponse).1.header.requestId =
        context.requestId := relay_requestId hused
    have hresult : relay codec bindings incoming id context upstreamResponse =
        (response, bindings') := hreply
    rw [hresult] at hrelay
    exact hrelay.trans hcontext

/-- The messages whose context can be read are the ping and those that are forwarded. -/
theorem serves_of_extract {id : MessageId} {body : List UInt8} {context : RequestContext}
    (h : codec.extractRequestContext id body = some context) (hping : id ≠ .pingRequest) :
    (resolveUpstream id).Serves id := by
  cases id with
  | pingRequest => exact absurd rfl hping
  | loginRequest => rfl
  | loadPlayerRequest => rfl
  | enterDungeonRequest => exact .inl rfl
  | settleDungeonRequest => exact .inr rfl
  | pingResponse => cases h
  | loginResponse => cases h
  | loadPlayerResponse => cases h
  | enterDungeonResponse => cases h
  | settleDungeonResponse => cases h
  | errorResponse => cases h

theorem answerPing_requestId (hid : MessageId.ofInt incoming.packet.header.msgId =
    some .pingRequest) (server : String) :
    (answerPing codec server incoming).header.requestId = usedId codec incoming.packet := by
  rw [usedId_eq hid]
  unfold answerPing
  cases hparse : codec.parsePingRequest incoming.packet.body with
  | none =>
    exact fallbackContext_answeredId server (by simp [Codec.extractRequestContext, hparse])
  | some request =>
    exact normalizeContext_answeredId server (by simp [Codec.extractRequestContext, hparse])

/-- What `HandlePacket` does with a message, by what can be read of it. -/
theorem handlePacket_cases (codec : Codec) (bindings : Bindings) (incoming : IncomingPacket) :
    (∃ message, requestContext codec incoming.packet = none ∧
      handlePacket codec bindings incoming = pure (codec.buildErrorPacket
        (fallbackContext "gateway" incoming) .badGateway message, bindings)) ∨
    (MessageId.ofInt incoming.packet.header.msgId = some .pingRequest ∧
      handlePacket codec bindings incoming =
        pure (answerPing codec "gateway" incoming, bindings)) ∨
    ∃ id parsed, MessageId.ofInt incoming.packet.header.msgId = some id ∧
      (resolveUpstream id).Serves id ∧
      codec.extractRequestContext id incoming.packet.body = some parsed ∧
      handlePacket codec bindings incoming =
        if id ≠ .loginRequest then
          SessionBindingAuthorizer.validateOrRestore bindings incoming.connectionId
              (normalizeContext "gateway" incoming parsed) >>= fun validated =>
            match validated with
            | (.invalid reason, bindings) =>
              pure (codec.buildErrorPacket (normalizeContext "gateway" incoming parsed)
                .sessionInvalid reason, bindings)
            | (_, bindings) =>
              forward codec bindings incoming id (normalizeContext "gateway" incoming parsed)
        else forward codec bindings incoming id (normalizeContext "gateway" incoming parsed) := by
  cases hid : MessageId.ofInt incoming.packet.header.msgId with
  | none =>
    refine .inl ⟨"unknown message id", by rw [requestContext, hid]; rfl, ?_⟩
    simp only [handlePacket, hid]
  | some id =>
    by_cases hping : id = .pingRequest
    · subst hping
      refine .inr (.inl ⟨rfl, ?_⟩)
      simp only [handlePacket, hid]
    · cases hextract : codec.extractRequestContext id incoming.packet.body with
      | none =>
        refine .inl ⟨"failed to parse request context", by rw [requestContext, hid]; exact hextract,
          ?_⟩
        rw [handlePacket, hid]
        cases id <;> first | exact absurd rfl hping | simp only [hextract]
      | some parsed =>
        refine .inr (.inr ⟨id, parsed, rfl, serves_of_extract hextract hping, hextract, ?_⟩)
        rw [handlePacket, hid]
        cases id <;> first | exact absurd rfl hping | simp only [hextract]

/-- The gateway answers under the request id of the message's context, or of the header
when the context has none or cannot be read. -/
theorem handlePacket_requestId
    (h : (handlePacket codec bindings incoming).Returns (Behaves codec env)
      (response, bindings')) :
    response.header.requestId = usedId codec incoming.packet := by
  obtain ⟨message, hnone, heq⟩ | ⟨hid, heq⟩ | ⟨id, parsed, hid, hserves, hextract, heq⟩ :=
    handlePacket_cases codec bindings incoming
  · rw [heq] at h
    cases h
    rw [usedId, hnone]
    rfl
  · rw [heq] at h
    cases h
    exact answerPing_requestId hid "gateway"
  · have hcontext : (normalizeContext "gateway" incoming parsed).requestId =
        usedId codec incoming.packet := by
      rw [usedId_eq hid]
      exact normalizeContext_answeredId "gateway" hextract
    rw [heq] at h
    split_ifs at h with hlogin
    · rw [Prog.returns_bind] at h
      obtain ⟨⟨status, bound⟩, -, hnext⟩ := h
      cases status with
      | invalid reason =>
        cases hnext
        exact hcontext
      | bound => exact forward_requestId hid hserves hcontext hnext
      | restored => exact forward_requestId hid hserves hcontext hnext
    · exact forward_requestId hid hserves hcontext h

/-- Every packet gets an answer when no upstream service does anything. -/
theorem handlePacket_returns (codec : Codec) (env : Env) (incoming : IncomingPacket) :
    ∃ response bindings', (handlePacket codec (fun _ => none) incoming).Returns
      (Behaves codec env) (response, bindings') := by
  obtain ⟨message, -, heq⟩ | ⟨-, heq⟩ | ⟨id, parsed, -, -, -, heq⟩ :=
    handlePacket_cases codec (fun _ => none) incoming
  · rw [heq]
    exact ⟨_, _, rfl⟩
  · rw [heq]
    exact ⟨_, _, rfl⟩
  · rw [heq]
    split_ifs with hlogin
    · exact ⟨_, _, none, trivial, rfl⟩
    · exact ⟨_, _, .error "timeout", (fun _ h => nomatch h), rfl⟩

/-- The answers to a packet carry its request id, and the services' answers pass for
answers to it, exactly when its context names no other request id. -/
theorem correlates_iff (codec : Codec) (env : Env) (incoming : IncomingPacket) :
    Correlates codec env incoming ↔ Correlated codec incoming.packet := by
  rw [← usedId_eq_iff]
  constructor
  · rintro ⟨hresponse, -⟩
    obtain ⟨response, bindings', hreturns⟩ := handlePacket_returns codec env incoming
    rw [← handlePacket_requestId hreturns, hresponse _ _ _ hreturns]
  · refine fun hused => ⟨fun bindings response bindings' h => ?_, ?_⟩
    · rw [handlePacket_requestId h, hused]
    · intro id connectionId peerAddress answer hid hserves hanswer
      rw [upstreamMismatch, forwarded_requestId hid hserves hanswer, hused, bne_self_eq_false]

/-- The generated code on a ping whose context names request 5, and on its answer. -/
def pingCodec : Codec where
  parsePingRequest body :=
    if body = [0x0A, 0x02, 0x10, 0x05] then some { context := { requestId := 5 } } else none
  parseLoginRequest _ := none
  parseLoadPlayerRequest _ := none
  parseEnterDungeonRequest _ := none
  parseSettleDungeonRequest _ := none
  parseLoginResponse _ := none
  serializePingResponse response :=
    if response = ⟨{ traceId := "gateway-5", requestId := 5 }, "pong"⟩ then
      [0x0A, 0x0D, 0x0A, 0x09, 0x67, 0x61, 0x74, 0x65, 0x77, 0x61, 0x79, 0x2D, 0x35, 0x10, 0x05,
        0x12, 0x04, 0x70, 0x6F, 0x6E, 0x67]
    else []
  serializeErrorResponse _ := []
  serializeLoginResponse _ := []
  serializeLoadPlayerResponse _ := []
  serializeEnterDungeonResponse _ := []
  serializeSettleDungeonResponse _ := []

/-- A ping with request id 7 in the header and 5 in the context is answered under 5. -/
theorem ping_answered_under_other_id :
    ¬Correlates pingCodec demoEnv
      ⟨1, ⟨{ msgId := 1, bodyLen := 4, requestId := 7 }, [0x0A, 0x02, 0x10, 0x05]⟩, "peer"⟩ := by
  rintro ⟨hresponse, -⟩
  exact absurd (hresponse (fun _ => none) _ _ rfl) (by decide +kernel)

end GatewayServer

end GameBackend
