import GameBackend.Messages

/-!
# The network servers

`LoginNetworkServer`, `GameNetworkServer` and `DungeonNetworkServer`: how a packet
becomes a request of the service behind them, and its result a packet.

Whatever the service does, the answer carries the request id of the message's context,
or that of the packet's header when the context has none (`answer_requestId`).
-/

namespace GameBackend

/-- The answer of every server to a ping. -/
def answerPing (codec : Codec) (server : String) (incoming : IncomingPacket) : Packet :=
  match codec.parsePingRequest incoming.packet.body with
  | none =>
    codec.buildErrorPacket (fallbackContext server incoming) .badGateway "invalid ping request"
  | some request =>
    codec.buildPingResponsePacket (normalizeContext server incoming request.context) "pong"

/-- The player a message acts on: its own, or else that of its context. -/
def actingPlayer (playerId : ℤ) (context : RequestContext) : RequestContext :=
  { context with playerId := if playerId ≠ 0 then playerId else context.playerId }

namespace LoginNetworkServer

def respond (codec : Codec) (context : RequestContext) (result : LoginResponse) : Packet :=
  let responseContext := { context with
    sessionId := (result.session.map Session.sessionId).getD ""
    playerId := result.defaultPlayerId }
  let response : Proto.LoginResponse := {
    context := responseContext
    success := result.success
    errorCode := result.errorCode.toInt
    errorName := result.errorCode.name
    errorMessage := result.errorMessage
    playerId := result.defaultPlayerId }
  let response :=
    match result.session with
    | some session => { response with
        sessionId := session.sessionId
        accountId := session.accountId
        playerId := session.playerId
        createdAtEpochSeconds := session.createdAtEpochSeconds }
    | none => response
  buildPacket .loginResponse context.requestId (codec.serializeLoginResponse response)

def handlePacket (codec : Codec) (env : Env) (incoming : IncomingPacket) : Program Packet :=
  let fallback := fallbackContext "login" incoming
  match MessageId.ofInt incoming.packet.header.msgId with
  | none => return codec.buildErrorPacket fallback .badGateway "unknown message id"
  | some .pingRequest => return answerPing codec "login" incoming
  | some .loginRequest =>
    match codec.parseLoginRequest incoming.packet.body with
    | none => return codec.buildErrorPacket fallback .badGateway "invalid login request"
    | some request => do
      let context := normalizeContext "login" incoming request.context
      let result ← LoginService.login env ⟨request.accountName, request.password⟩
      return respond codec context result
  | some _ =>
    return codec.buildErrorPacket fallback .badGateway "message not supported by login_server"

end LoginNetworkServer

namespace GameNetworkServer

def respond (codec : Codec) (context : RequestContext) (result : LoadPlayerResponse) : Packet :=
  let response : Proto.LoadPlayerResponse := {
    context := context
    success := result.success
    errorCode := result.errorCode.toInt
    errorName := result.errorCode.name
    errorMessage := result.errorMessage
    playerState := if result.success then result.playerState else none
    loadedFromCache := result.loadedFromCache }
  buildPacket .loadPlayerResponse context.requestId (codec.serializeLoadPlayerResponse response)

def handlePacket (codec : Codec) (env : Env) (incoming : IncomingPacket) : Program Packet :=
  let fallback := fallbackContext "game" incoming
  match MessageId.ofInt incoming.packet.header.msgId with
  | none => return codec.buildErrorPacket fallback .badGateway "unknown message id"
  | some .pingRequest => return answerPing codec "game" incoming
  | some .loadPlayerRequest =>
    match codec.parseLoadPlayerRequest incoming.packet.body with
    | none => return codec.buildErrorPacket fallback .badGateway "invalid load player request"
    | some request => do
      let context :=
        actingPlayer request.playerId (normalizeContext "game" incoming request.context)
      let result ← PlayerService.loadPlayer env ⟨context.sessionId, context.playerId⟩
      return respond codec context result
  | some _ =>
    return codec.buildErrorPacket fallback .badGateway "message not supported by game_server"

end GameNetworkServer

namespace DungeonNetworkServer

def respondEnter (codec : Codec) (context : RequestContext) (result : EnterDungeonResponse) :
    Packet :=
  let response : Proto.EnterDungeonResponse := {
    context := context
    success := result.success
    errorCode := result.errorCode.toInt
    errorName := result.errorCode.name
    errorMessage := result.errorMessage
    battleId := result.battleId
    remainStamina := result.remainStamina }
  buildPacket .enterDungeonResponse context.requestId
    (codec.serializeEnterDungeonResponse response)

def respondSettle (codec : Codec) (context : RequestContext) (result : SettleDungeonResponse) :
    Packet :=
  let response : Proto.SettleDungeonResponse := {
    context := context
    success := result.success
    errorCode := result.errorCode.toInt
    errorName := result.errorCode.name
    errorMessage := result.errorMessage
    firstClear := result.firstClear
    rewards := result.rewards }
  buildPacket .settleDungeonResponse context.requestId
    (codec.serializeSettleDungeonResponse response)

def handlePacket (codec : Codec) (env : Env) (incoming : IncomingPacket) : Program Packet :=
  let fallback := fallbackContext "dungeon" incoming
  match MessageId.ofInt incoming.packet.header.msgId with
  | none => return codec.buildErrorPacket fallback .badGateway "unknown message id"
  | some .pingRequest => return answerPing codec "dungeon" incoming
  | some .enterDungeonRequest =>
    match codec.parseEnterDungeonRequest incoming.packet.body with
    | none => return codec.buildErrorPacket fallback .badGateway "invalid enter dungeon request"
    | some request => do
      let context :=
        actingPlayer request.playerId (normalizeContext "dungeon" incoming request.context)
      let result ← DungeonService.enterDungeon env
        ⟨context.sessionId, context.playerId, request.dungeonId⟩
      return respondEnter codec context result
  | some .settleDungeonRequest =>
    match codec.parseSettleDungeonRequest incoming.packet.body with
    | none => return codec.buildErrorPacket fallback .badGateway "invalid settle dungeon request"
    | some request => do
      let context :=
        actingPlayer request.playerId (normalizeContext "dungeon" incoming request.context)
      let result ← DungeonService.settleDungeon env
        ⟨context.sessionId, context.playerId, request.battleId, request.dungeonId, request.star,
          request.result⟩
      return respondSettle codec context result
  | some _ =>
    return codec.buildErrorPacket fallback .badGateway "message not supported by dungeon_server"

end DungeonNetworkServer

/-! ## The servers behind the gateway -/

inductive Server where
  | login
  | game
  | dungeon
  deriving DecidableEq, Repr

namespace Server

def handlePacket (codec : Codec) (env : Env) : Server → IncomingPacket → Program Packet
  | login => LoginNetworkServer.handlePacket codec env
  | game => GameNetworkServer.handlePacket codec env
  | dungeon => DungeonNetworkServer.handlePacket codec env

/-- The messages that a server answers by its service. -/
def Serves : Server → MessageId → Prop
  | login, id => id = .loginRequest
  | game, id => id = .loadPlayerRequest
  | dungeon, id => id = .enterDungeonRequest ∨ id = .settleDungeonRequest

end Server

variable {codec : Codec} {env : Env} {incoming : IncomingPacket} {answer : Packet}
  {Ok : (c : Cmd) → c.Reply → Prop}

/-- The request id that a message is answered under. -/
def answeredId (codec : Codec) (id : MessageId) (packet : Packet) : UInt64 :=
  match codec.extractRequestContext id packet.body with
  | none => packet.header.requestId
  | some context =>
    if context.requestId = 0 then packet.header.requestId else context.requestId

/-- It is the one of the normalized context. -/
theorem normalizeContext_answeredId {id : MessageId} {context : RequestContext} (server : String)
    (h : codec.extractRequestContext id incoming.packet.body = some context) :
    (normalizeContext server incoming context).requestId =
      answeredId codec id incoming.packet := by
  rw [answeredId, h, normalizeContext_requestId]

theorem fallbackContext_answeredId {id : MessageId} (server : String)
    (h : codec.extractRequestContext id incoming.packet.body = none) :
    (fallbackContext server incoming).requestId = answeredId codec id incoming.packet := by
  rw [answeredId, h, fallbackContext_requestId]

/-- The request id that a message is answered under, by whether it can be parsed. -/
theorem answeredId_cases {α : Type} {id : MessageId} {parsed : Option α}
    {context : α → RequestContext} (server : String)
    (h : codec.extractRequestContext id incoming.packet.body = parsed.map context) :
    (parsed = none ∧
      answeredId codec id incoming.packet = (fallbackContext server incoming).requestId) ∨
    ∃ request, parsed = some request ∧ answeredId codec id incoming.packet =
      (normalizeContext server incoming (context request)).requestId := by
  cases parsed with
  | none => exact .inl ⟨rfl, (fallbackContext_answeredId server h).symm⟩
  | some request => exact .inr ⟨request, rfl, (normalizeContext_answeredId server h).symm⟩

/-- Whatever its service does, a server answers under the request id of the message's
context, or of the header when the context has none or cannot be read. -/
theorem answer_requestId {server : Server} {id : MessageId}
    (hid : MessageId.ofInt incoming.packet.header.msgId = some id) (hserves : server.Serves id)
    (h : (server.handlePacket codec env incoming).Returns Ok answer) :
    answer.header.requestId = answeredId codec id incoming.packet := by
  cases server with
  | login =>
    obtain rfl := hserves
    simp only [Server.handlePacket, LoginNetworkServer.handlePacket, hid] at h
    have hcontext : codec.extractRequestContext .loginRequest incoming.packet.body =
        (codec.parseLoginRequest incoming.packet.body).map _ := rfl
    rcases answeredId_cases "login" hcontext with
      ⟨hparse, hanswered⟩ | ⟨request, hparse, hanswered⟩
    · simp only [hparse, Prog.returns_pure] at h
      exact h ▸ hanswered.symm
    · simp only [hparse, Prog.returns_bind, Prog.returns_pure] at h
      obtain ⟨result, -, rfl⟩ := h
      exact hanswered.symm
  | game =>
    obtain rfl := hserves
    simp only [Server.handlePacket, GameNetworkServer.handlePacket, hid] at h
    have hcontext : codec.extractRequestContext .loadPlayerRequest incoming.packet.body =
        (codec.parseLoadPlayerRequest incoming.packet.body).map _ := rfl
    rcases answeredId_cases "game" hcontext with
      ⟨hparse, hanswered⟩ | ⟨request, hparse, hanswered⟩
    · simp only [hparse, Prog.returns_pure] at h
      exact h ▸ hanswered.symm
    · simp only [hparse, Prog.returns_bind, Prog.returns_pure] at h
      obtain ⟨result, -, rfl⟩ := h
      exact hanswered.symm
  | dungeon =>
    obtain rfl | rfl := hserves
    · simp only [Server.handlePacket, DungeonNetworkServer.handlePacket, hid] at h
      have hcontext : codec.extractRequestContext .enterDungeonRequest incoming.packet.body =
          (codec.parseEnterDungeonRequest incoming.packet.body).map _ := rfl
      rcases answeredId_cases "dungeon" hcontext with
        ⟨hparse, hanswered⟩ | ⟨request, hparse, hanswered⟩
      · simp only [hparse, Prog.returns_pure] at h
        exact h ▸ hanswered.symm
      · simp only [hparse, Prog.returns_bind, Prog.returns_pure] at h
        obtain ⟨result, -, rfl⟩ := h
        exact hanswered.symm
    · simp only [Server.handlePacket, DungeonNetworkServer.handlePacket, hid] at h
      have hcontext : codec.extractRequestContext .settleDungeonRequest incoming.packet.body =
          (codec.parseSettleDungeonRequest incoming.packet.body).map _ := rfl
      rcases answeredId_cases "dungeon" hcontext with
        ⟨hparse, hanswered⟩ | ⟨request, hparse, hanswered⟩
      · simp only [hparse, Prog.returns_pure] at h
        exact h ▸ hanswered.symm
      · simp only [hparse, Prog.returns_bind, Prog.returns_pure] at h
        obtain ⟨result, -, rfl⟩ := h
        exact hanswered.symm

end GameBackend
