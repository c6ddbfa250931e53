import GameBackend.TcpServer
import GameBackend.Services

/-!
# Messages

The messages that packets carry, the request context in each of them, and the packets
that the servers build. `Codec` stands for the generated protobuf code: parsing a body
and serializing a message.
-/

namespace GameBackend

/-! ## Message ids -/

inductive MessageId where
  | pingRequest
  | pingResponse
  | loginRequest
  | loginResponse
  | loadPlayerRequest
  | loadPlayerResponse
  | enterDungeonRequest
  | enterDungeonResponse
  | settleDungeonRequest
  | settleDungeonResponse
  | errorResponse
  deriving DecidableEq, Repr

namespace MessageId

def toInt : MessageId → UInt32
  | pingRequest => 1
  | pingResponse => 2
  | loginRequest => 1001
  | loginResponse => 1002
  | loadPlayerRequest => 1101
  | loadPlayerResponse => 1102
  | enterDungeonRequest => 1201
  | enterDungeonResponse => 1202
  | settleDungeonRequest => 1203
  | settleDungeonResponse => 1204
  | errorResponse => 9000

/-- `MessageIdFromInt` -/
def ofInt (value : UInt32) : Option MessageId :=
  if value = 1 then some pingRequest
  else if value = 2 then some pingResponse
  else if value = 1001 then some loginRequest
  else if value = 1002 then some loginResponse
  else if value = 1101 then some loadPlayerRequest
  else if value = 1102 then some loadPlayerResponse
  else if value = 1201 then some enterDungeonRequest
  else if value = 1202 then some enterDungeonResponse
  else if value = 1203 then some settleDungeonRequest
  else if value = 1204 then some settleDungeonResponse
  else if value = 9000 then some errorResponse
  else none

@[simp] theorem ofInt_toInt (id : MessageId) : ofInt id.toInt = some id := by
  cases id <;> rfl

/-- `ExpectedResponseMessageId` -/
def expectedResponse : MessageId → Option MessageId
  | pingRequest => some pingResponse
  | loginRequest => some loginResponse
  | loadPlayerRequest => some loadPlayerResponse
  | enterDungeonRequest => some enterDungeonResponse
  | settleDungeonRequest => some settleDungeonResponse
  | _ => none

end MessageId

namespace ErrorCode

/-- The number of the enumerator. -/
def toInt : ErrorCode → ℤ
  | ok => 0
  | accountNotFound => 1
  | accountDisabled => 2
  | invalidPassword => 3
  | sessionInvalid => 4
  | playerNotFound => 5
  | playerBusy => 6
  | dungeonNotFound => 7
  | dungeonLocked => 8
  | staminaNotEnough => 9
  | battleNotFound => 10
  | battleMismatch => 11
  | battleAlreadySettled => 12
  | invalidDungeonId => 13
  | invalidStar => 14
  | storageError => 15
  | serviceUnavailable => 16
  | upstreamTimeout => 17
  | badGateway => 18

/-- `ToString` -/
def name : ErrorCode → String
  | ok => "OK"
  | accountNotFound => "ACCOUNT_NOT_FOUND"
  | accountDisabled => "ACCOUNT_DISABLED"
  | invalidPassword => "INVALID_PASSWORD"
  | sessionInvalid => "SESSION_INVALID"
  | playerNotFound => "PLAYER_NOT_FOUND"
  | playerBusy => "PLAYER_BUSY"
  | dungeonNotFound => "DUNGEON_NOT_FOUND"
  | dungeonLocked => "DUNGEON_LOCKED"
  | staminaNotEnough => "STAMINA_NOT_ENOUGH"
  | battleNotFound => "BATTLE_NOT_FOUND"
  | battleMismatch => "BATTLE_MISMATCH"
  | battleAlreadySettled => "BATTLE_ALREADY_SETTLED"
  | invalidDungeonId => "INVALID_DUNGEON_ID"
  | invalidStar => "INVALID_STAR"
  | storageError => "STORAGE_ERROR"
  | serviceUnavailable => "SERVICE_UNAVAILABLE"
  | upstreamTimeout => "UPSTREAM_TIMEOUT"
  | badGateway => "BAD_GATEWAY"

end ErrorCode

/-! ## Messages -/

/-- The context of a request or a response. A message without one has the default. -/
structure RequestContext where
  traceId : String := ""
  requestId : UInt64 := 0
  sessionId : String := ""
  playerId : ℤ := 0
  deriving DecidableEq, Repr

namespace Proto

structure PingRequest where
  context : RequestContext := {}
  message : String := ""
  deriving DecidableEq, Repr

structure PingResponse where
  context : RequestContext
  message : String
  deriving DecidableEq, Repr

structure ErrorResponse where
  context : RequestContext
  errorCode : ℤ
  errorName : String
  errorMessage : String
  deriving DecidableEq, Repr

structure LoginRequest where
  context : RequestContext := {}
  accountName : String := ""
  password : String := ""
  deriving DecidableEq, Repr

structure LoginResponse where
  context : RequestContext
  success : Bool
  errorCode : ℤ
  errorName : String
  errorMessage : String
  sessionId : String := ""
  accountId : ℤ := 0
  playerId : ℤ := 0
  createdAtEpochSeconds : ℤ := 0
  deriving DecidableEq, Repr

structure LoadPlayerRequest where
  context : RequestContext := {}
  playerId : ℤ := 0
  deriving DecidableEq, Repr

structure LoadPlayerResponse where
  context : RequestContext
  success : Bool
  errorCode : ℤ
  errorName : String
  errorMessage : String
  playerState : Option PlayerState
  loadedFromCache : Bool
  deriving DecidableEq, Repr

structure EnterDungeonRequest where
  context : RequestContext := {}
  playerId : ℤ := 0
  dungeonId : ℤ := 0
  deriving DecidableEq, Repr

structure EnterDungeonResponse where
  context : RequestContext
  success : Bool
  errorCode : ℤ
  errorName : String
  errorMessage : String
  battleId : String
  remainStamina : ℤ
  deriving DecidableEq, Repr

structure SettleDungeonRequest where
  context : RequestContext := {}
  playerId : ℤ := 0
  battleId : String := ""
  dungeonId : ℤ := 0
  star : ℤ := 0
  result : Bool := false
  deriving DecidableEq, Repr

structure SettleDungeonResponse where
  context : RequestContext
  success : Bool
  errorCode : ℤ
  errorName : String
  errorMessage : String
  firstClear : Bool
  rewards : List Reward
  deriving DecidableEq, Repr

end Proto

/-- The generated code: `ParseFromString` of the messages that are read and
`SerializeToString` of the messages that are written. -/
structure Codec where
  parsePingRequest : List UInt8 → Option Proto.PingRequest
  parseLoginRequest : List UInt8 → Option Proto.LoginRequest
  parseLoadPlayerRequest : List UInt8 → Option Proto.LoadPlayerRequest
  parseEnterDungeonRequest : List UInt8 → Option Proto.EnterDungeonRequest
  parseSettleDungeonRequest : List UInt8 → Option Proto.SettleDungeonRequest
  parseLoginResponse : List UInt8 → Option Proto.LoginResponse
  serializePingResponse : Proto.PingResponse → List UInt8
  serializeErrorResponse : Proto.ErrorResponse → List UInt8
  serializeLoginResponse : Proto.LoginResponse → List UInt8
  serializeLoadPlayerResponse : Proto.LoadPlayerResponse → List UInt8
  serializeEnterDungeonResponse : Proto.EnterDungeonResponse → List UInt8
  serializeSettleDungeonResponse : Proto.SettleDungeonResponse → List UInt8

/-! ## Packets -/

/-- `BuildPacket` from the serialized message. -/
def buildPacket (messageId : MessageId) (requestId : UInt64) (message : List UInt8) : Packet where
  header := { msgId := messageId.toInt, requestId, bodyLen := UInt32.ofNat message.length }
  body := message

@[simp] theorem buildPacket_requestId (messageId : MessageId) (requestId : UInt64)
    (message : List UInt8) : (buildPacket messageId requestId message).header.requestId =
      requestId := rfl

namespace Codec

variable (codec : Codec)

def buildErrorPacket (context : RequestContext) (errorCode : ErrorCode) (errorMessage : String) :
    Packet :=
  buildPacket .errorResponse context.requestId
    (codec.serializeErrorResponse ⟨context, errorCode.toInt, errorCode.name, errorMessage⟩)

def buildPingResponsePacket (context : RequestContext) (message : String) : Packet :=
  buildPacket .pingResponse context.requestId (codec.serializePingResponse ⟨context, message⟩)

/-- `ExtractRequestContext` -/
def extractRequestContext (messageId : MessageId) (body : List UInt8) : Option RequestContext :=
  match messageId with
  | .pingRequest => (codec.parsePingRequest body).map Proto.PingRequest.context
  | .loginRequest => (codec.parseLoginRequest body).map Proto.LoginRequest.context
  | .loadPlayerRequest => (codec.parseLoadPlayerRequest body).map Proto.LoadPlayerRequest.context
  | .enterDungeonRequest =>
    (codec.parseEnterDungeonRequest body).map Proto.EnterDungeonRequest.context
  | .settleDungeonRequest =>
    (codec.parseSettleDungeonRequest body).map Proto.SettleDungeonRequest.context
  | _ => none

@[simp] theorem buildErrorPacket_requestId (context : RequestContext) (errorCode : ErrorCode)
    (errorMessage : String) :
    (codec.buildErrorPacket context errorCode errorMessage).header.requestId =
      context.requestId := rfl

@[simp] theorem buildPingResponsePacket_requestId (context : RequestContext) (message : String) :
    (codec.buildPingResponsePacket context message).header.requestId = context.requestId := rfl

end Codec

/-- `NormalizeContext`, with the name that the server puts in front of a trace id. -/
def normalizeContext (server : String) (incoming : IncomingPacket) (parsed : RequestContext) :
    RequestContext :=
  let context :=
    if parsed.requestId = 0 then { parsed with requestId := incoming.packet.header.requestId }
    else parsed
  if context.traceId = "" then
    { context with traceId := server ++ "-" ++ toString context.requestId.toNat }
  else context

/-- The context that stands in for one that cannot be read. -/
def fallbackContext (server : String) (incoming : IncomingPacket) : RequestContext where
  requestId := incoming.packet.header.requestId
  traceId := server ++ "-" ++ toString incoming.packet.header.requestId.toNat

@[simp] theorem fallbackContext_requestId (server : String) (incoming : IncomingPacket) :
    (fallbackContext server incoming).requestId = incoming.packet.header.requestId := rfl

/-- The request id that stands for a message: the one of its context, or else the one of
its header. -/
theorem normalizeContext_requestId (server : String) (incoming : IncomingPacket)
    (parsed : RequestContext) :
    (normalizeContext server incoming parsed).requestId =
      if parsed.requestId = 0 then incoming.packet.header.requestId else parsed.requestId := by
  simp only [normalizeContext]
  split_ifs <;> rfl

/-- Normalizing leaves the session and the player alone. -/
theorem normalizeContext_session (server : String) (incoming : IncomingPacket)
    (parsed : RequestContext) :
    (normalizeContext server incoming parsed).sessionId = parsed.sessionId ∧
      (normalizeContext server incoming parsed).playerId = parsed.playerId := by
  simp only [normalizeContext]
  split_ifs <;> exact ⟨rfl, rfl⟩

end GameBackend
