import GameBackend.Gateway

/-!
# A gateway and its services

One gateway in front of the login, game and dungeon servers. The servers are processes of
the `World`, which goes on by itself: other requests arrive, processes stop, time passes.
The gateway works on one packet at a time, and each of its steps is one of the deployment:
it looks a session up, forwards a packet, gets an answer or gives up waiting for it.

* `Server.decode`, `Response.packet` — the handler of a server, cut in two at its service
  (`handlePacket_eq_decode`).
* `GatewayProgram.held` — the bindings at a point of `HandlePacket`.
* `Deployment.step` — what can happen. A packet that was forwarded may reach its server at
  any later time, once or never, also when the gateway does not wait for it any more.
-/

namespace GameBackend

/-! ## The handler of a server -/

/-- What a server makes of a packet. -/
inductive Decoded where
  /-- it answers at once -/
  | answer (packet : Packet)
  /-- it asks its service, and answers under this context -/
  | request (request : Request) (context : RequestContext)

/-- `LoginNetworkServer::HandlePacket` up to the call of its service. -/
def LoginNetworkServer.decode (codec : Codec) (incoming : IncomingPacket) : Decoded :=
  let fallback := fallbackContext "login" incoming
  match MessageId.ofInt incoming.packet.header.msgId with
  | none => .answer (codec.buildErrorPacket fallback .badGateway "unknown message id")
  | some .pingRequest => .answer (answerPing codec "login" incoming)
  | some .loginRequest =>
    match codec.parseLoginRequest incoming.packet.body with
    | none => .answer (codec.buildErrorPacket fallback .badGateway "invalid login request")
    | some request =>
      .request (.login ⟨request.accountName, request.password⟩)
        (normalizeContext "login" incoming request.context)
  | some _ =>
    .answer (codec.buildErrorPacket fallback .badGateway "message not supported by login_server")

/-- `GameNetworkServer::HandlePacket` up to the call of its service. -/
def GameNetworkServer.decode (codec : Codec) (incoming : IncomingPacket) : Decoded :=
  let fallback := fallbackContext "game" incoming
  match MessageId.ofInt incoming.packet.header.msgId with
  | none => .answer (codec.buildErrorPacket fallback .badGateway "unknown message id")
  | some .pingRequest => .answer (answerPing codec "game" incoming)
  | some .loadPlayerRequest =>
    match codec.parseLoadPlayerRequest incoming.packet.body with
    | none => .answer (codec.buildErrorPacket fallback .badGateway "invalid load player request")
    | some request =>
      let context :=
        actingPlayer request.playerId (normalizeContext "game" incoming request.context)
      .request (.loadPlayer ⟨context.sessionId, context.playerId⟩) context
  | some _ =>
    .answer (codec.buildErrorPacket fallback .badGateway "message not supported by game_server")

/-- `DungeonNetworkServer::HandlePacket` up to the call of its service. -/
def DungeonNetworkServer.decode (codec : Codec) (incoming : IncomingPacket) : Decoded :=
  let fallback := fallbackContext "dungeon" incoming
  match MessageId.ofInt incoming.packet.header.msgId with
  | none => .answer (codec.buildErrorPacket fallback .badGateway "unknown message id")
  | some .pingRequest => .answer (answerPing codec "dungeon" incoming)
  | some .enterDungeonRequest =>
    match codec.parseEnterDungeonRequest incoming.packet.body with
    | none => .answer (codec.buildErrorPacket fallback .badGateway "invalid enter dungeon request")
    | some request =>
      let context :=
        actingPlayer request.playerId (normalizeContext "dungeon" incoming request.context)
      .request (.enterDungeon ⟨context.sessionId, context.playerId, request.dungeonId⟩) context
  | some .settleDungeonRequest =>
    match codec.parseSettleDungeonRequest incoming.packet.body with
    | none =>
      .answer (codec.buildErrorPacket fallback .badGateway "invalid settle dungeon request")
    | some request =>
      let context :=
        actingPlayer request.playerId (normalizeContext "dungeon" incoming request.context)
      .request (.settleDungeon ⟨context.sessionId, context.playerId, request.battleId,
        request.dungeonId, request.star, request.result⟩) context
  | some _ =>
    .answer (codec.buildErrorPacket fallback .badGateway "message not supported by dungeon_server")

def Server.decode (codec : Codec) : Server → IncomingPacket → Decoded
  | login => LoginNetworkServer.decode codec
  | game => GameNetworkServer.decode codec
  | dungeon => DungeonNetworkServer.decode codec

/-- The packet that answers a request. The gateway's own session lookups have none. -/
def Response.packet (codec : Codec) (context : RequestContext) : Response → Option Packet
  | .login result => some (LoginNetworkServer.respond codec context result)
  | .loadPlayer result => some (GameNetworkServer.respond codec context result)
  | .enterDungeon result => some (DungeonNetworkServer.respondEnter codec context result)
  | .settleDungeon result => some (DungeonNetworkServer.respondSettle codec context result)
  | .restoreBinding _ => none

/-- Answering a request is answering what its service returns. -/
theorem map_packet {α : Type} (m : Program α) {f : α → Response} {respond : α → Packet}
    {packet : Response → Option Packet} (h : ∀ a, packet (f a) = some (respond a)) :
    some <$> (m >>= fun a => pure (respond a)) = packet <$> f <$> m := by
  change m >>= _ >>= _ = m >>= _ >>= _
  rw [Prog.bind_assoc, Prog.bind_assoc]
  congr 1
  funext a
  exact congrArg Prog.ret (h a).symm

/-- The two parts make up the handler. -/
theorem handlePacket_eq_decode (codec : Codec) (env : Env) (server : Server)
    (incoming : IncomingPacket) :
    some <$> server.handlePacket codec env incoming =
      match server.decode codec incoming with
      | .answer packet => pure (some packet)
      | .request request context => Response.packet codec context <$> serve env request := by
  cases server with
  | login =>
    rw [Server.handlePacket, LoginNetworkServer.handlePacket, Server.decode,
      LoginNetworkServer.decode]
    cases MessageId.ofInt incoming.packet.header.msgId with
    | none => rfl
    | some id =>
      cases id with
      | loginRequest =>
        cases codec.parseLoginRequest incoming.packet.body with
        | none => rfl
        | some request => exact map_packet _ fun _ => rfl
      | _ => rfl
  | game =>
    rw [Server.handlePacket, GameNetworkServer.handlePacket, Server.decode,
      GameNetworkServer.decode]
    cases MessageId.ofInt incoming.packet.header.msgId with
    | none => rfl
    | some id =>
      cases id with
      | loadPlayerRequest =>
        cases codec.parseLoadPlayerRequest incoming.packet.body with
        | none => rfl
        | some request => exact map_packet _ fun _ => rfl
      | _ => rfl
  | dungeon =>
    rw [Server.handlePacket, DungeonNetworkServer.handlePacket, Server.decode,
      DungeonNetworkServer.decode]
    cases MessageId.ofInt incoming.packet.header.msgId with
    | none => rfl
    | some id =>
      cases id with
      | enterDungeonRequest =>
        cases codec.parseEnterDungeonRequest incoming.packet.body with
        | none => rfl
        | some request => exact map_packet _ fun _ => rfl
      | settleDungeonRequest =>
        cases codec.parseSettleDungeonRequest incoming.packet.body with
        | none => rfl
        | some request => exact map_packet _ fun _ => rfl
      | _ => rfl

/-! ## The gateway -/

/-- The bindings the gateway holds at this point of `HandlePacket`: those it is left with
when what it asks for next fails. -/
def GatewayProgram.held : GatewayProgram (Packet × Bindings) → Bindings
  | .ret result => result.2
  | .throw => fun _ => none
  | .call (.restoreBindingFromSession _ _) k => GatewayProgram.held (k none)
  | .call (.sendAndReceive _ _) k => GatewayProgram.held (k (.error ""))

/-- A packet that the gateway has forwarded. -/
structure Forwarded where
  connectionId : UInt64
  upstream : Server
  packet : Packet
  /-- the binding of the connection at that moment -/
  binding : Option (String × ℤ)

/-- What the gateway is waiting for. -/
inductive Waiting where
  /-- nothing: it goes on -/
  | nothing
  /-- a session lookup, which has the number of a request -/
  | lookup (id : ℕ)
  /-- the answer to a forwarded packet -/
  | answer (number : ℕ)
  deriving DecidableEq, Repr

/-- The packet the gateway is working on. -/
structure Handling where
  incoming : IncomingPacket
  /-- what is left to do -/
  rest : GatewayProgram (Packet × Bindings)
  waiting : Waiting

/-- What has become of a packet that has reached its server. -/
inductive Receipt where
  | answered (packet : Packet)
  /-- it is the request with this number, to be answered under this context -/
  | request (id : ℕ) (context : RequestContext)

/-- The gateway, the servers and what is between them. -/
structure Deployment (ι : Type) where
  world : World ι
  /-- `client_bindings_` -/
  bindings : Bindings
  handling : Option Handling
  /-- the packets the gateway has forwarded, oldest first -/
  forwarded : List Forwarded
  /-- those that have reached their server, by number -/
  received : List (ℕ × Receipt)

/-- What can happen. -/
inductive Act (ι : Type) where
  /-- a server takes a step, or anything else happens behind the gateway -/
  | world (l : Label ι)
  /-- the gateway takes up a packet of a client -/
  | receive (incoming : IncomingPacket)
  /-- it looks up a session -/
  | lookUp (i : ι)
  | lookedUp
  /-- it forwards the packet -/
  | send
  /-- a forwarded packet reaches an idle process of its server -/
  | deliver (number : ℕ) (i : ι) (connectionId : UInt64) (peerAddress : String)
  /-- the gateway gets the answer to the packet -/
  | answered
  /-- it gets none -/
  | failed (errorMessage : String)
  /-- it answers the client -/
  | reply
  | disconnect (connectionId : UInt64)
  /-- it is started again -/
  | restart

/-- The response to the request with this number. -/
def responseOf (history : List Event) (id : ℕ) : Option Response :=
  history.findSome? fun
    | .finish id' _ response => if id' = id then some response else none
    | _ => none

namespace Deployment

variable {ι : Type} [DecidableEq ι]

/-- The answer to a forwarded packet, once it is there. -/
def answerTo (codec : Codec) (d : Deployment ι) (number : ℕ) : Option Packet :=
  match d.received.lookup number with
  | some (.answered packet) => some packet
  | some (.request id context) =>
    (responseOf d.world.history id).bind (Response.packet codec context)
  | none => none

/-- The gateway goes on with its packet. -/
def goOn (d : Deployment ι) (incoming : IncomingPacket)
    (rest : GatewayProgram (Packet × Bindings)) : Deployment ι :=
  { d with
    bindings := rest.held
    handling := some ⟨incoming, rest, .nothing⟩ }

/-- One step. -/
def step (codec : Codec) (env : Env) (d : Deployment ι) : Act ι → Option (Deployment ι)
  | .world l => (d.world.step env l).map fun w => { d with world := w }
  | .receive incoming =>
    match d.handling with
    | some _ => none
    | none =>
      some { d with
        handling := some
          ⟨incoming, GatewayServer.handlePacket codec d.bindings incoming, .nothing⟩ }
  | .lookUp i =>
    match d.handling with
    | some ⟨incoming, .call (.restoreBindingFromSession sessionId playerId) k, .nothing⟩ =>
      (d.world.step env (.start i (.restoreBinding sessionId playerId))).map fun w => { d with
        world := w
        handling := some ⟨incoming, .call (.restoreBindingFromSession sessionId playerId) k,
          .lookup d.world.history.length⟩ }
    | _ => none
  | .lookedUp =>
    match d.handling with
    | some ⟨incoming, .call (.restoreBindingFromSession _ _) k, .lookup id⟩ =>
      match responseOf d.world.history id with
      | some (.restoreBinding binding) => some (d.goOn incoming (k binding))
      | _ => none
    | _ => none
  | .send =>
    match d.handling with
    | some ⟨incoming, .call (.sendAndReceive upstream packet) k, .nothing⟩ =>
      some { d with
        forwarded := d.forwarded ++
          [⟨incoming.connectionId, upstream, packet, d.bindings incoming.connectionId⟩]
        handling := some ⟨incoming, .call (.sendAndReceive upstream packet) k,
          .answer d.forwarded.length⟩ }
    | _ => none
  | .deliver number i connectionId peerAddress =>
    match d.forwarded[number]?, d.received.lookup number with
    | some f, none =>
      match f.upstream.decode codec ⟨connectionId, f.packet, peerAddress⟩ with
      | .answer packet => some { d with received := (number, .answered packet) :: d.received }
      | .request request context =>
        (d.world.step env (.start i request)).map fun w => { d with
          world := w
          received := (number, .request d.world.history.length context) :: d.received }
    | _, _ => none
  | .answered =>
    match d.handling with
    | some ⟨incoming, .call (.sendAndReceive _ _) k, .answer number⟩ =>
      (d.answerTo codec number).map fun answer => d.goOn incoming (k (.ok answer))
    | _ => none
  | .failed errorMessage =>
    match d.handling with
    | some ⟨incoming, .call (.sendAndReceive _ _) k, .answer _⟩ =>
      some (d.goOn incoming (k (.error errorMessage)))
    | _ => none
  | .reply =>
    match d.handling with
    | some ⟨_, .ret _, _⟩ => some { d with handling := none }
    | _ => none
  | .disconnect connectionId =>
    match d.handling with
    | some _ => none
    | none => some { d with bindings := SessionBindingAuthorizer.unbind d.bindings connectionId }
  | .restart => some { d with bindings := fun _ => none, handling := none }

/-- The same steps as a relation. -/
inductive Happens (codec : Codec) (env : Env) (d : Deployment ι) : Act ι → Deployment ι → Prop
  where
  | world {l : Label ι} {w : World ι} (step : d.world.step env l = some w) :
      Happens codec env d (.world l) { d with world := w }
  | receive {incoming : IncomingPacket} (idle : d.handling = none) :
      Happens codec env d (.receive incoming) { d with
        handling := some
          ⟨incoming, GatewayServer.handlePacket codec d.bindings incoming, .nothing⟩ }
  | lookUp {i : ι} {incoming : IncomingPacket} {sessionId : String} {playerId : ℤ}
      {k : Option (String × ℤ) → GatewayProgram (Packet × Bindings)} {w : World ι}
      (handling : d.handling = some
        ⟨incoming, .call (.restoreBindingFromSession sessionId playerId) k, .nothing⟩)
      (step : d.world.step env (.start i (.restoreBinding sessionId playerId)) = some w) :
      Happens codec env d (.lookUp i) { d with
        world := w
        handling := some ⟨incoming, .call (.restoreBindingFromSession sessionId playerId) k,
          .lookup d.world.history.length⟩ }
  | lookedUp {incoming : IncomingPacket} {sessionId : String} {playerId : ℤ}
      {k : Option (String × ℤ) → GatewayProgram (Packet × Bindings)} {id : ℕ}
      {binding : Option (String × ℤ)}
      (handling : d.handling = some
        ⟨incoming, .call (.restoreBindingFromSession sessionId playerId) k, .lookup id⟩)
      (response : responseOf d.world.history id = some (.restoreBinding binding)) :
      Happens codec env d .lookedUp (d.goOn incoming (k binding))
  | send {incoming : IncomingPacket} {upstream : Server} {packet : Packet}
      {k : Except String Packet → GatewayProgram (Packet × Bindings)}
      (handling : d.handling =
        some ⟨incoming, .call (.sendAndReceive upstream packet) k, .nothing⟩) :
      Happens codec env d .send { d with
        forwarded := d.forwarded ++
          [⟨incoming.connectionId, upstream, packet, d.bindings incoming.connectionId⟩]
        handling := some ⟨incoming, .call (.sendAndReceive upstream packet) k,
          .answer d.forwarded.length⟩ }
  | deliverAnswered {number : ℕ} {i : ι} {connectionId : UInt64} {peerAddress : String}
      {f : Forwarded} {packet : Packet} (forwarded : d.forwarded[number]? = some f)
      (decoded : f.upstream.decode codec ⟨connectionId, f.packet, peerAddress⟩ = .answer packet) :
      Happens codec env d (.deliver number i connectionId peerAddress)
        { d with received := (number, .answered packet) :: d.received }
  | deliverRequest {number : ℕ} {i : ι} {connectionId : UInt64} {peerAddress : String}
      {f : Forwarded} {request : Request} {context : RequestContext} {w : World ι}
      (forwarded : d.forwarded[number]? = some f)
      (decoded : f.upstream.decode codec ⟨connectionId, f.packet, peerAddress⟩ =
        .request request context)
      (step : d.world.step env (.start i request) = some w) :
      Happens codec env d (.deliver number i connectionId peerAddress) { d with
        world := w
        received := (number, .request d.world.history.length context) :: d.received }
  | answered {incoming : IncomingPacket} {upstream : Server} {packet answer : Packet}
      {k : Except String Packet → GatewayProgram (Packet × Bindings)} {number : ℕ}
      (handling : d.handling = some
        ⟨incoming, .call (.sendAndReceive upstream packet) k, .answer number⟩)
      (there : d.answerTo codec number = some answer) :
      Happens codec env d .answered (d.goOn incoming (k (.ok answer)))
  | failed {incoming : IncomingPacket} {upstream : Server} {packet : Packet}
      {k : Except String Packet → GatewayProgram (Packet × Bindings)} {number : ℕ}
      {errorMessage : String} (handling : d.handling = some
        ⟨incoming, .call (.sendAndReceive upstream packet) k, .answer number⟩) :
      Happens codec env d (.failed errorMessage) (d.goOn incoming (k (.error errorMessage)))
  | reply : Happens codec env d .reply { d with handling := none }
  | disconnect {connectionId : UInt64} (idle : d.handling = none) :
      Happens codec env d (.disconnect connectionId)
        { d with bindings := SessionBindingAuthorizer.unbind d.bindings connectionId }
  | restart : Happens codec env d .restart { d with bindings := fun _ => none, handling := none }

variable {codec : Codec} {env : Env} {d d' : Deployment ι} {act : Act ι}

/-- Every step is one of the listed ones. -/
theorem happens_of_step (h : d.step codec env act = some d') : d.Happens codec env act d' := by
  cases act with
  | world l =>
    obtain ⟨w, hw, rfl⟩ := Option.map_eq_some_iff.mp h
    exact .world hw
  | receive incoming =>
    simp only [step] at h
    split at h
    · cases h
    · rename_i hidle
      obtain rfl := Option.some.inj h
      exact .receive hidle
  | lookUp i =>
    simp only [step] at h
    split at h
    · rename_i hhandling
      obtain ⟨w, hw, rfl⟩ := Option.map_eq_some_iff.mp h
      exact .lookUp hhandling hw
    · cases h
  | lookedUp =>
    simp only [step] at h
    split at h
    · rename_i hhandling
      split at h
      · rename_i hresponse
        obtain rfl := Option.some.inj h
        exact .lookedUp hhandling hresponse
      · cases h
    · cases h
  | send =>
    simp only [step] at h
    split at h
    · rename_i hhandling
      obtain rfl := Option.some.inj h
      exact .send hhandling
    · cases h
  | deliver number i connectionId peerAddress =>
    simp only [step] at h
    split at h
    · rename_i hforwarded _
      split at h
      · rename_i hdecode
        obtain rfl := Option.some.inj h
        exact .deliverAnswered hforwarded hdecode
      · rename_i hdecode
        obtain ⟨w, hw, rfl⟩ := Option.map_eq_some_iff.mp h
        exact .deliverRequest hforwarded hdecode hw
    · cases h
  | answered =>
    simp only [step] at h
    split at h
    · rename_i hhandling
      obtain ⟨answer, hanswer, rfl⟩ := Option.map_eq_some_iff.mp h
      exact .answered hhandling hanswer
    · cases h
  | failed errorMessage =>
    simp only [step] at h
    split at h
    · rename_i hhandling
      obtain rfl := Option.some.inj h
      exact .failed hhandling
    · cases h
  | reply =>
    simp only [step] at h
    split at h
    · obtain rfl := Option.some.inj h
      exact .reply
    · cases h
  | disconnect connectionId =>
    simp only [step] at h
    split at h
    · cases h
    · rename_i hidle
      obtain rfl := Option.some.inj h
      exact .disconnect hidle
  | restart =>
    obtain rfl := Option.some.inj h
    exact .restart

/-- Nothing has happened yet. -/
def boot (w : World ι) : Deployment ι where
  world := w
  bindings _ := none
  handling := none
  forwarded := []
  received := []

/-- No `ROLLBACK` fails. -/
def RollsBack (d : Deployment ι) : Act ι → Prop
  | .world l => ¬d.world.Fails l (.sql .rollback)
  | _ => True

/-- The deployments that runs from `w₀` reach. -/
abbrev Run (codec : Codec) (env : Env) (w₀ : World ι) (d : Deployment ι) : Prop :=
  Reach (step codec env) RollsBack (boot w₀) d

end Deployment

end GameBackend
