import GameBackend.TcpServer
import Mathlib.Logic.Function.Basic

/-!
# The event loop of a server

`EpollTcpServer::Run` with the four functions it calls. What the system calls return comes
with the events: each `accept`, `recv` and `send` ends in some way, and each `epoll_ctl`
goes through or does not.

* `serve` — an event on one connection: `HandleRead`, `HandleWrite`, and whether the
  connection is kept.
* `handleEvent`, `run` — the loop over all connections, which are kept by descriptor.
* `handleEvent_other` — an event on one connection leaves the others alone.

The loop ends when it is told to, when `epoll_wait` fails, when `AcceptConnections` fails,
and when a `send` raises `SIGPIPE`, which nothing here ignores or handles. The last two are
errors that concern a single client (`run_returns_iff`). The handlers are taken to return:
the loop catches nothing, so an exception of a handler would end the process as well.
-/

namespace GameBackend

/-! ## System calls and events -/

/-- How one `send` ends. -/
inductive Send where
  /-- that many bytes are accepted -/
  | sent (count : ℕ)
  /-- `EINTR` -/
  | interrupted
  /-- `EAGAIN` -/
  | wouldBlock
  /-- `EPIPE`, for which the kernel raises `SIGPIPE`: the flags of the call are 0 -/
  | brokenPipe
  /-- any other error, such as `ECONNRESET` -/
  | failed
  deriving DecidableEq, Repr

/-- How one `accept` ends. A descriptor is made nonblocking and added to the epoll
instance; either may fail. -/
inductive Accept where
  | accepted (fd : ℕ) (peerAddress : String) (nonBlocking added : Bool)
  /-- `EAGAIN` -/
  | wouldBlock
  /-- any other error, such as `ECONNABORTED` or `EINTR` -/
  | failed
  deriving DecidableEq, Repr

/-- A connection, with what the kernel keeps for its descriptor. -/
structure Watched extends Connection where
  /-- `EPOLLOUT` is in the interest set -/
  epollOut : Bool := false
  /-- the bytes that `send` has accepted -/
  sent : List UInt8 := []

/-- The functions a server is set up with, over a state of their own. -/
structure Handlers (σ : Type) where
  packetHandler : PacketHandler σ
  disconnectHandler : UInt64 → σ → σ

/-- What the loop has done with a descriptor. -/
inductive Happening where
  /-- a connection with this id was made for it -/
  | accepted (fd : ℕ) (id : UInt64)
  /-- a packet was passed to `packet_handler_` -/
  | passed (fd : ℕ) (packet : Packet)
  | closed (fd : ℕ) (id : UInt64)

/-- A server that listens. The log is kept for the proofs, newest first. -/
structure EpollTcpServer (σ : Type) where
  connections : ℕ → Option Watched := fun _ => none
  nextConnectionId : UInt64 := 1
  /-- what the handlers read and change -/
  state : σ
  log : List Happening := []

namespace EpollTcpServer

/-- What `epoll_wait` says of a descriptor, and what the calls on it will return. -/
structure Ready where
  /-- `EPOLLERR`, `EPOLLHUP` or `EPOLLRDHUP` -/
  hangup : Bool := false
  /-- `EPOLLIN` -/
  readable : Bool := false
  /-- `EPOLLOUT` -/
  writable : Bool := false
  recvs : List Recv := []
  sends : List Send := []
  /-- an `epoll_ctl` of `QueueResponse` goes through -/
  queueModified : Bool := true
  /-- the `epoll_ctl` of `HandleWrite` goes through -/
  drainModified : Bool := true

/-- One event. -/
inductive Event where
  | listening (accepts : List Accept)
  | ready (fd : ℕ) (ready : Ready)

/-- How one `epoll_wait` ends. -/
inductive Wait where
  /-- `EINTR` -/
  | interrupted
  | failed
  | ready (events : List Event)

/-- A round of the loop: what `keep_running` says, and what is waited for. -/
structure Round where
  keepRunning : Bool := true
  wait : Wait

/-- What becomes of a connection. -/
inductive Fate where
  | kept
  | closed
  /-- the process is killed by `SIGPIPE`, and all its connections with it -/
  | killed
  deriving DecidableEq, Repr

/-- What an event does to the loop. -/
inductive Progress where
  | goesOn
  /-- `Run` returns 1 -/
  | returns
  | killed
  deriving DecidableEq, Repr

/-- How the loop ends. -/
inductive Ending where
  /-- `Run` returns -/
  | returned (code : ℕ)
  | killed
  deriving DecidableEq, Repr

/-! ## Writing -/

/-- How the loop of `HandleWrite` ends. -/
inductive Drain where
  | emptied
  | waits
  | breaks
  | fails
  deriving DecidableEq, Repr

/-- The loop of `HandleWrite` over what `send` returns, which would block at the end. How
it ends, what is left of the queue, and what was sent. -/
def writeLoop : List (List UInt8) → List Send → Drain × List (List UInt8) × List UInt8
  | [], _ => (.emptied, [], [])
  | current :: queue, [] => (.waits, current :: queue, [])
  | current :: queue, .wouldBlock :: _ => (.waits, current :: queue, [])
  | current :: queue, .interrupted :: sends => writeLoop (current :: queue) sends
  | current :: queue, .brokenPipe :: _ => (.breaks, current :: queue, [])
  | current :: queue, .failed :: _ => (.fails, current :: queue, [])
  | current :: queue, .sent count :: sends =>
    if count = current.length then
      let (drain, queue, sent) := writeLoop queue sends
      (drain, queue, current ++ sent)
    else
      -- the loop returns after a partial `send`, without trying again
      (.waits, current.drop count :: queue, current.take count)

end EpollTcpServer

namespace Watched

/-- A connection as `AcceptConnections` makes it and adds it to the epoll instance. -/
def accepted (id : UInt64) (peerAddress : String) : Watched :=
  { Connection.accepted id peerAddress with }

/-- `QueueResponse` -/
def queueResponse (watched : Watched) (packet : Packet) (modified : Bool) : Watched :=
  { EpollTcpServer.queueResponse watched.toConnection packet with
    epollOut := watched.epollOut || modified
    sent := watched.sent }

/-- `HandleWrite`: whether it returns `true` or `false`, or does not return. -/
def handleWrite (watched : Watched) (sends : List Send) (modified : Bool) :
    EpollTcpServer.Fate × Watched :=
  let (drain, queue, sent) := EpollTcpServer.writeLoop watched.writeQueue sends
  let written := { watched with writeQueue := queue, sent := watched.sent ++ sent }
  match drain with
  | .breaks => (.killed, written)
  | .fails => (.closed, written)
  | .waits => (.kept, written)
  | .emptied => (if modified then .kept else .closed,
      { written with epollOut := watched.epollOut && !modified })

end Watched

namespace EpollTcpServer

variable {σ : Type}

/-! ## Reading -/

/-- `HandleRead` comes to an end. -/
theorem handleRead_isSome (packetHandler : PacketHandler σ) (connection : Connection)
    (recvs : List Recv) (s : σ) :
    (handleRead packetHandler connection recvs s).isSome := by
  rw [handleRead]
  rcases recvLoop connection.readBuffer recvs with ⟨_ | _, buffer⟩
  · rfl
  · obtain ⟨connection', s', hloop, -⟩ := extractLoop_frames packetHandler
      (Nat.lt_succ_self ({ connection with readBuffer := buffer } : Connection).readBuffer.length) s
    simp only at hloop
    simp only [hloop]
    rfl

end EpollTcpServer

/-- `HandleRead` of a connection that is watched. `QueueResponse` was called if there is
more in the queue, and switches `EPOLLOUT` on. -/
def Watched.handleRead {σ : Type} (watched : Watched) (packetHandler : PacketHandler σ)
    (recvs : List Recv) (modified : Bool) (s : σ) : Bool × List Packet × Watched × σ :=
  let (keep, passed, connection, s) :=
    (EpollTcpServer.handleRead packetHandler watched.toConnection recvs s).get
      (EpollTcpServer.handleRead_isSome ..)
  let queued := decide (watched.writeQueue.length < connection.writeQueue.length)
  (keep, passed, { connection with
    epollOut := watched.epollOut || (queued && modified)
    sent := watched.sent }, s)

namespace EpollTcpServer

variable {σ : Type}

/-! ## The loop -/

/-- `HandleRead`, if there is something to read. -/
def serveRead (packetHandler : PacketHandler σ) (watched : Watched) (ready : Ready) (s : σ) :
    Bool × List Packet × Watched × σ :=
  if ready.readable then watched.handleRead packetHandler ready.recvs ready.queueModified s
  else (true, [], watched, s)

/-- An event on one connection: what becomes of it, the packets that were passed to the
handler, the connection and the handler's state. -/
def serve (packetHandler : PacketHandler σ) (watched : Watched) (ready : Ready) (s : σ) :
    Fate × List Packet × Watched × σ :=
  -- nothing is read after a hang-up, also if `EPOLLIN` is set
  if ready.hangup then (.closed, [], watched, s)
  else
    let (keep, passed, watched, s) := serveRead packetHandler watched ready s
    if keep && ready.writable then
      let (fate, watched) := watched.handleWrite ready.sends ready.drainModified
      (fate, passed, watched, s)
    else (if keep then .kept else .closed, passed, watched, s)

def closeConnection (handlers : Handlers σ) (server : EpollTcpServer σ) (fd : ℕ) :
    EpollTcpServer σ :=
  match server.connections fd with
  | none => server
  | some watched => { server with
    connections := Function.update server.connections fd none
    state := handlers.disconnectHandler watched.id server.state
    log := .closed fd watched.id :: server.log }

/-- `AcceptConnections` over what `accept` returns, which would block at the end. `emplace`
keeps a connection that is there. -/
def acceptConnections (server : EpollTcpServer σ) : List Accept → Bool × EpollTcpServer σ
  | [] => (true, server)
  | .wouldBlock :: _ => (true, server)
  | .failed :: _ => (false, server)
  | .accepted fd peerAddress nonBlocking added :: later =>
    if !nonBlocking then acceptConnections server later
    else
      let id := server.nextConnectionId
      -- the id is used up, whether or not the descriptor can be added
      let server := { server with
        nextConnectionId := id + 1
        log := .accepted fd id :: server.log }
      if !added then acceptConnections server later
      else
        let connection := (server.connections fd).getD (.accepted id peerAddress)
        acceptConnections
          { server with connections := Function.update server.connections fd (some connection) }
          later

/-- An event, and whether the loop goes on. -/
def handleEvent (handlers : Handlers σ) (server : EpollTcpServer σ) :
    Event → Progress × EpollTcpServer σ
  | .listening accepts =>
    let (accepted, server) := acceptConnections server accepts
    (if accepted then .goesOn else .returns, server)
  | .ready fd ready =>
    match server.connections fd with
    | none => (.goesOn, server)
    | some watched =>
      let (fate, passed, watched, s) :=
        serve handlers.packetHandler watched ready server.state
      let server := { server with
        connections := Function.update server.connections fd (some watched)
        state := s
        log := (passed.map (.passed fd)).reverse ++ server.log }
      match fate with
      | .kept => (.goesOn, server)
      | .closed => (.goesOn, closeConnection handlers server fd)
      | .killed => (.killed, server)

/-- The events that one `epoll_wait` brings. -/
def handleEvents (handlers : Handlers σ) (server : EpollTcpServer σ) :
    List Event → Progress × EpollTcpServer σ
  | [] => (.goesOn, server)
  | event :: later =>
    match handleEvent handlers server event with
    | (.goesOn, server) => handleEvents handlers server later
    | (progress, server) => (progress, server)

/-- A round of the loop, with how it ends if it ends there. -/
def runRound (handlers : Handlers σ) (server : EpollTcpServer σ) (round : Round) :
    Option Ending × EpollTcpServer σ :=
  if !round.keepRunning then (some (.returned 0), server)
  else
    match round.wait with
    | .interrupted => (none, server)
    | .failed => (some (.returned 1), server)
    | .ready events =>
      match handleEvents handlers server events with
      | (.goesOn, server) => (none, server)
      | (.returns, server) => (some (.returned 1), server)
      | (.killed, server) => (some .killed, server)

/-- `Run` over these rounds: the round in which the loop ended and how, if it did. -/
def run (handlers : Handlers σ) (server : EpollTcpServer σ) :
    List Round → Option (Round × Ending) × EpollTcpServer σ
  | [] => (none, server)
  | round :: later =>
    match runRound handlers server round with
    | (some ending, server) => (some (round, ending), server)
    | (none, server) => run handlers server later

/-! ## What an event leaves alone -/

variable {handlers : Handlers σ} {packetHandler : PacketHandler σ} {server : EpollTcpServer σ}

theorem closeConnection_other {fd fd' : ℕ} (h : fd' ≠ fd) :
    (closeConnection handlers server fd).connections fd' = server.connections fd' := by
  rw [closeConnection]
  split
  · rfl
  · exact Function.update_of_ne h ..

/-- An event on one connection leaves the others alone. -/
theorem handleEvent_other {fd fd' : ℕ} {ready : Ready} (h : fd' ≠ fd) :
    (handleEvent handlers server (.ready fd ready)).2.connections fd' =
      server.connections fd' := by
  rw [handleEvent]
  split
  · rfl
  · dsimp only
    split
    · exact Function.update_of_ne h ..
    · rw [closeConnection_other h]
      exact Function.update_of_ne h ..
    · exact Function.update_of_ne h ..

/-- Accepting connections leaves those that are there alone. -/
theorem acceptConnections_kept {fd : ℕ} {watched : Watched} :
    ∀ (accepts : List Accept) {server : EpollTcpServer σ},
      server.connections fd = some watched →
      (acceptConnections server accepts).2.connections fd = some watched
  | [], _, h => h
  | .wouldBlock :: _, _, h => h
  | .failed :: _, _, h => h
  | .accepted fd' peerAddress nonBlocking added :: later, server, h => by
    rw [acceptConnections]
    split
    · exact acceptConnections_kept later h
    · dsimp only
      split
      · exact acceptConnections_kept later h
      · refine acceptConnections_kept later ?_
        by_cases hfd : fd = fd'
        · subst hfd
          simp only [Function.update_self, h, Option.getD_some]
        · simp only [Function.update_of_ne hfd, h]

/-! ## What a connection and the handlers keep -/

/-- Taking packets off the buffer keeps the connection's id and what the packet handler
keeps, and queues responses. -/
theorem extractLoop_kept {I : σ → Prop} {fuel : ℕ} {connection connection' : Connection}
    {passed : List Packet} {s s' : σ}
    (hhandler : ∀ packet s, I s →
      I (packetHandler ⟨connection.id, packet, connection.peerAddress⟩ s).2)
    (h : extractLoop packetHandler fuel connection s = some (passed, connection', s'))
    (hs : I s) :
    I s' ∧ connection'.id = connection.id ∧ ∃ responses : List Packet,
      connection'.writeQueue = connection.writeQueue ++ responses.map Packet.encode := by
  induction fuel generalizing connection passed s with
  | zero => cases h
  | succ fuel ih =>
    rw [extractLoop] at h
    split at h
    · cases h
      exact ⟨hs, rfl, [], (List.append_nil _).symm⟩
    · rename_i packet buffer hextract
      have hcalled := hhandler packet s hs
      simp only at h
      rcases hresponse : packetHandler ⟨connection.id, packet, connection.peerAddress⟩ s with
        ⟨_ | response, s₁⟩
      · -- the handler has no response
        rw [hresponse] at h hcalled
        simp only at h
        split at h
        · cases h
        · rename_i hloop
          cases h
          obtain ⟨hs', hid, hqueue⟩ := ih (by exact hhandler) hloop hcalled
          exact ⟨hs', hid, hqueue⟩
      · -- its response is queued before the next packet is taken
        rw [hresponse] at h hcalled
        simp only at h
        split at h
        · cases h
        · rename_i hloop
          cases h
          obtain ⟨hs', hid, responses, hqueue⟩ := ih (by exact hhandler) hloop hcalled
          refine ⟨hs', hid, response :: responses, ?_⟩
          rw [hqueue, List.map_cons]
          exact List.append_assoc ..

theorem handleRead_kept {I : σ → Prop} {connection connection' : Connection} {recvs : List Recv}
    {keep : Bool} {passed : List Packet} {s s' : σ}
    (hhandler : ∀ packet s, I s →
      I (packetHandler ⟨connection.id, packet, connection.peerAddress⟩ s).2)
    (h : handleRead packetHandler connection recvs s = some (keep, passed, connection', s'))
    (hs : I s) :
    I s' ∧ connection'.id = connection.id ∧ ∃ responses : List Packet,
      connection'.writeQueue = connection.writeQueue ++ responses.map Packet.encode := by
  rw [handleRead] at h
  split at h
  · -- `recv` ends the connection, and the handler is not called
    cases h
    exact ⟨hs, rfl, [], (List.append_nil _).symm⟩
  · split at h
    · cases h
    · rename_i hloop
      cases h
      obtain ⟨hs', hid, hqueue⟩ := extractLoop_kept (by exact hhandler) hloop hs
      exact ⟨hs', hid, hqueue⟩

end EpollTcpServer

/-- `HandleRead` of a watched connection keeps its id and what the packet handler keeps. -/
theorem Watched.handleRead_kept {σ : Type} {packetHandler : PacketHandler σ} {I : σ → Prop}
    {watched : Watched} {recvs : List Recv} {modified : Bool} {s : σ}
    (hhandler : ∀ packet s, I s →
      I (packetHandler ⟨watched.id, packet, watched.peerAddress⟩ s).2) (hs : I s) :
    I (watched.handleRead packetHandler recvs modified s).2.2.2 ∧
      (watched.handleRead packetHandler recvs modified s).2.2.1.id = watched.id := by
  obtain ⟨⟨keep, passed, connection, s'⟩, hread⟩ :=
    Option.isSome_iff_exists.mp
      (EpollTcpServer.handleRead_isSome packetHandler watched.toConnection recvs s)
  obtain ⟨hs', hid, -⟩ := EpollTcpServer.handleRead_kept hhandler hread hs
  simp only [Watched.handleRead, hread, Option.get_some]
  exact ⟨hs', hid⟩

/-- It queues responses, and nothing else is written. -/
theorem Watched.handleRead_queue {σ : Type} (watched : Watched) (packetHandler : PacketHandler σ)
    (recvs : List Recv) (modified : Bool) (s : σ) :
    ∃ responses : List Packet,
      (watched.handleRead packetHandler recvs modified s).2.2.1.writeQueue =
        watched.writeQueue ++ responses.map Packet.encode ∧
      (watched.handleRead packetHandler recvs modified s).2.2.1.epollOut =
        (watched.epollOut || (!responses.isEmpty && modified)) ∧
      (watched.handleRead packetHandler recvs modified s).2.2.1.sent = watched.sent := by
  obtain ⟨⟨keep, passed, connection, s'⟩, hread⟩ :=
    Option.isSome_iff_exists.mp
      (EpollTcpServer.handleRead_isSome packetHandler watched.toConnection recvs s)
  obtain ⟨-, -, responses, hqueue⟩ :=
    EpollTcpServer.handleRead_kept (I := fun _ => True) (fun _ _ _ => trivial) hread trivial
  simp only [Watched.handleRead, hread, Option.get_some]
  refine ⟨responses, hqueue, ?_, trivial⟩
  rw [hqueue, List.length_append, List.length_map]
  cases responses with
  | nil => simp
  | cons response responses => simp

theorem Watched.handleWrite_id {watched : Watched} {sends : List Send} {modified : Bool} :
    (watched.handleWrite sends modified).2.id = watched.id := by
  rw [Watched.handleWrite]
  rcases EpollTcpServer.writeLoop watched.writeQueue sends with ⟨_ | _ | _ | _, queue, sent⟩
  · rfl
  · rfl
  · rfl
  · rfl

namespace EpollTcpServer

variable {σ : Type} {handlers : Handlers σ} {packetHandler : PacketHandler σ}
  {server : EpollTcpServer σ}

/-- An event keeps the id of the connection and what the packet handler keeps. -/
theorem serve_kept {I : σ → Prop} {watched watched' : Watched} {ready : Ready} {fate : Fate}
    {passed : List Packet} {s s' : σ}
    (hhandler : ∀ packet s, I s →
      I (packetHandler ⟨watched.id, packet, watched.peerAddress⟩ s).2)
    (h : serve packetHandler watched ready s = (fate, passed, watched', s')) (hs : I s) :
    I s' ∧ watched'.id = watched.id := by
  have hread : I (serveRead packetHandler watched ready s).2.2.2 ∧
      (serveRead packetHandler watched ready s).2.2.1.id = watched.id := by
    rw [serveRead]
    split
    · exact Watched.handleRead_kept hhandler hs
    · exact ⟨hs, rfl⟩
  rw [serve] at h
  split at h
  · cases h
    exact ⟨hs, rfl⟩
  · rcases hresult : serveRead packetHandler watched ready s with ⟨keep₁, passed₁, watched₁, s₁⟩
    rw [hresult] at h hread
    dsimp only at h hread
    split at h
    · cases h
      exact ⟨hread.1, Watched.handleWrite_id.trans hread.2⟩
    · cases h
      exact hread

/-- An event on a connection, in one piece. -/
theorem handleEvent_ready {fd : ℕ} {watched watched' : Watched} {ready : Ready} {fate : Fate}
    {passed : List Packet} {s' : σ} (h : server.connections fd = some watched)
    (hserve : serve handlers.packetHandler watched ready server.state =
      (fate, passed, watched', s')) :
    handleEvent handlers server (.ready fd ready) =
      (if fate = .killed then .killed else .goesOn,
      if fate = .closed then
        { server with
          connections := Function.update server.connections fd none
          state := handlers.disconnectHandler watched'.id s'
          log := .closed fd watched'.id ::
            ((passed.map (.passed fd)).reverse ++ server.log) }
      else
        { server with
          connections := Function.update server.connections fd (some watched')
          state := s'
          log := (passed.map (.passed fd)).reverse ++ server.log }) := by
  simp only [handleEvent, h, hserve]
  cases fate with
  | kept => rfl
  | closed =>
    simp only [closeConnection, Function.update_self, Function.update_idem, reduceCtorEq,
      if_true, if_false]
  | killed => rfl

/-! ## Invariants of the loop -/

/-- A connection that is accepted. It gets the next id, also if it cannot be watched and is
closed at once. -/
def acceptOne (server : EpollTcpServer σ) (fd : ℕ) (peerAddress : String) (added : Bool) :
    EpollTcpServer σ :=
  { server with
    connections :=
      if added then Function.update server.connections fd
        (some ((server.connections fd).getD (.accepted server.nextConnectionId peerAddress)))
      else server.connections
    nextConnectionId := server.nextConnectionId + 1
    log := .accepted fd server.nextConnectionId :: server.log }

/-- What an accepted connection and an event on one keep, accepting connections and a whole
run keep. -/
theorem acceptConnections_invariant {Q : EpollTcpServer σ → Prop}
    (haccept : ∀ server fd peerAddress added, Q server →
      Q (acceptOne server fd peerAddress added)) :
    ∀ (accepts : List Accept) (server : EpollTcpServer σ), Q server →
      Q (acceptConnections server accepts).2
  | [], _, h => h
  | .wouldBlock :: _, _, h => h
  | .failed :: _, _, h => h
  | .accepted _ _ false _ :: later, server, h =>
    acceptConnections_invariant haccept later server h
  | .accepted fd peerAddress true false :: later, server, h =>
    acceptConnections_invariant haccept later _ (haccept server fd peerAddress false h)
  | .accepted fd peerAddress true true :: later, server, h =>
    acceptConnections_invariant haccept later _ (haccept server fd peerAddress true h)

theorem handleEvents_invariant {Q : EpollTcpServer σ → Prop}
    (hevent : ∀ server event, Q server → Q (handleEvent handlers server event).2) :
    ∀ (events : List Event) (server : EpollTcpServer σ), Q server →
      Q (handleEvents handlers server events).2
  | [], _, h => h
  | event :: later, server, h => by
    have hhandled := hevent server event h
    rw [handleEvents]
    rcases hresult : handleEvent handlers server event with ⟨_ | _ | _, server'⟩
    · rw [hresult] at hhandled
      exact handleEvents_invariant hevent later server' hhandled
    · rw [hresult] at hhandled
      exact hhandled
    · rw [hresult] at hhandled
      exact hhandled

theorem runRound_invariant {Q : EpollTcpServer σ → Prop}
    (hevent : ∀ server event, Q server → Q (handleEvent handlers server event).2)
    (round : Round) (h : Q server) : Q (runRound handlers server round).2 := by
  rw [runRound]
  split
  · exact h
  · rcases round.wait with _ | _ | events
    · exact h
    · exact h
    · have hhandled := handleEvents_invariant hevent events server h
      dsimp only
      rcases hresult : handleEvents handlers server events with ⟨_ | _ | _, server'⟩
      · rw [hresult] at hhandled
        exact hhandled
      · rw [hresult] at hhandled
        exact hhandled
      · rw [hresult] at hhandled
        exact hhandled

theorem run_invariant {Q : EpollTcpServer σ → Prop}
    (hevent : ∀ server event, Q server → Q (handleEvent handlers server event).2) :
    ∀ (rounds : List Round) (server : EpollTcpServer σ), Q server →
      Q (run handlers server rounds).2
  | [], _, h => h
  | round :: later, server, h => by
    have hround := runRound_invariant hevent round h
    rw [run]
    rcases hresult : runRound handlers server round with ⟨_ | ending, server'⟩
    · rw [hresult] at hround
      exact run_invariant hevent later server' hround
    · rw [hresult] at hround
      exact hround

/-! ## When the loop ends -/

/-- The first `accept` that brings no connection would block. -/
def Settles : List Accept → Prop
  | [] => True
  | .wouldBlock :: _ => True
  | .failed :: _ => False
  | .accepted _ _ _ _ :: later => Settles later

/-- The calls of `send` for this queue come to one that finds the pipe broken. -/
def Breaks : List (List UInt8) → List Send → Prop
  | current :: queue, .interrupted :: sends => Breaks (current :: queue) sends
  | current :: queue, .sent count :: sends => count = current.length ∧ Breaks queue sends
  | _ :: _, .brokenPipe :: _ => True
  | _, _ => False

/-- `HandleWrite` comes after `HandleRead`, and a `send` of it finds the pipe broken. -/
def Ready.Breaks (packetHandler : PacketHandler σ) (watched : Watched) (ready : Ready) (s : σ) :
    Prop :=
  ready.hangup = false ∧ (serveRead packetHandler watched ready s).1 = true ∧
    ready.writable = true ∧
    EpollTcpServer.Breaks (serveRead packetHandler watched ready s).2.2.1.writeQueue ready.sends

/-- No `accept` of this event fails, and no `send` of it finds the pipe broken. -/
def Event.Endures (handlers : Handlers σ) (server : EpollTcpServer σ) : Event → Prop
  | .listening accepts => Settles accepts
  | .ready fd r => ∀ watched, server.connections fd = some watched →
    ¬r.Breaks handlers.packetHandler watched server.state

/-- No `accept` fails and no `send` finds the pipe broken in these events. -/
def EventsEndure (handlers : Handlers σ) : EpollTcpServer σ → List Event → Prop
  | _, [] => True
  | server, event :: later =>
    event.Endures handlers server ∧
      EventsEndure handlers (handleEvent handlers server event).2 later

/-- No `accept` fails and no `send` finds the pipe broken in this round. -/
def Round.Endures (handlers : Handlers σ) (server : EpollTcpServer σ) (round : Round) : Prop :=
  round.keepRunning = true → ∀ events, round.wait = .ready events →
    EventsEndure handlers server events

/-- The loop is told to end, or `epoll_wait` fails. -/
def Round.Ends (round : Round) : Prop := round.keepRunning = false ∨ round.wait = .failed

/-- Up to the round that is to end the loop no `accept` fails and no `send` finds the pipe
broken. -/
def Undisturbed (handlers : Handlers σ) : EpollTcpServer σ → List Round → Prop
  | _, [] => True
  | server, round :: later => round.Ends ∨
    (round.Endures handlers server ∧
      Undisturbed handlers (runRound handlers server round).2 later)

theorem acceptConnections_fst :
    ∀ (accepts : List Accept) (server : EpollTcpServer σ),
      (acceptConnections server accepts).1 = true ↔ Settles accepts
  | [], _ => Iff.of_eq (eq_true rfl) |>.trans Iff.rfl
  | .wouldBlock :: _, _ => iff_of_true rfl trivial
  | .failed :: _, _ => iff_of_false nofun id
  | .accepted fd peerAddress nonBlocking added :: later, server => by
    rw [acceptConnections, Settles]
    split
    · exact acceptConnections_fst later _
    · dsimp only
      split
      · exact acceptConnections_fst later _
      · exact acceptConnections_fst later _

theorem writeLoop_breaks :
    ∀ (queue : List (List UInt8)) (sends : List Send),
      (writeLoop queue sends).1 = .breaks ↔ Breaks queue sends
  | [], _ => by simp [writeLoop, Breaks]
  | _ :: _, [] => by simp [writeLoop, Breaks]
  | _ :: _, .wouldBlock :: _ => by simp [writeLoop, Breaks]
  | current :: queue, .interrupted :: sends => by
    rw [writeLoop, Breaks]
    exact writeLoop_breaks (current :: queue) sends
  | _ :: _, .brokenPipe :: _ => by simp [writeLoop, Breaks]
  | _ :: _, .failed :: _ => by simp [writeLoop, Breaks]
  | current :: queue, .sent count :: sends => by
    have hrest := writeLoop_breaks queue sends
    rw [writeLoop, Breaks]
    split
    · rename_i hcount
      exact hrest.trans (and_iff_right hcount).symm
    · rename_i hcount
      exact iff_of_false nofun fun h => hcount h.1

/-- `SIGPIPE` kills the server where `HandleWrite` finds a broken pipe. -/
theorem Watched.handleWrite_killed {watched : Watched} {sends : List Send} {modified : Bool} :
    (watched.handleWrite sends modified).1 = .killed ↔ Breaks watched.writeQueue sends := by
  rw [← writeLoop_breaks, Watched.handleWrite]
  rcases writeLoop watched.writeQueue sends with ⟨_ | _ | _ | _, queue, sent⟩
  · cases modified with
    | true => exact iff_of_false nofun nofun
    | false => exact iff_of_false nofun nofun
  · exact iff_of_false nofun nofun
  · exact iff_of_true rfl rfl
  · exact iff_of_false nofun nofun

theorem serve_killed {watched : Watched} {ready : Ready} {s : σ} :
    (serve packetHandler watched ready s).1 = .killed ↔
      ready.Breaks packetHandler watched s := by
  rw [serve, Ready.Breaks]
  split
  · rename_i hhangup
    exact iff_of_false nofun fun h => absurd (hhangup.symm.trans h.1) (by simp)
  · rename_i hhangup
    rcases serveRead packetHandler watched ready s with ⟨keep, passed, watched', s'⟩
    dsimp only
    rw [and_iff_right (Bool.not_eq_true _ ▸ hhangup)]
    split
    · rename_i hwrites
      obtain ⟨hkeep, hwritable⟩ := Bool.and_eq_true_iff.mp hwrites
      exact Watched.handleWrite_killed.trans
        ⟨fun h => ⟨hkeep, hwritable, h⟩, fun h => h.2.2⟩
    · rename_i hwrites
      refine iff_of_false ?_ fun h => hwrites (Bool.and_eq_true_iff.mpr ⟨h.1, h.2.1⟩)
      split
      · exact nofun
      · exact nofun

theorem handleEvent_fst (handlers : Handlers σ) (server : EpollTcpServer σ) (event : Event) :
    (handleEvent handlers server event).1 = .goesOn ↔ event.Endures handlers server := by
  cases event with
  | listening accepts =>
    rw [handleEvent, Event.Endures, ← acceptConnections_fst accepts server]
    rcases acceptConnections server accepts with ⟨_ | _, server'⟩
    · exact iff_of_false nofun nofun
    · exact iff_of_true rfl rfl
  | ready fd ready =>
    cases hwatched : server.connections fd with
    | none =>
      refine iff_of_true (by simp only [handleEvent, hwatched]) fun watched h => ?_
      cases hwatched.symm.trans h
    | some watched =>
      have hkilled := @serve_killed _ handlers.packetHandler watched ready server.state
      rcases hserve : serve handlers.packetHandler watched ready server.state with
        ⟨fate, passed, watched', s'⟩
      rw [hserve] at hkilled
      rw [handleEvent_ready hwatched hserve]
      constructor
      · rintro hgoes watched₁ hwatched₁ hbreaks
        obtain rfl := Option.some.inj (hwatched.symm.trans hwatched₁)
        obtain rfl : fate = .killed := hkilled.mpr hbreaks
        cases hgoes
      · intro hendures
        exact if_neg fun hfate => hendures watched hwatched (hkilled.mp hfate)

theorem handleEvents_fst (handlers : Handlers σ) :
    ∀ (events : List Event) (server : EpollTcpServer σ),
      (handleEvents handlers server events).1 = .goesOn ↔ EventsEndure handlers server events
  | [], _ => iff_of_true rfl trivial
  | event :: later, server => by
    rw [handleEvents, EventsEndure, ← handleEvent_fst handlers server event]
    rcases handleEvent handlers server event with ⟨_ | _ | _, server'⟩
    · exact (handleEvents_fst handlers later server').trans (and_iff_right rfl).symm
    · exact iff_of_false nofun fun h => nomatch h.1
    · exact iff_of_false nofun fun h => nomatch h.1

theorem Round.not_ends {wait : Wait} (h : wait ≠ .failed) : ¬(⟨true, wait⟩ : Round).Ends := by
  rintro (hkeep | hwait)
  · cases hkeep
  · exact h hwait

/-- A round goes on if it is not to end the loop and no client ends it. -/
theorem runRound_fst (handlers : Handlers σ) (server : EpollTcpServer σ) (round : Round) :
    (runRound handlers server round).1 = none ↔ ¬round.Ends ∧ round.Endures handlers server := by
  obtain ⟨_ | _, wait⟩ := round
  · exact iff_of_false nofun fun h => h.1 (.inl rfl)
  · cases wait with
    | interrupted => exact iff_of_true rfl ⟨Round.not_ends nofun, fun _ _ h => nomatch h⟩
    | failed => exact iff_of_false nofun fun h => h.1 (.inr rfl)
    | ready events =>
      have hevents := handleEvents_fst handlers events server
      have hends : ¬(⟨true, .ready events⟩ : Round).Ends := Round.not_ends nofun
      have hendures : (⟨true, .ready events⟩ : Round).Endures handlers server ↔
          EventsEndure handlers server events :=
        ⟨fun h => h rfl events rfl, fun h _ _ heq => Wait.ready.inj heq ▸ h⟩
      rw [and_iff_right hends, hendures, ← hevents, runRound]
      rcases hresult : handleEvents handlers server events with ⟨_ | _ | _, server'⟩
      · simp [hresult]
      · simp [hresult]
      · simp [hresult]

/-- The loop ends in a round that is to end it, or in the first one that a client ends. -/
theorem run_ends_iff (handlers : Handlers σ) :
    ∀ (rounds : List Round) (server : EpollTcpServer σ),
      (∀ round ending, (run handlers server rounds).1 = some (round, ending) → round.Ends) ↔
        Undisturbed handlers server rounds
  | [], _ => iff_of_true nofun trivial
  | first :: later, server => by
    have hfirst := runRound_fst handlers server first
    rw [run, Undisturbed]
    rcases hround : runRound handlers server first with ⟨_ | ending, server'⟩
    · -- the loop goes on behind the first round
      obtain ⟨hends, hendures⟩ := hfirst.mp (congrArg Prod.fst hround)
      rw [or_iff_right hends, and_iff_right hendures]
      exact run_ends_iff handlers later server'
    · -- it ends here, so either it was to or a client has ended it
      have hstops : ¬(¬first.Ends ∧ first.Endures handlers server) := by
        rw [← hfirst, hround]
        exact nofun
      refine ⟨fun h => .inl (h first ending rfl), fun h round ending' heq => ?_⟩
      obtain ⟨rfl, -⟩ := Prod.mk.inj (Option.some.inj heq)
      rcases h with hends | ⟨hendures, -⟩
      · exact hends
      · by_contra hends
        exact hstops ⟨hends, hendures⟩

/-- **No single client stops the server**, exactly as long as no `accept` fails and no
`send` finds the pipe broken: the loop ends only when it is told to or when `epoll_wait`
fails if and only if that holds up to then. An event on one connection lets the loop go on
and leaves all other connections as they are if and only if no `send` of it finds the pipe
broken; so does accepting connections if and only if no `accept` fails. -/
theorem run_returns_iff (handlers : Handlers σ) :
    (∀ (server : EpollTcpServer σ) (rounds : List Round),
      (∀ round ending, (run handlers server rounds).1 = some (round, ending) → round.Ends) ↔
        Undisturbed handlers server rounds) ∧
    (∀ (server : EpollTcpServer σ) (fd : ℕ) (ready : Ready),
      ((handleEvent handlers server (.ready fd ready)).1 = .goesOn ∧
        ∀ fd', fd' ≠ fd → (handleEvent handlers server (.ready fd ready)).2.connections fd' =
          server.connections fd') ↔
        (Event.ready fd ready).Endures handlers server) ∧
    ∀ (server : EpollTcpServer σ) (accepts : List Accept),
      ((handleEvent handlers server (.listening accepts)).1 = .goesOn ∧
        ∀ fd watched, server.connections fd = some watched →
          (handleEvent handlers server (.listening accepts)).2.connections fd = some watched) ↔
        (Event.listening accepts).Endures handlers server := by
  refine ⟨fun server rounds => run_ends_iff handlers rounds server, fun server fd ready => ?_,
    fun server accepts => ?_⟩
  · rw [handleEvent_fst]
    exact and_iff_left fun fd' h => handleEvent_other h
  · rw [handleEvent_fst]
    exact and_iff_left fun fd watched h => acceptConnections_kept accepts h

/-- A connection that is aborted before it is accepted makes `Run` return, and one that is
reset before its response is sent has the server killed. -/
theorem aborted_connection_stops_server :
    (¬∀ (σ : Type) (handlers : Handlers σ) (server : EpollTcpServer σ) (rounds : List Round)
      (round : Round) (code : ℕ),
      (run handlers server rounds).1 = some (round, .returned code) → round.Ends) ∧
    ¬∀ (σ : Type) (handlers : Handlers σ) (server : EpollTcpServer σ) (rounds : List Round)
      (round : Round),
      (run handlers server rounds).1 = some (round, .killed) → round.Ends := by
  refine ⟨fun h => ?_, fun h => ?_⟩
  · have hends := h Unit ⟨fun _ s => (none, s), fun _ s => s⟩ { state := () }
      [{ wait := .ready [.listening [.failed]] }] _ _ rfl
    exact Round.not_ends (by exact nofun) hends
  · let response : Packet := { header := { msgId := 7 } }
    have hends := h Unit ⟨fun _ s => (none, s), fun _ s => s⟩
      { connections := fun _ => some ((Watched.accepted 1 "peer").queueResponse response true)
        state := () }
      [{ wait := .ready [.ready 5 { writable := true, sends := [.brokenPipe] }] }] _ rfl
    exact Round.not_ends (by exact nofun) hends

end EpollTcpServer

end GameBackend
