import GameBackend.Packets
import GameBackend.Computation
import Mathlib.Logic.Function.Basic

/-!
# The upstream client pool

`UpstreamClientPool` hands its calls to its clients in turn. A `PersistentTcpClient`
serves one call at a time, over a connection that it keeps from call to call and closes
when a call fails.

`Upstream` is a pool with the connections it has opened. `Upstream.step` makes one
step: a thread calls the pool, a call gets the mutex of its client, a call goes through
one round of its current loop (one `poll` and one `send` or `recv`), or the service
answers the next frame of a connection, also of one that the client has closed.

Every byte on a connection is kept with the call that wrote it. No step depends on
these marks.
-/

namespace GameBackend

/-! ## What the system calls do -/

/-- How `Connect` ends. -/
inductive ConnectOutcome where
  /-- `getaddrinfo` fails -/
  | unresolved
  /-- no address accepts -/
  | refused
  | connected
  deriving DecidableEq, Repr

/-- How `poll` ends. -/
inductive PollOutcome where
  | ready
  | timeout
  /-- `poll` fails, with the text of `strerror` -/
  | failed (text : String)
  /-- `POLLERR`, `POLLHUP` or `POLLNVAL` -/
  | socketError
  deriving DecidableEq, Repr

/-- How `send` ends. -/
inductive SendOutcome where
  | sent (count : ℕ)
  | interrupted
  | failed (text : String)
  deriving DecidableEq, Repr

/-- How `recv` ends on a blocking socket. -/
inductive RecvOutcome where
  | bytes (chunk : List UInt8)
  | closed
  | interrupted
  | failed (text : String)
  deriving DecidableEq, Repr

/-- `WaitForEvent`: its error message when it returns false. -/
def waitForEvent : PollOutcome → Option String
  | .ready => none
  | .timeout => some "timeout"
  | .failed text => some text
  | .socketError => some "socket error"

/-! ## Connections -/

/-- A frame that the service has read off a connection, and its answer. -/
structure Served where
  /-- where the frame starts in the bytes of the connection -/
  start : ℕ
  request : Packet
  answer : Packet
  deriving DecidableEq, Repr

/-- A connection to the service, open or closed. -/
structure Wire where
  /-- the bytes written by the client, each with the number of its call -/
  sent : List (ℕ × UInt8) := []
  /-- how many of them the service has read in whole frames -/
  taken : ℕ := 0
  served : List Served := []
  /-- the bytes read by the client -/
  received : List UInt8 := []
  deriving DecidableEq, Repr

namespace Wire

/-- The bytes that the service has yet to read as frames. -/
def pending (w : Wire) : List UInt8 := (w.sent.map Prod.snd).drop w.taken

/-- All bytes of the answers. -/
def answered (w : Wire) : List UInt8 := w.served.flatMap fun s => s.answer.encode

/-- The service answers the next frame. -/
def serve (w : Wire) (answer : Packet) : Wire :=
  { w with
    taken := w.taken + frameSize w.pending
    served := w.served ++ [⟨w.taken, framePacket w.pending, answer⟩] }

/-- Call `c` writes some bytes. -/
def write (w : Wire) (c : ℕ) (bytes : List UInt8) : Wire :=
  { w with sent := w.sent ++ bytes.map fun byte => (c, byte) }

/-- The client reads some bytes. -/
def read (w : Wire) (bytes : List UInt8) : Wire := { w with received := w.received ++ bytes }

end Wire

/-! ## Clients and calls -/

/-- Where a call is. -/
inductive Stage where
  | connecting
  /-- in the loop of `WritePacket`, with `encoded` and `written_total` -/
  | writing (encoded : List UInt8) (writtenTotal : ℕ)
  /-- in the loop of `ReadPacket`, with `buffer` -/
  | reading (buffer : List UInt8)
  deriving DecidableEq, Repr

structure PersistentTcpClient where
  /-- `socket_fd_`: the number of the connection -/
  socketFd : Option ℕ := none
  /-- the call that holds the mutex, and where it is -/
  running : Option (ℕ × Stage) := none
  deriving DecidableEq, Repr

/-- What a call of `SendAndReceive` returns: the response, or the error message. -/
abbrev SendResult : Type := Except String Packet

structure SendCall where
  request : Packet
  /-- the client it goes to -/
  index : ℕ
  /-- what it has returned -/
  result : Option SendResult := none

/-- An upstream client pool and its connections. -/
structure Upstream where
  host : String
  port : ℤ
  clientCount : ℕ
  clients : ℕ → PersistentTcpClient
  nextIndex : UInt64
  calls : ℕ → SendCall
  /-- how many calls there have been -/
  called : ℕ
  wires : ℕ → Wire
  /-- how many connections there have been -/
  connected : ℕ

/-- A step of the pool, its callers or the service. -/
inductive UpstreamStep where
  | call (request : Packet)
  /-- the call gets the mutex of its client -/
  | lock (c : ℕ)
  | connect (i : ℕ) (outcome : ConnectOutcome)
  | send (i : ℕ) (poll : PollOutcome) (outcome : SendOutcome)
  | recv (i : ℕ) (poll : PollOutcome) (outcome : RecvOutcome)
  /-- the service answers the next frame of connection `j` -/
  | serve (j : ℕ) (answer : Packet)
  deriving DecidableEq, Repr

namespace Upstream

/-- The constructor of the pool. -/
def create (host : String) (port poolSize : ℤ) : Upstream where
  host := host
  port := port
  clientCount := if poolSize > 0 then poolSize.toNat else 1
  clients := fun _ => {}
  nextIndex := 0
  calls := fun _ => { request := {}, index := 0 }
  called := 0
  wires := fun _ => {}
  connected := 0

def setClient (u : Upstream) (i : ℕ) (client : PersistentTcpClient) : Upstream :=
  { u with clients := Function.update u.clients i client }

def setWire (u : Upstream) (j : ℕ) (w : Wire) : Upstream :=
  { u with wires := Function.update u.wires j w }

/-- Call `c` returns, and client `i` keeps the connection `socketFd`. -/
def finish (u : Upstream) (i c : ℕ) (socketFd : Option ℕ) (result : SendResult) : Upstream :=
  { u.setClient i ⟨socketFd, none⟩ with
    calls := Function.update u.calls c { u.calls c with result := some result } }

/-- `UpstreamClientPool::SendAndReceive` up to the mutex of the client. -/
def call (u : Upstream) (request : Packet) : Upstream :=
  if u.clientCount = 0 then
    { u with
      calls := Function.update u.calls u.called
        { request, index := 0, result := some (.error "no upstream clients configured") }
      called := u.called + 1 }
  else
    { u with
      nextIndex := u.nextIndex + 1
      calls := Function.update u.calls u.called
        { request, index := u.nextIndex.toNat % u.clientCount }
      called := u.called + 1 }

/-- The call waits for the mutex of its client. -/
def Waiting (u : Upstream) (c : ℕ) : Prop :=
  c < u.called ∧ (u.calls c).result.isNone ∧
    (u.clients (u.calls c).index).running.map Prod.fst ≠ some c

instance (u : Upstream) (c : ℕ) : Decidable (u.Waiting c) := inferInstanceAs (Decidable (_ ∧ _ ∧ _))

/-- The start of `WritePacket`. -/
def startWriting (u : Upstream) (c : ℕ) : Stage :=
  .writing (encodePacket (u.calls c).request.header (u.calls c).request.body) 0

/-- `EnsureConnected`, up to `Connect`. -/
def lock (u : Upstream) (c : ℕ) : Option Upstream :=
  let i := (u.calls c).index
  if u.Waiting c ∧ (u.clients i).running = none then
    match (u.clients i).socketFd with
    | some j => some (u.setClient i ⟨some j, some (c, u.startWriting c)⟩)
    | none => some (u.setClient i ⟨none, some (c, .connecting)⟩)
  else none

def connect (u : Upstream) (i : ℕ) (outcome : ConnectOutcome) : Option Upstream :=
  match (u.clients i).running with
  | some (c, .connecting) =>
    match outcome with
    | .unresolved =>
      some (u.finish i c none
        (.error ("getaddrinfo failed for " ++ u.host ++ ":" ++ toString u.port)))
    | .refused =>
      some (u.finish i c none (.error ("connect failed to " ++ u.host ++ ":" ++ toString u.port)))
    | .connected =>
      some { u.setClient i ⟨some u.connected, some (c, u.startWriting c)⟩ with
        connected := u.connected + 1 }
  | _ => none

/-- One round of `WritePacket`. When it fails, `SendAndReceive` closes the connection;
after the last byte `ReadPacket` starts. -/
def send (u : Upstream) (i : ℕ) (poll : PollOutcome) (outcome : SendOutcome) :
    Option Upstream :=
  match (u.clients i).running, (u.clients i).socketFd with
  | some (c, .writing encoded writtenTotal), some j =>
    match waitForEvent poll with
    | some message => some (u.finish i c none (.error message))
    | none =>
      match outcome with
      | .interrupted => some u
      | .failed text => some (u.finish i c none (.error text))
      | .sent count =>
        if count ≤ encoded.length - writtenTotal then
          let u := u.setWire j ((u.wires j).write c ((encoded.drop writtenTotal).take count))
          if writtenTotal + count < encoded.length then
            some (u.setClient i ⟨some j, some (c, .writing encoded (writtenTotal + count))⟩)
          else some (u.setClient i ⟨some j, some (c, .reading [])⟩)
        else none
  | _, _ => none

/-- One round of `ReadPacket`, with the extraction that starts the next round. -/
def recv (u : Upstream) (i : ℕ) (poll : PollOutcome) (outcome : RecvOutcome) :
    Option Upstream :=
  match (u.clients i).running, (u.clients i).socketFd with
  | some (c, .reading buffer), some j =>
    match waitForEvent poll with
    | some message => some (u.finish i c none (.error message))
    | none =>
      match outcome with
      | .interrupted => some u
      | .failed text => some (u.finish i c none (.error text))
      | .closed => some (u.finish i c none (.error "peer closed connection"))
      | .bytes chunk =>
        -- the connection brings the bytes of the answers in their order
        if (u.wires j).received ++ chunk <+: (u.wires j).answered then
          let u := u.setWire j ((u.wires j).read chunk)
          match tryExtractPacket (buffer ++ chunk) with
          | (some packet, _) => some (u.finish i c (some j) (.ok packet))
          | (none, buffer) => some (u.setClient i ⟨some j, some (c, .reading buffer)⟩)
        else none
  | _, _ => none

/-- The service answers a frame once it has arrived whole. -/
def serve (u : Upstream) (j : ℕ) (answer : Packet) : Option Upstream :=
  if CompleteFrame (u.wires j).pending then some (u.setWire j ((u.wires j).serve answer)) else none

def step (u : Upstream) : UpstreamStep → Option Upstream
  | .call request => some (u.call request)
  | .lock c => u.lock c
  | .connect i outcome => u.connect i outcome
  | .send i poll outcome => u.send i poll outcome
  | .recv i poll outcome => u.recv i poll outcome
  | .serve j answer => u.serve j answer

/-- Requests have the length of their body in the header, and the service answers with
well-formed packets. -/
def Framed : UpstreamStep → Prop
  | .call request => request.Sized
  | .serve _ answer => answer.WellFormed
  | _ => True

instance : DecidablePred Framed
  | .call request => inferInstanceAs (Decidable request.Sized)
  | .serve _ answer => inferInstanceAs (Decidable answer.WellFormed)
  | .lock _ => inferInstanceAs (Decidable True)
  | .connect _ _ => inferInstanceAs (Decidable True)
  | .send _ _ _ => inferInstanceAs (Decidable True)
  | .recv _ _ _ => inferInstanceAs (Decidable True)

/-- The states that runs of a pool reach. -/
abbrev Reached (host : String) (port poolSize : ℤ) : Upstream → Prop :=
  Reach step (fun _ l => Framed l) (create host port poolSize)

end Upstream

end GameBackend
