import GameBackend.Packets

/-!
# Reading a connection

`EpollTcpServer::HandleRead`: append what `recv` brings until it would block, then
take packets off `read_buffer` and hand each to `packet_handler_`. The handler is any
function with a state of its own.

`handleRead_frames` ties a series of calls on an open connection to the frames of
`packetFrames`. From it come the two results on segmentation: a stream of well-formed
packets is handled packet by packet however it is cut (`framed_packets_handled`), and
which streams are handled alike however they are cut (`dispatch_independent_iff`).
-/

namespace GameBackend

/-- What one `recv` into the buffer of 4096 bytes brings. -/
structure Chunk where
  bytes : List UInt8
  nonempty : bytes ≠ []
  fits : bytes.length ≤ 4096

/-- How one `recv` ends. -/
inductive Recv where
  | bytes (chunk : Chunk)
  /-- `EINTR` -/
  | interrupted
  /-- `EAGAIN` -/
  | wouldBlock
  /-- the peer closed the connection -/
  | closed
  | failed

/-- A packet as it is handed to the handler. -/
structure IncomingPacket where
  connectionId : UInt64
  packet : Packet
  peerAddress : String

structure Connection where
  id : UInt64 := 0
  peerAddress : String := ""
  readBuffer : List UInt8 := []
  writeQueue : List (List UInt8) := []

/-- A connection as `AcceptConnections` makes it. -/
def Connection.accepted (id : UInt64) (peerAddress : String) : Connection := { id, peerAddress }

/-- `packet_handler_`, with what it reads and changes. -/
abbrev PacketHandler (σ : Type) : Type := IncomingPacket → σ → Option Packet × σ

namespace EpollTcpServer

variable {σ : Type}

def queueResponse (connection : Connection) (packet : Packet) : Connection :=
  { connection with
    writeQueue := connection.writeQueue ++ [encodePacket packet.header packet.body] }

/-- The first loop of `HandleRead` over what `recv` brings, which would block at the
end. Whether the connection stays open, and the buffer. -/
def recvLoop (buffer : List UInt8) : List Recv → Bool × List UInt8
  | [] => (true, buffer)
  | .bytes chunk :: later => recvLoop (buffer ++ chunk.bytes) later
  | .interrupted :: later => recvLoop buffer later
  | .wouldBlock :: _ => (true, buffer)
  | .closed :: _ => (false, buffer)
  | .failed :: _ => (false, buffer)

/-- The second loop of `HandleRead`, stopped after `fuel` rounds. The packets passed to
the handler, the connection and the handler's state. -/
def extractLoop (packetHandler : PacketHandler σ) :
    ℕ → Connection → σ → Option (List Packet × Connection × σ)
  | 0, _, _ => none
  | fuel + 1, connection, s =>
    match tryExtractPacket connection.readBuffer with
    | (none, buffer) => some ([], { connection with readBuffer := buffer }, s)
    | (some packet, buffer) =>
      let connection := { connection with readBuffer := buffer }
      let (response, s) := packetHandler ⟨connection.id, packet, connection.peerAddress⟩ s
      let connection :=
        match response with
        | some response => queueResponse connection response
        | none => connection
      match extractLoop packetHandler fuel connection s with
      | none => none
      | some (handled, connection, s) => some (packet :: handled, connection, s)

/-- `HandleRead`, with what it returns first. The loop gets more rounds than the buffer
has bytes. -/
def handleRead (packetHandler : PacketHandler σ) (connection : Connection)
    (recvs : List Recv) (s : σ) : Option (Bool × List Packet × Connection × σ) :=
  match recvLoop connection.readBuffer recvs with
  | (false, buffer) => some (false, [], { connection with readBuffer := buffer }, s)
  | (true, buffer) =>
    match extractLoop packetHandler (buffer.length + 1) { connection with readBuffer := buffer } s
    with
    | none => none
    | some (handled, connection, s) => some (true, handled, connection, s)

/-- A series of calls, which ends when one closes the connection. -/
def handleReads (packetHandler : PacketHandler σ) (connection : Connection) :
    List (List Recv) → σ → Option (Bool × List Packet × Connection × σ)
  | [], s => some (true, [], connection, s)
  | recvs :: later, s =>
    match handleRead packetHandler connection recvs s with
    | none => none
    | some (false, handled, connection, s) => some (false, handled, connection, s)
    | some (true, handled, connection, s) =>
      match handleReads packetHandler connection later s with
      | none => none
      | some (keep, handled', connection, s) => some (keep, handled ++ handled', connection, s)

/-! ### The loops -/

/-- The bytes that `recv` brought. -/
def received : List Recv → List UInt8
  | [] => []
  | .bytes chunk :: later => chunk.bytes ++ received later
  | _ :: later => received later

/-- The connection stays open: `recv` brings bytes or is interrupted, and then would block. -/
def Open (recvs : List Recv) : Prop :=
  ∀ r ∈ recvs, r = .interrupted ∨ ∃ chunk, r = .bytes chunk

theorem recvLoop_open {recvs : List Recv} (h : Open recvs) (buffer : List UInt8) :
    recvLoop buffer recvs = (true, buffer ++ received recvs) := by
  induction recvs generalizing buffer with
  | nil => simp [recvLoop, received]
  | cons r later ih =>
    have hlater : Open later := fun r hr => h r (List.mem_cons_of_mem _ hr)
    obtain rfl | ⟨chunk, rfl⟩ := h r List.mem_cons_self
    · simp only [recvLoop, received, ih hlater]
    · simp only [recvLoop, received, ih hlater, List.append_assoc]

/-- The loop ends within as many rounds as the buffer has bytes, and one. It takes the
frames of the buffer and leaves what is left of it. -/
theorem extractLoop_frames (packetHandler : PacketHandler σ) {fuel : ℕ}
    {connection : Connection} (hfuel : connection.readBuffer.length < fuel) (s : σ) :
    ∃ connection' s', extractLoop packetHandler fuel connection s =
        some ((packetFrames.drain connection.readBuffer).1, connection', s') ∧
      connection'.readBuffer = (packetFrames.drain connection.readBuffer).2 := by
  induction fuel generalizing connection s with
  | zero => exact absurd hfuel (Nat.not_lt_zero _)
  | succ fuel ih =>
    rw [extractLoop, tryExtractPacket_scan]
    cases hscan : packetFrames.scan connection.readBuffer with
    | wait =>
      rw [packetFrames.drain_wait hscan]
      exact ⟨_, _, rfl, rfl⟩
    | reject =>
      rw [packetFrames.drain_reject hscan]
      exact ⟨_, _, rfl, rfl⟩
    | frame packet rest =>
      have hshorter := packetFrames.frame_shorter hscan
      rw [packetFrames.drain_frame hscan]
      have hrest : rest.length < fuel := by omega
      -- the response changes nothing but the write queue
      rcases hcalled : packetHandler ⟨connection.id, packet, connection.peerAddress⟩ s with
        ⟨_ | response, s₁⟩
      · have hnext : ({ connection with readBuffer := rest } : Connection).readBuffer.length <
            fuel := hrest
        obtain ⟨connection', s', hloop, hleft⟩ := ih hnext s₁
        refine ⟨connection', s', ?_, hleft⟩
        simp only [hcalled, hloop]
      · have hnext : (queueResponse { connection with readBuffer := rest }
            response).readBuffer.length < fuel := hrest
        obtain ⟨connection', s', hloop, hleft⟩ := ih hnext s₁
        refine ⟨connection', s', ?_, hleft⟩
        simp only [hcalled, hloop]
        rfl

theorem handleRead_frames (packetHandler : PacketHandler σ) (connection : Connection)
    {recvs : List Recv} (hopen : Open recvs) (s : σ) :
    ∃ connection' s', handleRead packetHandler connection recvs s =
        some (true, (packetFrames.drain (connection.readBuffer ++ received recvs)).1,
          connection', s') ∧
      connection'.readBuffer =
        (packetFrames.drain (connection.readBuffer ++ received recvs)).2 := by
  let filled : Connection :=
    { connection with readBuffer := connection.readBuffer ++ received recvs }
  obtain ⟨connection', s', hloop, hleft⟩ :=
    extractLoop_frames packetHandler (Nat.lt_succ_self filled.readBuffer.length) s
  simp only [filled] at hloop
  refine ⟨connection', s', ?_, hleft⟩
  simp only [handleRead, recvLoop_open hopen, hloop]

/-- A series of calls on an open connection drains the buffer after each arrival. -/
theorem handleReads_frames (packetHandler : PacketHandler σ) (connection : Connection)
    {calls : List (List Recv)} (hopen : ∀ call ∈ calls, Open call) (s : σ) :
    ∃ connection' s', handleReads packetHandler connection calls s =
        some (true, (packetFrames.receive connection.readBuffer (calls.map received)).1,
          connection', s') ∧
      connection'.readBuffer =
        (packetFrames.receive connection.readBuffer (calls.map received)).2 := by
  induction calls generalizing connection s with
  | nil => exact ⟨connection, s, rfl, rfl⟩
  | cons call later ih =>
    obtain ⟨connection₁, s₁, hcall, hbuffer⟩ :=
      handleRead_frames packetHandler connection (hopen call List.mem_cons_self) s
    obtain ⟨connection', s', hlater, hleft⟩ :=
      ih connection₁ (fun call hmem => hopen call (List.mem_cons_of_mem _ hmem)) s₁
    rw [hbuffer] at hlater hleft
    refine ⟨connection', s', ?_, ?_⟩
    · simp only [handleReads, hcall, hlater, List.map_cons, packetFrames.receive_cons]
    · rw [List.map_cons, packetFrames.receive_cons]
      exact hleft

/-! ### Answers in order -/

/-- A handler that always answers queues one answer for each packet, in their order. -/
theorem extractLoop_answers {packetHandler : PacketHandler σ}
    (hanswers : ∀ incoming s, (packetHandler incoming s).1.isSome) {fuel : ℕ}
    {connection connection' : Connection} {handled : List Packet} {s s' : σ}
    (h : extractLoop packetHandler fuel connection s = some (handled, connection', s')) :
    ∃ responses : List Packet, responses.length = handled.length ∧
      connection'.writeQueue = connection.writeQueue ++ responses.map Packet.encode := by
  induction fuel generalizing connection handled s with
  | zero => cases h
  | succ fuel ih =>
    rw [extractLoop] at h
    split at h
    · cases h
      exact ⟨[], rfl, (List.append_nil _).symm⟩
    · rename_i packet buffer hextract
      obtain ⟨response, hresponse⟩ := Option.isSome_iff_exists.mp
        (hanswers ⟨connection.id, packet, connection.peerAddress⟩ s)
      simp only [hresponse] at h
      split at h
      · cases h
      · rename_i hloop
        cases h
        obtain ⟨responses, hlength, hqueue⟩ := ih hloop
        refine ⟨response :: responses, by rw [List.length_cons, List.length_cons, hlength], ?_⟩
        rw [hqueue, queueResponse, List.map_cons, List.append_assoc]
        rfl

theorem handleReads_answers {packetHandler : PacketHandler σ}
    (hanswers : ∀ incoming s, (packetHandler incoming s).1.isSome)
    {connection connection' : Connection} {calls : List (List Recv)} {keep : Bool}
    {handled : List Packet} {s s' : σ}
    (h : handleReads packetHandler connection calls s = some (keep, handled, connection', s')) :
    ∃ responses : List Packet, responses.length = handled.length ∧
      connection'.writeQueue = connection.writeQueue ++ responses.map Packet.encode := by
  induction calls generalizing connection handled s with
  | nil =>
    cases h
    exact ⟨[], rfl, (List.append_nil _).symm⟩
  | cons call later ih =>
    have hcall {connection₁ : Connection} {keep₁ : Bool} {handled₁ : List Packet} {s₁ : σ}
        (h₁ : handleRead packetHandler connection call s =
          some (keep₁, handled₁, connection₁, s₁)) :
        ∃ responses : List Packet, responses.length = handled₁.length ∧
          connection₁.writeQueue = connection.writeQueue ++ responses.map Packet.encode := by
      rw [handleRead] at h₁
      split at h₁
      · cases h₁
        exact ⟨[], rfl, (List.append_nil _).symm⟩
      · split at h₁
        · cases h₁
        · rename_i hloop
          cases h₁
          have hqueued := extractLoop_answers hanswers hloop
          exact hqueued
    rw [handleReads] at h
    split at h
    · cases h
    · rename_i hfirst
      cases h
      exact hcall hfirst
    · rename_i hfirst
      split at h
      · cases h
      · rename_i hlater
        cases h
        obtain ⟨first, hlength, hqueue⟩ := hcall hfirst
        obtain ⟨rest, hlength', hqueue'⟩ := ih hlater
        refine ⟨first ++ rest, ?_, ?_⟩
        · rw [List.length_append, List.length_append, hlength, hlength']
        · rw [hqueue', hqueue, List.map_append, List.append_assoc]

/-! ### Segmentation -/

/-- The calls read a stream on a connection that stays open. -/
def Delivers (stream : List UInt8) (calls : List (List Recv)) : Prop :=
  (∀ call ∈ calls, Open call) ∧ (calls.map received).flatten = stream

/-- The packets handed to the handler in a series of calls. -/
def dispatched (packetHandler : PacketHandler σ) (connection : Connection)
    (calls : List (List Recv)) (s : σ) : Option (List Packet) :=
  (handleReads packetHandler connection calls s).map fun result => result.2.1

theorem dispatched_eq (packetHandler : PacketHandler σ) (connection : Connection)
    {calls : List (List Recv)} (hopen : ∀ call ∈ calls, Open call) (s : σ) :
    dispatched packetHandler connection calls s =
      some (packetFrames.receive connection.readBuffer (calls.map received)).1 := by
  obtain ⟨connection', s', hcalls, -⟩ := handleReads_frames packetHandler connection hopen s
  rw [dispatched, hcalls, Option.map_some]

/-- Bytes that arrive one at a time. -/
def singly (bytes : List UInt8) : List Recv :=
  bytes.map fun byte => .bytes ⟨[byte], List.cons_ne_nil _ _, by simp⟩

theorem singly_open (bytes : List UInt8) : Open (singly bytes) := by
  intro r hr
  obtain ⟨byte, -, rfl⟩ := List.mem_map.mp hr
  exact .inr ⟨_, rfl⟩

theorem received_singly (bytes : List UInt8) : received (singly bytes) = bytes := by
  induction bytes with
  | nil => rfl
  | cons byte bytes ih => exact congrArg (byte :: ·) ih

/-- Every way to cut a stream in calls is the way of some series of calls. -/
theorem delivers_singly (arrivals : List (List UInt8)) :
    Delivers arrivals.flatten (arrivals.map singly) ∧
      (arrivals.map singly).map received = arrivals := by
  have hback : (arrivals.map singly).map received = arrivals := by
    rw [List.map_map]
    exact (List.map_congr_left fun bytes _ => received_singly bytes).trans (List.map_id _)
  refine ⟨⟨fun call hcall => ?_, by rw [hback]⟩, hback⟩
  obtain ⟨bytes, -, rfl⟩ := List.mem_map.mp hcall
  exact singly_open bytes

/-- However a stream of well-formed packets is cut, the packets handed to the handler
are these in their order, and after each call the buffer holds what has arrived of the
next frame. The extraction loop ends, whatever the buffer. -/
theorem framed_packets_handled (packetHandler : PacketHandler σ) (id : UInt64)
    (peerAddress : String) (s : σ) (packets : List Packet) (calls : List (List Recv))
    (hwf : ∀ packet ∈ packets, packet.WellFormed)
    (hcalls : Delivers (packets.flatMap Packet.encode) calls) :
    dispatched packetHandler (.accepted id peerAddress) calls s = some packets ∧
    (∀ before after, calls = before ++ after → ∃ handled next connection s',
      handleReads packetHandler (.accepted id peerAddress) before s =
        some (true, handled, connection, s') ∧
      packets = handled ++ next ∧
      (before.map received).flatten =
        handled.flatMap Packet.encode ++ connection.readBuffer ∧
      Unfinished next connection.readBuffer) ∧
    ∀ (connection : Connection) (s : σ),
      (extractLoop packetHandler (connection.readBuffer.length + 1) connection s).isSome := by
  obtain ⟨hopen, hstream⟩ := hcalls
  refine ⟨?_, ?_, fun connection s => ?_⟩
  · have hclean : packetFrames.Clean ([] ++ (calls.map received).flatten) := by
      rw [List.nil_append, hstream]
      exact clean_packets hwf
    rw [dispatched_eq packetHandler _ hopen]
    change some (packetFrames.receive [] _).1 = _
    rw [hclean.receive_eq packetFrames.scan_nil, List.nil_append, hstream,
      drain_all_packets hwf]
  · rintro before after rfl
    have hbefore : ∀ call ∈ before, Open call :=
      fun call hmem => hopen call (List.mem_append_left _ hmem)
    rw [List.map_append, List.flatten_append] at hstream
    obtain ⟨connection, s', hreads, hbuffer⟩ :=
      handleReads_frames packetHandler (.accepted id peerAddress) hbefore s
    have hclean : packetFrames.Clean ([] ++ (before.map received).flatten) := by
      have := clean_packets hwf
      rw [← hstream] at this
      exact this.of_append
    obtain ⟨next, hnext, hbytes, hleft⟩ := drain_packets hwf hstream
    change connection.readBuffer = (packetFrames.receive [] _).2 at hbuffer
    change _ = some (true, (packetFrames.receive [] _).1, _) at hreads
    rw [hclean.receive_eq packetFrames.scan_nil, List.nil_append] at hreads hbuffer
    rw [← hbuffer] at hbytes hleft
    exact ⟨_, next, connection, s', hreads, hnext, hbytes, hleft⟩
  · obtain ⟨connection', s', hloop, -⟩ :=
      extractLoop_frames packetHandler (Nat.lt_succ_self connection.readBuffer.length) s
    rw [hloop]
    rfl

theorem framed_packets_handled_demo :
    let ping : Packet := { header := { msgId := 7, bodyLen := 1 }, body := [9] }
    let call : List Recv := singly ping.encode
    dispatched (fun _ (s : Unit) => (none, s)) (.accepted 1 "peer") [call, call] () =
      some [ping, ping] := by
  intro ping call
  refine (framed_packets_handled _ 1 "peer" () [ping, ping] [call, call] ?_ ?_).1
  · intro packet hmem
    obtain rfl : packet = ping := by simpa using hmem
    decide
  · refine ⟨fun c hc => ?_, ?_⟩
    · obtain rfl : c = call := by simpa using hc
      exact singly_open _
    · have hcall : received call = ping.encode := received_singly _
      simp [hcall]

/-- The packets handed to the handler are the same for all ways to cut a stream exactly
when the stream comes to no bad header, or holds no whole frame behind it. -/
theorem dispatch_independent_iff (packetHandler : PacketHandler σ) (id : UInt64)
    (peerAddress : String) (s : σ) (stream : List UInt8) :
    (∀ calls calls' : List (List Recv), Delivers stream calls → Delivers stream calls' →
      dispatched packetHandler (.accepted id peerAddress) calls s =
        dispatched packetHandler (.accepted id peerAddress) calls' s) ↔
      Determinate stream := by
  rw [← settled_iff_determinate, ← Extractor.receive_eq_iff]
  constructor
  · intro h arrivals arrivals' hstream hstream'
    obtain ⟨hcalls, hback⟩ := delivers_singly arrivals
    obtain ⟨hcalls', hback'⟩ := delivers_singly arrivals'
    have heq := h _ _ (hstream ▸ hcalls) (hstream' ▸ hcalls')
    rw [dispatched_eq packetHandler _ hcalls.1, dispatched_eq packetHandler _ hcalls'.1, hback,
      hback'] at heq
    exact Option.some.inj heq
  · intro h calls calls' hcalls hcalls'
    rw [dispatched_eq packetHandler _ hcalls.1, dispatched_eq packetHandler _ hcalls'.1]
    exact congrArg some (h _ _ hcalls.2 hcalls'.2)

/-- A ping behind a header of zeros is dropped when both arrive together and handled when
they arrive one after the other. -/
theorem dispatch_depends_on_segmentation :
    ¬∀ (stream : List UInt8) (calls calls' : List (List Recv)),
      Delivers stream calls → Delivers stream calls' →
      dispatched (fun _ (s : Unit) => (none, s)) (.accepted 1 "peer") calls () =
        dispatched (fun _ (s : Unit) => (none, s)) (.accepted 1 "peer") calls' () := by
  intro h
  let zeros : List UInt8 := List.replicate 24 0
  let ping : List UInt8 := Packet.encode { header := { msgId := 7 } }
  have htogether := delivers_singly [zeros ++ ping]
  have hapart := delivers_singly [zeros, ping]
  have heq := h (zeros ++ ping) _ _ (by simpa using htogether.1) (by simpa using hapart.1)
  exact absurd heq (by decide +kernel)

end EpollTcpServer

end GameBackend
