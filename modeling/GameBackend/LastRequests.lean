import GameBackend.EventLoop

/-!
# The last requests of a connection

What happens to the frames that a peer sends before it closes its side. `HandleRead` takes
frames off the buffer only when `recv` would block in the end, and an event that announces
the end of the stream is not read at all. So the frames that are passed to the handler are
those of the bytes that the loop has heard (`Event.heard`), and all frames are handled
exactly if it has heard all of them before it closes the connection
(`requests_before_close_iff`).
-/

namespace GameBackend

namespace EpollTcpServer

variable {σ : Type} {handlers : Handlers σ} {packetHandler : PacketHandler σ}

/-! ## What is read and what is heard -/

/-- The bytes that `recv` brings before the loop of `HandleRead` ends. -/
def brought : List Recv → List UInt8
  | [] => []
  | .bytes chunk :: later => chunk.bytes ++ brought later
  | .interrupted :: later => brought later
  | .wouldBlock :: _ => []
  | .closed :: _ => []
  | .failed :: _ => []

/-- That loop ends because `recv` would block. -/
def blocks : List Recv → Bool
  | [] => true
  | .bytes _ :: later => blocks later
  | .interrupted :: later => blocks later
  | .wouldBlock :: _ => true
  | .closed :: _ => false
  | .failed :: _ => false

/-- The bytes that are read in an event on a connection. -/
def Ready.read (ready : Ready) : List UInt8 :=
  if !ready.hangup && ready.readable then brought ready.recvs else []

/-- The bytes that it goes on to take frames off. -/
def Ready.heard (ready : Ready) : List UInt8 :=
  if !ready.hangup && ready.readable && blocks ready.recvs then brought ready.recvs else []

/-- The bytes that an event reads from a descriptor. -/
def Event.read (fd : ℕ) : Event → List UInt8
  | .listening _ => []
  | .ready fd' r => if fd' = fd then r.read else []

/-- The bytes of a descriptor that an event hears. -/
def Event.heard (fd : ℕ) : Event → List UInt8
  | .listening _ => []
  | .ready fd' r => if fd' = fd then r.heard else []

theorem recvLoop_eq :
    ∀ (buffer : List UInt8) (recvs : List Recv),
      recvLoop buffer recvs = (blocks recvs, buffer ++ brought recvs)
  | buffer, [] => by simp [recvLoop, blocks, brought]
  | buffer, .bytes chunk :: later => by
    rw [recvLoop, recvLoop_eq, blocks, brought, List.append_assoc]
  | buffer, .interrupted :: later => by rw [recvLoop, recvLoop_eq, blocks, brought]
  | buffer, .wouldBlock :: later => by simp [recvLoop, blocks, brought]
  | buffer, .closed :: later => by simp [recvLoop, blocks, brought]
  | buffer, .failed :: later => by simp [recvLoop, blocks, brought]

/-- `HandleRead` keeps the connection and takes its frames, or closes it and takes none. -/
theorem handleRead_blocks (packetHandler : PacketHandler σ) (connection : Connection)
    (recvs : List Recv) (s : σ) :
    ∃ passed connection' s',
      handleRead packetHandler connection recvs s = some (blocks recvs, passed, connection', s') ∧
      (blocks recvs = false → passed = []) ∧
      (blocks recvs = true →
        passed = (packetFrames.drain (connection.readBuffer ++ brought recvs)).1 ∧
        connection'.readBuffer =
          (packetFrames.drain (connection.readBuffer ++ brought recvs)).2) := by
  rw [handleRead, recvLoop_eq]
  cases hblocks : blocks recvs with
  | false => exact ⟨[], _, s, rfl, fun _ => rfl, fun h => absurd h Bool.false_ne_true⟩
  | true =>
    let filled : Connection :=
      { connection with readBuffer := connection.readBuffer ++ brought recvs }
    obtain ⟨connection', s', hloop, hleft⟩ :=
      extractLoop_frames packetHandler (Nat.lt_succ_self filled.readBuffer.length) s
    simp only [filled] at hloop
    simp only [hloop]
    exact ⟨_, connection', s', rfl, fun h => absurd h.symm Bool.false_ne_true,
      fun _ => ⟨rfl, hleft⟩⟩

end EpollTcpServer

theorem Watched.handleWrite_readBuffer {watched : Watched} {sends : List Send} {modified : Bool} :
    (watched.handleWrite sends modified).2.readBuffer = watched.readBuffer := by
  rw [Watched.handleWrite]
  rcases EpollTcpServer.writeLoop watched.writeQueue sends with ⟨_ | _ | _ | _, queue, sent⟩
  · rfl
  · rfl
  · rfl
  · rfl

namespace EpollTcpServer

variable {σ : Type} {handlers : Handlers σ} {packetHandler : PacketHandler σ}

/-- `HandleRead`, if there is something to read, passes on the frames of what is heard. -/
theorem serveRead_heard (packetHandler : PacketHandler σ) {watched : Watched} {ready : Ready}
    (s : σ)
    (hwaits : packetFrames.scan watched.readBuffer = .wait) (hhangup : ready.hangup = false) :
    (serveRead packetHandler watched ready s).2.1 =
        (packetFrames.drain (watched.readBuffer ++ ready.heard)).1 ∧
      ((serveRead packetHandler watched ready s).1 = true →
        (serveRead packetHandler watched ready s).2.2.1.readBuffer =
          (packetFrames.drain (watched.readBuffer ++ ready.heard)).2 ∧
        ready.heard = ready.read) := by
  have hnothing := packetFrames.drain_wait hwaits
  rw [serveRead, Ready.heard, Ready.read, hhangup]
  cases ready.readable with
  | false => simp [hnothing]
  | true =>
    obtain ⟨passed, connection', s', hread, hlost, hpassed⟩ := handleRead_blocks packetHandler
      watched.toConnection ready.recvs s
    simp only [Watched.handleRead, hread, Option.get_some, if_true, Bool.not_false, Bool.true_and]
    cases hblocks : blocks ready.recvs with
    | false => exact ⟨by rw [hlost hblocks]; simp [hnothing],
        fun h => absurd h Bool.false_ne_true⟩
    | true => exact ⟨(hpassed hblocks).1, fun _ => ⟨(hpassed hblocks).2, rfl⟩⟩

/-- An event passes on the frames of what it has heard. A connection that it does not close
holds the rest of them, and has heard what it has read. -/
theorem serve_heard (packetHandler : PacketHandler σ) {watched : Watched} (ready : Ready) (s : σ)
    (hwaits : packetFrames.scan watched.readBuffer = .wait) :
    (serve packetHandler watched ready s).2.1 =
        (packetFrames.drain (watched.readBuffer ++ ready.heard)).1 ∧
      ((serve packetHandler watched ready s).1 ≠ .closed →
        (serve packetHandler watched ready s).2.2.1.readBuffer =
          (packetFrames.drain (watched.readBuffer ++ ready.heard)).2 ∧
        ready.heard = ready.read) := by
  rw [serve]
  cases hhangup : ready.hangup with
  | true =>
    have hnothing := packetFrames.drain_wait hwaits
    refine ⟨?_, fun h => absurd rfl h⟩
    simp [Ready.heard, hhangup, hnothing]
  | false =>
    have hread := serveRead_heard packetHandler s hwaits hhangup
    rcases hresult : serveRead packetHandler watched ready s with ⟨keep₁, passed₁, watched₁, s₁⟩
    rw [hresult] at hread
    simp only [Bool.false_eq_true, if_false]
    split
    · rename_i hwrites
      refine ⟨hread.1, fun _ => ?_⟩
      have hkeep : keep₁ = true := (Bool.and_eq_true_iff.mp hwrites).1
      exact ⟨Watched.handleWrite_readBuffer.trans (hread.2 hkeep).1, (hread.2 hkeep).2⟩
    · refine ⟨hread.1, fun hopen => hread.2 ?_⟩
      cases keep₁ with
      | true => rfl
      | false => exact absurd rfl hopen

/-! ## What is passed on -/

/-- The packets of a descriptor that were passed to the handler, oldest first. -/
def passedOn (fd : ℕ) : List Happening → List Packet
  | [] => []
  | .passed fd' packet :: earlier =>
    if fd' = fd then passedOn fd earlier ++ [packet] else passedOn fd earlier
  | .accepted _ _ :: earlier => passedOn fd earlier
  | .closed _ _ :: earlier => passedOn fd earlier

theorem passedOn_passed (fd fd' : ℕ) (log : List Happening) (passed : List Packet) :
    passedOn fd ((passed.map (.passed fd')).reverse ++ log) =
      if fd' = fd then passedOn fd log ++ passed else passedOn fd log := by
  induction passed generalizing log with
  | nil => simp
  | cons packet passed ih =>
    rw [List.map_cons, List.reverse_cons, List.append_assoc, List.singleton_append, ih]
    by_cases hfd : fd' = fd
    · simp [passedOn, hfd]
    · simp [passedOn, hfd]

theorem passedOn_accept {fd : ℕ} :
    ∀ (accepts : List Accept) (server : EpollTcpServer σ),
      passedOn fd (acceptConnections server accepts).2.log = passedOn fd server.log
  | [], _ => rfl
  | .wouldBlock :: _, _ => rfl
  | .failed :: _, _ => rfl
  | .accepted _ _ _ _ :: later, server => by
    rw [acceptConnections]
    split
    · exact passedOn_accept later server
    · dsimp only
      split
      · exact passedOn_accept later _
      · exact passedOn_accept later _

/-- The connection of this descriptor has heard these bytes: it has passed on their frames
behind these `earlier` ones, and holds the rest. -/
structure Heard (fd : ℕ) (earlier : List Packet) (server : EpollTcpServer σ)
    (heard : List UInt8) : Prop where
  passed : passedOn fd server.log = earlier ++ (packetFrames.drain heard).1
  buffer : ∀ watched, server.connections fd = some watched →
    watched.readBuffer = (packetFrames.drain heard).2

variable {server server' : EpollTcpServer σ} {fd : ℕ} {earlier : List Packet}
  {heard : List UInt8} {event : Event}

/-- An event on another connection, or on none. -/
theorem passedOn_other {fd' : ℕ} (hfd : fd' ≠ fd) (r : Ready) :
    passedOn fd (handleEvent handlers server (.ready fd' r)).2.log =
      passedOn fd server.log := by
  cases hwatched : server.connections fd' with
  | none => simp only [handleEvent, hwatched]
  | some watched =>
    rcases hserve : serve handlers.packetHandler watched r server.state with
      ⟨fate, passed, watched', s'⟩
    rw [handleEvent_ready hwatched hserve]
    cases fate with
    | kept => exact (passedOn_passed fd fd' server.log passed).trans (if_neg hfd)
    | closed => exact (passedOn_passed fd fd' server.log passed).trans (if_neg hfd)
    | killed => exact (passedOn_passed fd fd' server.log passed).trans (if_neg hfd)

/-- An event on this connection. -/
theorem Heard.ready (h : Heard fd earlier server heard) {watched : Watched} {r : Ready}
    (hwatched : server.connections fd = some watched)
    (hclean : packetFrames.Clean (heard ++ r.heard)) :
    Heard fd earlier (handleEvent handlers server (.ready fd r)).2 (heard ++ r.heard) ∧
      (((handleEvent handlers server (.ready fd r)).2.connections fd).isSome →
        r.heard = r.read) := by
  have hbuffer := h.buffer watched hwatched
  obtain ⟨hdrain, -⟩ := hclean.drain_append
  have hwaits : packetFrames.scan watched.readBuffer = .wait := by
    rw [hbuffer]
    exact packetFrames.scan_drain heard
  obtain ⟨hpassed, hkept⟩ := serve_heard handlers.packetHandler r server.state hwaits
  rcases hserve : serve handlers.packetHandler watched r server.state with
    ⟨fate, passed, watched', s'⟩
  rw [hserve, hbuffer] at hpassed hkept
  have hlog : passedOn fd ((passed.map (.passed fd)).reverse ++ server.log) =
      earlier ++ (packetFrames.drain (heard ++ r.heard)).1 := by
    rw [passedOn_passed, if_pos rfl, h.passed, hdrain, ← hpassed, List.append_assoc]
  rw [handleEvent_ready hwatched hserve]
  by_cases hfate : fate = .closed
  · -- what was read and not heard is gone with the connection
    rw [if_pos hfate]
    have hclosed : Function.update server.connections fd none fd = none :=
      Function.update_self ..
    refine ⟨⟨hlog, fun watched₁ hwatched₁ => ?_⟩, fun hopen => ?_⟩
    · cases hclosed.symm.trans hwatched₁
    · simp only [hclosed] at hopen
      cases hopen
  · rw [if_neg hfate]
    refine ⟨⟨hlog, fun watched₁ hwatched₁ => ?_⟩, fun _ => (hkept hfate).2⟩
    have hstored : Function.update server.connections fd (some watched') fd = some watched' :=
      Function.update_self ..
    obtain rfl : watched' = watched₁ := Option.some.inj (hstored.symm.trans hwatched₁)
    rw [(hkept hfate).1, hdrain]

/-- **Step.** An event on an open connection adds what it hears, which is all it reads unless
it closes the connection. -/
theorem Heard.step (handlers : Handlers σ) (h : Heard fd earlier server heard)
    (hopen : (server.connections fd).isSome)
    (hclean : packetFrames.Clean (heard ++ event.heard fd)) :
    Heard fd earlier (handleEvent handlers server event).2 (heard ++ event.heard fd) ∧
      (((handleEvent handlers server event).2.connections fd).isSome →
        event.heard fd = event.read fd) := by
  obtain ⟨watched, hwatched⟩ := Option.isSome_iff_exists.mp hopen
  cases event with
  | listening accepts =>
    rw [Event.heard, List.append_nil]
    refine ⟨⟨(passedOn_accept accepts server).trans h.passed, fun watched' hwatched' => ?_⟩,
      fun _ => rfl⟩
    have hkept := acceptConnections_kept accepts hwatched
    obtain rfl := Option.some.inj (hkept.symm.trans hwatched')
    exact h.buffer watched hwatched
  | ready fd' r =>
    by_cases hfd : fd' = fd
    · subst hfd
      simp only [Event.heard, Event.read, if_true] at hclean ⊢
      exact h.ready hwatched hclean
    · simp only [Event.heard, Event.read, if_neg hfd, List.append_nil]
      refine ⟨⟨(passedOn_other hfd r).trans h.passed, fun watched' hwatched' => ?_⟩,
        fun _ => trivial⟩
      exact h.buffer watched' ((handleEvent_other (Ne.symm hfd)).symm.trans hwatched')

/-! ## Until the connection is closed -/

/-- The last of these events closes the connection of a descriptor, and no earlier one
does. -/
inductive ClosedBy (handlers : Handlers σ) (fd : ℕ) :
    EpollTcpServer σ → List Event → EpollTcpServer σ → Prop
  | last {server server' : EpollTcpServer σ} {event : Event}
      (handled : handleEvent handlers server event = (.goesOn, server'))
      (closed : server'.connections fd = none) : ClosedBy handlers fd server [event] server'
  | later {server server₁ server' : EpollTcpServer σ} {event : Event} {events : List Event}
      (handled : handleEvent handlers server event = (.goesOn, server₁))
      (kept : (server₁.connections fd).isSome)
      (closes : ClosedBy handlers fd server₁ events server') :
      ClosedBy handlers fd server (event :: events) server'

/-- An event hears all that it reads, or nothing. -/
theorem Event.heard_cases (fd : ℕ) (event : Event) :
    event.heard fd = [] ∨ event.heard fd = event.read fd := by
  cases event with
  | listening accepts => exact .inl rfl
  | ready fd' r =>
    rw [Event.heard, Event.read, Ready.heard, Ready.read]
    cases blocks r.recvs with
    | false => simp
    | true => simp

/-- **Run.** When the connection is closed, the frames of all that it has heard have been
passed on. It has heard a front of what was read. -/
theorem Heard.run {events : List Event} (h : ClosedBy handlers fd server events server') :
    ∀ {heard : List UInt8}, Heard fd earlier server heard → (server.connections fd).isSome →
      packetFrames.Clean (heard ++ events.flatMap (Event.read fd)) →
      events.flatMap (Event.heard fd) <+: events.flatMap (Event.read fd) ∧
      passedOn fd server'.log = earlier ++
        (packetFrames.drain (heard ++ events.flatMap (Event.heard fd))).1 := by
  induction h with
  | @last _ _ event handled _ =>
    intro heard hheard hopen hclean
    rw [List.flatMap_singleton] at hclean ⊢
    -- the event that closes the connection may have read more than it heard
    have hfront : event.heard fd <+: event.read fd := by
      rcases event.heard_cases fd with hnone | hall
      · rw [hnone]
        exact List.nil_prefix
      · exact ⟨[], (List.append_nil _).trans hall⟩
    obtain ⟨rest, hrest⟩ := hfront
    rw [← hrest, ← List.append_assoc] at hclean
    have hstep := (hheard.step handlers hopen hclean.of_append).1
    rw [handled] at hstep
    rw [List.flatMap_singleton]
    exact ⟨⟨rest, hrest⟩, hstep.passed⟩
  | @later _ _ _ event _ handled kept _ ih =>
    intro heard hheard hopen hclean
    rw [List.flatMap_cons, ← List.append_assoc] at hclean
    have hfront : packetFrames.Clean (heard ++ event.heard fd) := by
      rcases event.heard_cases fd with hnone | hall
      · rw [hnone, List.append_nil]
        exact hclean.of_append.of_append
      · rw [hall]
        exact hclean.of_append
    -- the connection is still there, so what was read was heard
    obtain ⟨hstep, hall⟩ := hheard.step handlers hopen hfront
    rw [handled] at hstep hall
    rw [← hall kept] at hclean
    obtain ⟨hlater, hpassed⟩ := ih hstep kept hclean
    rw [List.flatMap_cons, List.flatMap_cons, ← List.append_assoc, ← hall kept]
    exact ⟨(List.prefix_append_right_inj _).mpr hlater, hpassed⟩

/-- A stream of well-formed packets, behind which a frame has begun. -/
theorem clean_packets_tail {packets : List Packet} {tail : List UInt8}
    (hwf : ∀ packet ∈ packets, packet.WellFormed) (htail : packetFrames.scan tail = .wait) :
    packetFrames.Clean (packets.flatMap Packet.encode ++ tail) := by
  induction packets with
  | nil => exact .wait htail
  | cons packet later ih =>
    rw [List.flatMap_cons, List.append_assoc]
    exact .frame ((hwf packet List.mem_cons_self).scan _)
      (ih fun p hp => hwf p (List.mem_cons_of_mem _ hp))

/-- A front of such a stream drains to all of the packets exactly if it holds all of them. -/
theorem drain_front_iff {packets : List Packet} {tail front : List UInt8}
    (hwf : ∀ packet ∈ packets, packet.WellFormed) (htail : packetFrames.scan tail = .wait)
    (hfront : front <+: packets.flatMap Packet.encode ++ tail) :
    (packetFrames.drain front).1 = packets ↔ packets.flatMap Packet.encode <+: front := by
  obtain ⟨more, hmore⟩ := hfront
  constructor
  · intro hall
    rcases List.append_eq_append_iff.mp hmore with ⟨rest, hstream, -⟩ | ⟨rest, hlonger, -⟩
    · -- the front ends within the packets, and those behind it were not taken
      obtain ⟨next, hnext, hbytes, hleft⟩ := drain_packets hwf hstream.symm
      rw [hall] at hnext hbytes
      obtain rfl : next = [] := by simpa using hnext
      have hnothing : (packetFrames.drain front).2 = [] := hleft
      rw [hnothing, List.append_nil] at hbytes
      exact ⟨[], (List.append_nil _).trans hbytes.symm⟩
    · exact ⟨rest, hlonger.symm⟩
  · rintro ⟨rest, rfl⟩
    have hclean := clean_packets_tail hwf htail
    rw [← hmore] at hclean
    obtain ⟨hdrain, -⟩ := hclean.of_append.drain_append
    -- a front of a tail that waits for more waits for more
    have hwaits : packetFrames.scan rest = .wait := by
      have htail' : rest ++ more = tail := by
        rw [List.append_assoc] at hmore
        exact List.append_cancel_left hmore
      rw [← htail'] at htail
      cases hscan : packetFrames.scan rest with
      | wait => rfl
      | frame packet left =>
        rw [packetFrames.frame_append hscan] at htail
        cases htail
      | reject =>
        rw [packetFrames.scan_reject hscan] at htail
        cases htail
    rw [hdrain, drain_all_packets hwf, List.nil_append, packetFrames.drain_wait hwaits,
      List.append_nil]

/-- **All requests of a peer are handled before its connection is closed**, each once and in
their order, exactly if the loop has heard all of them. -/
theorem requests_before_close_iff {watched : Watched}
    (hconnected : server.connections fd = some watched) (hnew : watched.readBuffer = [])
    {events : List Event} (hclosed : ClosedBy handlers fd server events server')
    {packets : List Packet} {tail : List UInt8} (hwf : ∀ packet ∈ packets, packet.WellFormed)
    (htail : packetFrames.scan tail = .wait)
    (hsent : events.flatMap (Event.read fd) <+: packets.flatMap Packet.encode ++ tail) :
    passedOn fd server'.log = passedOn fd server.log ++ packets ↔
      packets.flatMap Packet.encode <+: events.flatMap (Event.heard fd) := by
  have hstart : Heard fd (passedOn fd server.log) server [] := by
    refine ⟨by simp, fun watched' hwatched' => ?_⟩
    obtain rfl := Option.some.inj (hconnected.symm.trans hwatched')
    rw [hnew, packetFrames.drain_nil]
  have hclean : packetFrames.Clean ([] ++ events.flatMap (Event.read fd)) := by
    obtain ⟨more, hmore⟩ := hsent
    have hall := clean_packets_tail hwf htail
    rw [← hmore] at hall
    exact hall.of_append
  have hopen : (server.connections fd).isSome := by
    rw [hconnected]
    rfl
  obtain ⟨hheard, hpassed⟩ := Heard.run hclosed hstart hopen hclean
  rw [hpassed, List.append_cancel_left_eq, List.nil_append]
  exact drain_front_iff hwf htail (hheard.trans hsent)

/-- A server with a new connection at descriptor 5. -/
def demoServer : EpollTcpServer Unit where
  connections fd := if fd = 5 then some (.accepted 1 "peer") else none
  state := ()

def demoHandlers : Handlers Unit := ⟨fun _ s => (none, s), fun _ s => s⟩

def demoPing : Packet := { header := { msgId := 7 } }

/-- An event without `EPOLLOUT` lets the loop go on. -/
theorem handleEvent_eq (handlers : Handlers σ) (server : EpollTcpServer σ) (fd : ℕ) {r : Ready}
    (hr : r.writable = false) :
    handleEvent handlers server (.ready fd r) =
      (.goesOn, (handleEvent handlers server (.ready fd r)).2) := by
  refine Prod.ext ((handleEvent_fst ..).mpr fun watched _ hbreaks => ?_) rfl
  exact absurd (hr.symm.trans hbreaks.2.2.1) Bool.false_ne_true

/-- A ping, and later the end of the stream. -/
theorem requests_before_close_iff_demo :
    ∃ server', ClosedBy demoHandlers 5 demoServer
        [.ready 5 { readable := true, recvs := singly demoPing.encode },
          .ready 5 { hangup := true }] server' ∧
      passedOn 5 server'.log = [demoPing] := by
  have hclosed : ClosedBy demoHandlers 5 demoServer
      [.ready 5 { readable := true, recvs := singly demoPing.encode },
        .ready 5 { hangup := true }] _ :=
    .later (handleEvent_eq _ _ _ rfl) rfl (.last (handleEvent_eq _ _ _ rfl) rfl)
  refine ⟨_, hclosed, ?_⟩
  have hwf : ∀ packet ∈ [demoPing], packet.WellFormed := by
    intro packet hpacket
    obtain rfl := List.mem_singleton.mp hpacket
    decide
  refine (requests_before_close_iff rfl rfl hclosed hwf packetFrames.scan_nil ?_).mpr ?_
  · exact ⟨[], rfl⟩
  · exact ⟨[], rfl⟩

/-- A ping that arrives together with the end of the stream is not handled. -/
theorem last_request_lost :
    ¬∀ (σ : Type) (handlers : Handlers σ) (server server' : EpollTcpServer σ) (fd : ℕ)
      (watched : Watched) (events : List Event) (packets : List Packet),
      server.connections fd = some watched → watched.readBuffer = [] →
      ClosedBy handlers fd server events server' →
      (∀ packet ∈ packets, packet.WellFormed) →
      events.flatMap (Event.read fd) <+: packets.flatMap Packet.encode →
      passedOn fd server'.log = passedOn fd server.log ++ packets := by
  intro h
  have hclosed : ClosedBy demoHandlers 5 demoServer
      [.ready 5 { readable := true, recvs := singly demoPing.encode ++ [.closed] }] _ :=
    .last (handleEvent_eq _ _ _ rfl) rfl
  have hwf : ∀ packet ∈ [demoPing], packet.WellFormed := by
    intro packet hpacket
    obtain rfl := List.mem_singleton.mp hpacket
    decide
  have hall := h _ _ _ _ 5 _ _ [demoPing] rfl rfl hclosed hwf ⟨[], rfl⟩
  exact absurd (congrArg List.length hall) (by decide +kernel)

end EpollTcpServer

end GameBackend
