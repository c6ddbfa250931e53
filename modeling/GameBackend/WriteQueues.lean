import GameBackend.EventLoop

/-!
# Delivering responses

What is queued for a connection is sent in order and completely. A connection is written to
by `QueueResponse` and `HandleWrite` only (`serve_calls`), and every sequence of calls of
these keeps what `Delivering` says: what was sent and what is still queued make up the
encodings of the responses, and the descriptor is watched for `EPOLLOUT` while something is
queued (`responses_delivered`).
-/

namespace GameBackend

/-- The calls that write to a connection. -/
inductive WriteCall where
  | queueResponse (packet : Packet)
  | handleWrite (sends : List Send)

/-- The responses that are queued by some calls. -/
def WriteCall.queued : List WriteCall → List Packet
  | [] => []
  | .queueResponse packet :: later => packet :: queued later
  | .handleWrite _ :: later => queued later

namespace Watched

/-- A sequence of calls, with `epoll_ctl` going through, as long as the connection stays
open. -/
def calls (watched : Watched) : List WriteCall → Option Watched
  | [] => some watched
  | .queueResponse packet :: later => (watched.queueResponse packet true).calls later
  | .handleWrite sends :: later =>
    match watched.handleWrite sends true with
    | (.kept, watched) => watched.calls later
    | (.closed, _) => none
    | (.killed, _) => none

/-- These responses are being delivered: each byte of them was sent or is queued, in their
order, and while some are queued the descriptor is watched. -/
structure Delivering (watched : Watched) (responses : List Packet) : Prop where
  bytes : watched.sent ++ watched.writeQueue.flatten = responses.flatMap Packet.encode
  wakes : watched.writeQueue ≠ [] → watched.epollOut = true

end Watched

/-- The loop of `HandleWrite` sends the queue from its front. -/
theorem EpollTcpServer.writeLoop_flatten :
    ∀ (queue : List (List UInt8)) (sends : List Send),
      (writeLoop queue sends).2.2 ++ (writeLoop queue sends).2.1.flatten = queue.flatten
  | [], _ => by simp [writeLoop]
  | _ :: _, [] => rfl
  | _ :: _, .wouldBlock :: _ => rfl
  | current :: queue, .interrupted :: sends => by
    rw [writeLoop]
    exact writeLoop_flatten (current :: queue) sends
  | _ :: _, .brokenPipe :: _ => rfl
  | _ :: _, .failed :: _ => rfl
  | current :: queue, .sent count :: sends => by
    rw [writeLoop]
    -- the front of the queue goes out whole, or is cut
    split
    · have hrest := writeLoop_flatten queue sends
      simp only [List.append_assoc, hrest, List.flatten_cons]
    · simp only [List.flatten_cons, ← List.append_assoc, List.take_append_drop]

/-- It ends well when nothing is left, and finds nothing to send in an empty queue. -/
theorem EpollTcpServer.writeLoop_emptied :
    ∀ {queue : List (List UInt8)} {sends : List Send},
      (writeLoop queue sends).1 = .emptied → (writeLoop queue sends).2.1 = []
  | [], _, _ => by simp [writeLoop]
  | current :: queue, .interrupted :: sends, h => by
    rw [writeLoop] at h ⊢
    exact writeLoop_emptied h
  | current :: queue, .sent count :: sends, h => by
    rw [writeLoop] at h ⊢
    split at h
    · rename_i hcount
      rw [if_pos hcount]
      exact writeLoop_emptied h
    · cases h

namespace Watched

variable {watched watched' : Watched} {responses : List Packet}

theorem Delivering.queueResponse (h : watched.Delivering responses) (packet : Packet) :
    (watched.queueResponse packet true).Delivering (responses ++ [packet]) where
  bytes := by
    simp only [Watched.queueResponse, EpollTcpServer.queueResponse, List.flatten_append,
      List.flatten_singleton, ← List.append_assoc, h.bytes, List.flatMap_append,
      List.flatMap_singleton]
    rfl
  wakes _ := Bool.or_true _

/-- What is sent leaves the queue; what is left was queued before, and is watched for as
before. -/
theorem handleWrite_eq (watched : Watched) (sends : List Send) (modified : Bool) :
    (watched.handleWrite sends modified).2.sent ++
        (watched.handleWrite sends modified).2.writeQueue.flatten =
      watched.sent ++ watched.writeQueue.flatten ∧
    ((watched.handleWrite sends modified).2.writeQueue ≠ [] → watched.writeQueue ≠ [] ∧
      (watched.handleWrite sends modified).2.epollOut = watched.epollOut) := by
  have hflatten := EpollTcpServer.writeLoop_flatten watched.writeQueue sends
  have hemptied := @EpollTcpServer.writeLoop_emptied watched.writeQueue sends
  have hnothing : watched.writeQueue = [] →
      EpollTcpServer.writeLoop watched.writeQueue sends = (.emptied, [], []) := by
    intro hqueue
    rw [hqueue, EpollTcpServer.writeLoop]
  rw [Watched.handleWrite]
  rcases hresult : EpollTcpServer.writeLoop watched.writeQueue sends with
    ⟨drain, queue, sent⟩
  rw [hresult] at hflatten hemptied hnothing
  have hqueued : queue ≠ [] → watched.writeQueue ≠ [] := by
    intro hqueue hempty
    obtain ⟨-, hrest⟩ := Prod.mk.inj (hnothing hempty)
    exact hqueue (Prod.mk.inj hrest).1
  have hbytes : watched.sent ++ sent ++ queue.flatten =
      watched.sent ++ watched.writeQueue.flatten := by
    rw [List.append_assoc, hflatten]
  -- `EPOLLOUT` is only switched off when nothing is left
  cases drain with
  | emptied => exact ⟨hbytes, fun hqueue => absurd (hemptied rfl) hqueue⟩
  | waits => exact ⟨hbytes, fun hqueue => ⟨hqueued hqueue, rfl⟩⟩
  | breaks => exact ⟨hbytes, fun hqueue => ⟨hqueued hqueue, rfl⟩⟩
  | fails => exact ⟨hbytes, fun hqueue => ⟨hqueued hqueue, rfl⟩⟩

theorem Delivering.handleWrite (h : watched.Delivering responses) (sends : List Send) :
    (watched.handleWrite sends true).2.Delivering responses := by
  obtain ⟨hbytes, hleft⟩ := watched.handleWrite_eq sends true
  refine ⟨hbytes.trans h.bytes, fun hqueue => ?_⟩
  obtain ⟨hqueued, hwatched⟩ := hleft hqueue
  exact hwatched.trans (h.wakes hqueued)

/-- What is being delivered after some more calls. -/
theorem Delivering.calls :
    ∀ {writes : List WriteCall} {responses : List Packet} {watched : Watched},
      watched.Delivering responses → watched.calls writes = some watched' →
      watched'.Delivering (responses ++ WriteCall.queued writes)
  | [], responses, _, h, hopen => by
    obtain rfl := Option.some.inj hopen
    rw [WriteCall.queued, List.append_nil]
    exact h
  | .queueResponse packet :: later, responses, _, h, hopen => by
    rw [WriteCall.queued, List.append_cons]
    exact (h.queueResponse packet).calls hopen
  | .handleWrite sends :: later, responses, watched, h, hopen => by
    have hwritten := h.handleWrite sends
    rw [WriteCall.queued]
    rw [Watched.calls] at hopen
    split at hopen
    · rename_i written hresult
      rw [hresult] at hwritten
      exact hwritten.calls hopen
    · cases hopen
    · cases hopen

/-- **Responses are delivered** in order and completely, whatever `send` does. -/
theorem responses_delivered (id : UInt64) (peerAddress : String) (writes : List WriteCall)
    (watched : Watched) (hopen : (accepted id peerAddress).calls writes = some watched) :
    watched.Delivering (WriteCall.queued writes) := by
  have hnew : (accepted id peerAddress).Delivering [] := ⟨rfl, fun h => absurd rfl h⟩
  exact hnew.calls hopen

/-- Two responses, of which the first is sent in two parts. -/
theorem responses_delivered_demo :
    let ping : Packet := { header := { msgId := 7 } }
    let writes : List WriteCall := [.queueResponse ping, .handleWrite [.interrupted, .sent 10],
      .queueResponse ping, .handleWrite [.sent 14, .wouldBlock]]
    ∃ watched, (accepted 1 "peer").calls writes = some watched ∧
      watched.sent ++ watched.writeQueue.flatten = ping.encode ++ ping.encode ∧
      watched.writeQueue = [ping.encode] ∧ watched.epollOut = true := by
  intro ping writes
  have hopen : ((accepted 1 "peer").calls writes).map (fun watched => watched.writeQueue) =
      some [ping.encode] := by
    decide +kernel
  obtain ⟨watched, hcalls, hqueue⟩ := Option.map_eq_some_iff.mp hopen
  have hdelivering := responses_delivered 1 "peer" writes watched hcalls
  exact ⟨watched, hcalls, hdelivering.bytes, hqueue, hdelivering.wakes (by rw [hqueue]; nofun)⟩

/-! ## The event loop -/

/-- The two connections are written to alike. -/
structure SameOutput (watched watched' : Watched) : Prop where
  writeQueue : watched'.writeQueue = watched.writeQueue
  epollOut : watched'.epollOut = watched.epollOut
  sent : watched'.sent = watched.sent

theorem SameOutput.handleWrite (h : watched.SameOutput watched') (sends : List Send)
    (modified : Bool) :
    (watched'.handleWrite sends modified).1 = (watched.handleWrite sends modified).1 ∧
      (watched.handleWrite sends modified).2.SameOutput
        (watched'.handleWrite sends modified).2 := by
  rw [Watched.handleWrite, Watched.handleWrite, h.writeQueue, h.sent, h.epollOut]
  rcases EpollTcpServer.writeLoop watched.writeQueue sends with ⟨_ | _ | _ | _, queue, sent⟩
  · exact ⟨rfl, rfl, rfl, rfl⟩
  · exact ⟨rfl, rfl, rfl, rfl⟩
  · exact ⟨rfl, rfl, rfl, rfl⟩
  · exact ⟨rfl, rfl, rfl, rfl⟩

/-- Queueing some responses. -/
theorem calls_queueResponses :
    ∀ (responses : List Packet) (watched : Watched) (later : List WriteCall),
      watched.calls (responses.map .queueResponse ++ later) = Watched.calls { watched with
        writeQueue := watched.writeQueue ++ responses.map Packet.encode
        epollOut := watched.epollOut || !responses.isEmpty } later
  | [], watched, later => by
    simp only [List.map_nil, List.nil_append, List.append_nil, List.isEmpty_nil, Bool.not_true,
      Bool.or_false]
  | response :: responses, watched, later => by
    rw [List.map_cons, List.cons_append, Watched.calls, calls_queueResponses responses]
    simp only [Watched.queueResponse, EpollTcpServer.queueResponse, Bool.or_true, Bool.true_or,
      List.isEmpty_cons, Bool.not_false, List.append_assoc, List.map_cons]
    rfl

theorem calls_handleWrite {sends : List Send}
    (hopen : (watched.handleWrite sends true).1 = .kept) :
    watched.calls [.handleWrite sends] = some (watched.handleWrite sends true).2 := by
  rw [Watched.calls]
  split
  · rename_i hresult
    rw [hresult]
    rfl
  · rename_i hresult
    rw [hresult] at hopen
    cases hopen
  · rename_i hresult
    rw [hresult] at hopen
    cases hopen

/-- An event after which the connection is open has written to it by a sequence of calls. -/
theorem serve_calls {σ : Type} {packetHandler : PacketHandler σ} {ready : EpollTcpServer.Ready}
    {passed : List Packet} {s s' : σ} (hqueue : ready.queueModified = true)
    (hdrain : ready.drainModified = true)
    (h : EpollTcpServer.serve packetHandler watched ready s = (.kept, passed, watched', s')) :
    ∃ writes written, watched.calls writes = some written ∧ written.SameOutput watched' := by
  -- reading queues some responses, in whatever way the rest of the connection changes
  have hread : ∃ responses : List Packet, SameOutput { watched with
      writeQueue := watched.writeQueue ++ responses.map Packet.encode
      epollOut := watched.epollOut || !responses.isEmpty }
      (EpollTcpServer.serveRead packetHandler watched ready s).2.2.1 := by
    rw [EpollTcpServer.serveRead]
    split
    · obtain ⟨responses, hresponses, hout, hsent⟩ :=
        watched.handleRead_queue packetHandler ready.recvs ready.queueModified s
      refine ⟨responses, hresponses, ?_, hsent⟩
      rw [hout, hqueue, Bool.and_true]
    · exact ⟨[], (List.append_nil _).symm, (Bool.or_false _).symm, rfl⟩
  obtain ⟨responses, hsame⟩ := hread
  rw [EpollTcpServer.serve] at h
  split at h
  · cases h
  rcases hresult : EpollTcpServer.serveRead packetHandler watched ready s with
    ⟨keep₁, passed₁, watched₁, s₁⟩
  rw [hresult] at h hsame
  dsimp only at h hsame
  split at h
  · -- and `HandleWrite` comes after them
    obtain ⟨hkeep, hwritten⟩ := hsame.handleWrite ready.sends ready.drainModified
    obtain ⟨hopen, hrest⟩ := Prod.mk.inj h
    obtain rfl := (Prod.mk.inj (Prod.mk.inj hrest).2).1
    rw [hopen, hdrain] at hkeep
    rw [hdrain] at hwritten ⊢
    exact ⟨responses.map .queueResponse ++ [.handleWrite ready.sends], _,
      (calls_queueResponses ..).trans (calls_handleWrite hkeep.symm), hwritten⟩
  · obtain rfl := (Prod.mk.inj (Prod.mk.inj (Prod.mk.inj h).2).2).1
    refine ⟨responses.map .queueResponse ++ [], _, ?_, hsame⟩
    rw [calls_queueResponses]
    rfl

end Watched

end GameBackend
