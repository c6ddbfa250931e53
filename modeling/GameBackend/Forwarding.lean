import GameBackend.Gateway
import GameBackend.TcpClient

/-!
# Forwarding byte for byte

A packet that was taken off a buffer is encoded again as the very bytes it came from,
whatever its header says (`encode_framePacket`). So the gateway, which decodes what it
forwards, passes on bytes: `GatewayServer.exec` runs `HandlePacket` over connections on
which polls, writes and reads end in any way, and keeps what went over them
(`byte_exact_forwarding`).
-/

namespace GameBackend

/-! ## Encoding what was decoded -/

theorem htonl_ntohl (value : UInt32) : htonl (ntohl value) = value := ntohl_htonl value

theorem hostToNetwork64_networkToHost64 (value : UInt64) :
    hostToNetwork64 (networkToHost64 value) = value := networkToHost64_hostToNetwork64 value

namespace PacketHeader

theorem toNetwork_toHost (header : PacketHeader) : header.toHost.toNetwork = header := by
  cases header
  simp [toNetwork, toHost, htonl_ntohl, hostToNetwork64_networkToHost64]

/-- Copying a struct out of memory and back changes no byte. -/
theorem memory_ofMemory {bytes : List UInt8} (h : kPacketHeaderSize ≤ bytes.length) :
    (ofMemory bytes).memory = bytes.take kPacketHeaderSize := by
  rw [kPacketHeaderSize] at h ⊢
  have hstore {field : List UInt8} {width : ℕ} (hwidth : field.length = width) :
      storeBytes width (loadBytes field) = field := hwidth ▸ storeBytes_loadBytes field
  have h32 {field : List UInt8} (hwidth : field.length = 4) :
      storeBytes 4 (UInt32.ofNat (loadBytes field)).toNat = field := by
    have hlt : loadBytes field < 2 ^ 32 := (loadBytes_lt field).trans_eq (by rw [hwidth]; rfl)
    rw [UInt32.toNat_ofNat', Nat.mod_eq_of_lt hlt, hstore hwidth]
  have h64 {field : List UInt8} (hwidth : field.length = 8) :
      storeBytes 8 (UInt64.ofNat (loadBytes field)).toNat = field := by
    have hlt : loadBytes field < 2 ^ 64 := (loadBytes_lt field).trans_eq (by rw [hwidth]; rfl)
    rw [UInt64.toNat_ofNat', Nat.mod_eq_of_lt hlt, hstore hwidth]
  have hlength (skip width : ℕ) (hle : skip + width ≤ 24) :
      ((bytes.drop skip).take width).length = width := by
    rw [List.length_take_of_le]
    rw [List.length_drop]
    omega
  have hfirst : (bytes.take 4).length = 4 := List.length_take_of_le (by omega)
  -- the five fields stand one behind the other
  have hsplit : bytes.take 24 = bytes.take 4 ++ ((bytes.drop 4).take 4 ++
      ((bytes.drop 8).take 4 ++ ((bytes.drop 12).take 4 ++ (bytes.drop 16).take 8))) := by
    have htake (skip width more : ℕ) : (bytes.drop skip).take (width + more) =
        (bytes.drop skip).take width ++ (bytes.drop (skip + width)).take more := by
      rw [List.take_add, List.drop_drop]
    have hall := htake 0 4 20
    rw [htake (0 + 4) 4 16, htake (0 + 4 + 4) 4 12, htake (0 + 4 + 4 + 4) 4 8] at hall
    simpa only [List.drop_zero] using hall
  simp only [memory, ofMemory]
  rw [h32 hfirst, h32 (hlength 4 4 (by omega)), h32 (hlength 8 4 (by omega)),
    h32 (hlength 12 4 (by omega)), h64 (hlength 16 8 (by omega)), hsplit]

end PacketHeader

/-- The encoding of the packet of a frame is the frame. -/
theorem encode_framePacket {buffer : List UInt8} (h : CompleteFrame buffer) :
    (framePacket buffer).encode = buffer.take (frameSize buffer) := by
  rw [Packet.encode, encodePacket, framePacket, PacketHeader.toNetwork_toHost,
    PacketHeader.memory_ofMemory h.1, frameSize, List.take_add]

theorem extracted {buffer rest : List UInt8} {packet : Packet}
    (h : tryExtractPacket buffer = (some packet, rest)) :
    CompleteFrame buffer ∧ packet = framePacket buffer ∧ rest = buffer.drop (frameSize buffer) := by
  by_cases hb : BadHeader buffer
  · rw [tryExtractPacket_bad hb] at h
    cases h
  · by_cases hw : WholeFrame buffer
    · rw [tryExtractPacket_whole hw] at h
      cases h
      exact ⟨hw.1, rfl, rfl⟩
    · rw [tryExtractPacket_wait hb hw] at h
      cases h

theorem encode_extracted {buffer rest : List UInt8} {packet : Packet}
    (h : tryExtractPacket buffer = (some packet, rest)) :
    buffer = packet.encode ++ rest ∧ packet.encode = buffer.take (kPacketHeaderSize +
      packet.header.bodyLen.toNat) := by
  obtain ⟨hcomplete, rfl, rfl⟩ := extracted h
  refine ⟨?_, encode_framePacket hcomplete⟩
  rw [encode_framePacket hcomplete, List.take_append_drop]

/-- Unless the magic number is wrong, a buffer without a whole frame is left as it is. -/
theorem not_extracted {buffer rest : List UInt8} (h : tryExtractPacket buffer = (none, rest))
    (hb : ¬BadHeader buffer) : rest = buffer := by
  by_cases hw : WholeFrame buffer
  · rw [tryExtractPacket_whole hw] at h
    cases h
  · rw [tryExtractPacket_wait hb hw] at h
    cases h
    rfl

/-- With a wrong one it is dropped. -/
theorem not_extracted_cases {buffer rest : List UInt8}
    (h : tryExtractPacket buffer = (none, rest)) :
    rest = buffer ∨ BadHeader buffer ∧ rest = [] := by
  by_cases hb : BadHeader buffer
  · rw [tryExtractPacket_bad hb] at h
    cases h
    exact .inr ⟨hb, rfl⟩
  · exact .inl (not_extracted h hb)

/-! ## One call of an upstream client -/

/-- The loop of `WritePacket`: its error message, if it fails, and `written_total`. There is
no result while the loop goes on. -/
def writePacket (encoded : List UInt8) (writtenTotal : ℕ) :
    List (PollOutcome × SendOutcome) → Option (Except String Unit × ℕ)
  | [] => if writtenTotal < encoded.length then none else some (.ok (), writtenTotal)
  | (poll, outcome) :: later =>
    if writtenTotal < encoded.length then
      match waitForEvent poll with
      | some message => some (.error message, writtenTotal)
      | none =>
        match outcome with
        | .interrupted => writePacket encoded writtenTotal later
        | .failed text => some (.error text, writtenTotal)
        | .sent count =>
          if count ≤ encoded.length - writtenTotal then
            writePacket encoded (writtenTotal + count) later
          else none
    else some (.ok (), writtenTotal)

/-- The loop of `ReadPacket`. -/
def readPacket (buffer : List UInt8) :
    List (PollOutcome × RecvOutcome) → Option (Except String Packet)
  | [] =>
    match tryExtractPacket buffer with
    | (some packet, _) => some (.ok packet)
    | (none, _) => none
  | (poll, outcome) :: later =>
    match tryExtractPacket buffer with
    | (some packet, _) => some (.ok packet)
    | (none, buffer) =>
      match waitForEvent poll with
      | some message => some (.error message)
      | none =>
        match outcome with
        | .interrupted => readPacket buffer later
        | .failed text => some (.error text)
        | .closed => some (.error "peer closed connection")
        | .bytes chunk => readPacket (buffer ++ chunk) later

/-- The bytes that come in. -/
def arrived : List (PollOutcome × RecvOutcome) → List UInt8
  | [] => []
  | (_, .bytes chunk) :: later => chunk ++ arrived later
  | _ :: later => arrived later

theorem writePacket_ok {encoded : List UInt8} {writtenTotal n : ℕ}
    {sends : List (PollOutcome × SendOutcome)} (hle : writtenTotal ≤ encoded.length)
    (h : writePacket encoded writtenTotal sends = some (.ok (), n)) : n = encoded.length := by
  induction sends generalizing writtenTotal with
  | nil =>
    rw [writePacket] at h
    split_ifs at h with hlt
    obtain ⟨-, rfl⟩ := Prod.mk.inj (Option.some.inj h)
    omega
  | cons send later ih =>
    obtain ⟨poll, outcome⟩ := send
    unfold writePacket at h
    split_ifs at h with hlt
    · cases hpoll : waitForEvent poll with
      | some message =>
        rw [hpoll] at h
        cases h
      | none =>
        rw [hpoll] at h
        cases outcome with
        | interrupted => exact ih hle h
        | failed text => cases h
        | sent count =>
          simp only at h
          split_ifs at h with hcount
          exact ih (by omega) h
    · obtain ⟨-, rfl⟩ := Prod.mk.inj (Option.some.inj h)
      omega

/-- What is read as a packet is, byte for byte, what came in at some place: at the start,
unless it has a wrong magic number there. -/
theorem readPacket_ok {buffer : List UInt8} {recvs : List (PollOutcome × RecvOutcome)}
    {packet : Packet} (h : readPacket buffer recvs = some (.ok packet)) :
    ∃ dropped rest, buffer ++ arrived recvs = dropped ++ (packet.encode ++ rest) ∧
      (¬BadHeader (buffer ++ arrived recvs) → dropped = []) := by
  induction recvs generalizing buffer with
  | nil =>
    rw [readPacket] at h
    rcases hextract : tryExtractPacket buffer with ⟨_ | packet', rest⟩
    · rw [hextract] at h
      cases h
    · rw [hextract] at h
      cases h
      exact ⟨[], rest, by rw [arrived, List.append_nil]; exact (encode_extracted hextract).1,
        fun _ => rfl⟩
  | cons recv later ih =>
    obtain ⟨poll, outcome⟩ := recv
    unfold readPacket at h
    rcases hextract : tryExtractPacket buffer with ⟨_ | packet', kept⟩
    · obtain ⟨chunk, harrived, hlater⟩ : ∃ chunk,
          arrived ((poll, outcome) :: later) = chunk ++ arrived later ∧
            readPacket (kept ++ chunk) later = some (.ok packet) := by
        rw [hextract] at h
        cases hpoll : waitForEvent poll with
        | some message =>
          rw [hpoll] at h
          cases h
        | none =>
          rw [hpoll] at h
          cases outcome with
          | interrupted => exact ⟨[], rfl, by rw [List.append_nil]; exact h⟩
          | failed text => cases h
          | closed => cases h
          | bytes chunk => exact ⟨chunk, rfl, h⟩
      obtain ⟨dropped, rest, hsplit, hnone⟩ := ih hlater
      rw [harrived]
      obtain rfl | ⟨hb, rfl⟩ := not_extracted_cases hextract
      · rw [List.append_assoc] at hsplit hnone
        exact ⟨dropped, rest, hsplit, hnone⟩
      · refine ⟨buffer ++ dropped, rest, ?_, fun hgood => absurd (hb.append _) hgood⟩
        rw [List.append_assoc, ← hsplit, List.nil_append]
    · rw [hextract] at h
      cases h
      refine ⟨[], kept ++ arrived ((poll, outcome) :: later), ?_, fun _ => rfl⟩
      conv_lhs => rw [(encode_extracted hextract).1]
      rw [List.nil_append, List.append_assoc]

/-! ## The gateway -/

/-- What happens outside the gateway at one of its commands. -/
structure Outside where
  /-- the binding that can be restored -/
  binding : Option (String × ℤ) := none
  /-- the error message of `EnsureConnected`, if it fails -/
  unconnected : Option String := none
  sends : List (PollOutcome × SendOutcome) := []
  recvs : List (PollOutcome × RecvOutcome) := []

/-- What went over the connection in one call of `SendAndReceive`, and the packet that the
call gave back. -/
structure UpstreamExchange where
  sent : List UInt8
  received : List UInt8
  answer : Option Packet

/-- `PersistentTcpClient::SendAndReceive` -/
def sendAndReceive (request : Packet) (x : Outside) :
    Option (Except String Packet × UpstreamExchange) :=
  let encoded := encodePacket request.header request.body
  match x.unconnected with
  | some message => some (.error message, ⟨[], [], none⟩)
  | none =>
    match writePacket encoded 0 x.sends with
    | none => none
    | some (.error message, n) => some (.error message, ⟨encoded.take n, [], none⟩)
    | some (.ok (), n) =>
      match readPacket [] x.recvs with
      | none => none
      | some (.error message) =>
        some (.error message, ⟨encoded.take n, arrived x.recvs, none⟩)
      | some (.ok response) =>
        some (.ok response, ⟨encoded.take n, arrived x.recvs, some response⟩)

/-- What was sent is a front of the frame, the whole frame if there was an answer, and the
answer is a frame as it came in: the first, if the stream starts with the magic number. -/
structure UpstreamExchange.Carries (e : UpstreamExchange) (frame : List UInt8) : Prop where
  front : e.sent <+: frame
  whole : e.answer ≠ none → e.sent = frame
  answer : ∀ response, e.answer = some response →
    ∃ dropped rest, e.received = dropped ++ (response.encode ++ rest) ∧
      (¬BadHeader e.received → dropped = [])

theorem sendAndReceive_carries {request : Packet} {x : Outside} {reply : Except String Packet}
    {e : UpstreamExchange} (h : sendAndReceive request x = some (reply, e)) :
    e.Carries request.encode ∧ e.answer = reply.toOption := by
  simp only [sendAndReceive] at h
  cases hconnected : x.unconnected with
  | some message =>
    rw [hconnected] at h
    cases h
    exact ⟨⟨List.nil_prefix, nofun, nofun⟩, rfl⟩
  | none =>
    rw [hconnected] at h
    obtain hwrite | ⟨⟨_ | _, n⟩, hwrite⟩ :=
      (writePacket (encodePacket request.header request.body) 0 x.sends).eq_none_or_eq_some
    · rw [hwrite] at h
      cases h
    · rw [hwrite] at h
      cases h
      exact ⟨⟨List.take_prefix _ _, nofun, nofun⟩, rfl⟩
    · rw [hwrite] at h
      have hall := writePacket_ok (Nat.zero_le _) hwrite
      subst hall
      obtain hread | ⟨_ | response, hread⟩ := (readPacket [] x.recvs).eq_none_or_eq_some
      · rw [hread] at h
        cases h
      · rw [hread] at h
        cases h
        exact ⟨⟨List.take_prefix _ _, nofun, nofun⟩, rfl⟩
      · rw [hread] at h
        cases h
        refine ⟨⟨List.take_prefix _ _, fun _ => List.take_length, fun response' hresponse => ?_⟩,
          rfl⟩
        obtain rfl := Option.some.inj hresponse
        exact readPacket_ok hread

namespace GatewayServer

/-- The commands of the gateway, with what has gone over connections so far. -/
def exec (exchanges : List UpstreamExchange) (x : Outside) :
    (c : GatewayCmd) → Option (c.Reply × List UpstreamExchange)
  | .restoreBindingFromSession _ _ => some (x.binding, exchanges)
  | .sendAndReceive _ packet =>
    (sendAndReceive packet x).map fun (reply, e) => (reply, exchanges ++ [e])

/-- The gateway has built the packet itself. -/
def Built (codec : Codec) (packet : Packet) : Prop :=
  (∃ context errorCode message, packet = codec.buildErrorPacket context errorCode message) ∨
    ∃ context, packet = codec.buildPingResponsePacket context "pong"

/-- What is to be said of a response after some exchanges. -/
structure Forwarded (codec : Codec) (frame : List UInt8) (response : Packet)
    (exchanges : List UpstreamExchange) : Prop where
  carries : ∀ e ∈ exchanges, e.Carries frame
  origin : (∃ e ∈ exchanges, e.answer = some response) ∨ Built codec response

variable {codec : Codec} {incoming : IncomingPacket} {bindings : Bindings}
  {x : ℕ → Outside} {n : ℕ}

/-- `relay` passes an answer on as it is, or builds an error packet. -/
theorem relay_cases (id : MessageId) (context : RequestContext) (upstreamResponse : Packet) :
    (relay codec bindings incoming id context upstreamResponse).1 = upstreamResponse ∨
      Built codec (relay codec bindings incoming id context upstreamResponse).1 := by
  have herror (errorCode : ErrorCode) (message : String) :
      Built codec (codec.buildErrorPacket context errorCode message) := .inl ⟨_, _, _, rfl⟩
  unfold relay
  split_ifs with hmismatch
  · exact .inr (herror _ _)
  · split
    · exact .inr (herror _ _)
    · split_ifs with hexpected hlogin
      · exact .inr (herror _ _)
      · split
        · exact .inr (herror _ _)
        · split_ifs with hsuccess
          · exact .inl rfl
          · exact .inl rfl
      · exact .inl rfl

theorem yields_forward (id : MessageId) (context : RequestContext) :
    (forward codec bindings incoming id context).Yields exec x True
      (fun r _ exchanges => Forwarded codec incoming.packet.encode r.1 exchanges) n [] := by
  refine ⟨fun _ => trivial, fun reply exchanges hexec => ?_⟩
  obtain ⟨⟨reply', e⟩, hcall, heq⟩ := Option.map_eq_some_iff.mp hexec
  obtain ⟨rfl, rfl⟩ := Prod.mk.inj heq
  obtain ⟨hcarries, hanswer⟩ := sendAndReceive_carries hcall
  have hall : ∀ e' ∈ [] ++ [e], e'.Carries incoming.packet.encode := by
    intro e' he'
    obtain rfl := List.mem_singleton.mp he'
    exact hcarries
  cases reply' with
  | error message => exact ⟨hall, .inr (.inl ⟨_, _, _, rfl⟩)⟩
  | ok upstreamResponse =>
    refine ⟨hall, (relay_cases id context upstreamResponse).imp (fun hsame => ?_) fun h => h⟩
    exact ⟨e, List.mem_singleton_self e, hanswer.trans (congrArg some hsame.symm)⟩

theorem answerPing_built : Built codec (answerPing codec "gateway" incoming) := by
  unfold answerPing
  split
  · exact .inl ⟨_, _, _, rfl⟩
  · exact .inr ⟨_, rfl⟩

/-- To restore a binding nothing is exchanged with an upstream service. -/
theorem yields_validateOrRestore (bindings : Bindings) (connectionId : UInt64)
    (context : RequestContext) :
    (SessionBindingAuthorizer.validateOrRestore bindings connectionId context).Yields exec x True
      (fun _ _ exchanges => exchanges = []) n [] := by
  unfold SessionBindingAuthorizer.validateOrRestore
  split
  · split_ifs with hbound
    · exact rfl
    · exact rfl
  · refine ⟨fun _ => trivial, fun binding exchanges hexec => ?_⟩
    obtain ⟨rfl, rfl⟩ := Prod.mk.inj (Option.some.inj hexec)
    cases x n |>.binding with
    | none => exact rfl
    | some binding => exact rfl

theorem yields_handlePacket (codec : Codec) (bindings : Bindings) (incoming : IncomingPacket) :
    (handlePacket codec bindings incoming).Yields exec x True
      (fun r _ exchanges => Forwarded codec incoming.packet.encode r.1 exchanges) n [] := by
  have hbuilt {response : Packet} (h : Built codec response) :
      Forwarded codec incoming.packet.encode response [] :=
    ⟨fun _ he => absurd he List.not_mem_nil, .inr h⟩
  obtain ⟨message, -, heq⟩ | ⟨-, heq⟩ | ⟨id, parsed, -, -, -, heq⟩ :=
    handlePacket_cases codec bindings incoming
  · rw [heq]
    exact hbuilt (.inl ⟨_, _, _, rfl⟩)
  · rw [heq]
    exact hbuilt answerPing_built
  · rw [heq]
    split_ifs with hlogin
    · refine (yields_validateOrRestore _ _ _).bind ?_
      rintro ⟨status, bound⟩ n' _ rfl
      cases status with
      | invalid reason => exact hbuilt (.inl ⟨_, _, _, rfl⟩)
      | bound => exact yields_forward id _
      | restored => exact yields_forward id _
    · exact yields_forward id _

/-- `HandlePacket` on a packet that was taken off `buffer`, whatever its connections to the
upstream services do: each call of a service sends a front of the frame at the start of the
buffer, and all of it if it is answered; and the response is a frame that one of these calls
has brought, or was built by the gateway. -/
def ForwardsBytes (codec : Codec) (bindings : Bindings) (connection : Connection)
    (buffer : List UInt8) : Prop :=
  ∀ packet rest x response bindings' exchanges,
    tryExtractPacket buffer = (some packet, rest) →
    (handlePacket codec bindings ⟨connection.id, packet, connection.peerAddress⟩).run exec x [] =
      some ((response, bindings'), exchanges) →
    (∀ e ∈ exchanges,
      e.Carries (buffer.take (kPacketHeaderSize + packet.header.bodyLen.toNat))) ∧
    ((∃ e ∈ exchanges, ∃ dropped frame rest, e.answer = some response ∧
        e.received = dropped ++ (frame ++ rest) ∧ (¬BadHeader e.received → dropped = []) ∧
        (EpollTcpServer.queueResponse connection response).writeQueue =
          connection.writeQueue ++ [frame]) ∨
      Built codec response)

/-- Decoding and encoding changes no byte of a frame, a buffer without a whole frame is kept
unless its magic number is wrong, and so the gateway forwards and passes back frames byte for
byte. -/
theorem byte_exact_forwarding :
    (∀ buffer packet rest, tryExtractPacket buffer = (some packet, rest) →
      encodePacket packet.header packet.body =
          buffer.take (kPacketHeaderSize + packet.header.bodyLen.toNat) ∧
        rest = buffer.drop (kPacketHeaderSize + packet.header.bodyLen.toNat)) ∧
    (∀ buffer rest, tryExtractPacket buffer = (none, rest) →
      buffer.length < kPacketHeaderSize ∨
        (PacketHeader.ofMemory buffer).toHost.magic = ({} : PacketHeader).magic →
      rest = buffer) ∧
    ∀ codec bindings connection buffer, ForwardsBytes codec bindings connection buffer := by
  refine ⟨fun buffer packet rest h => ?_, fun buffer rest h hkept => ?_,
    fun codec bindings connection buffer packet rest x response bindings' exchanges h hrun => ?_⟩
  · obtain ⟨hcomplete, rfl, rfl⟩ := extracted h
    exact ⟨encode_framePacket hcomplete, rfl⟩
  · refine not_extracted h fun ⟨hsize, hmagic⟩ => ?_
    rcases hkept with hshort | hgood
    · omega
    · exact hmagic hgood
  · have hforwarded := (yields_handlePacket codec bindings
      ⟨connection.id, packet, connection.peerAddress⟩ (x := x) (n := 0)).run
      (by simpa only [Nat.zero_add] using hrun)
    obtain ⟨-, hcarries, horigin⟩ := hforwarded
    have hframe := (encode_extracted h).2
    refine ⟨fun e he => hframe ▸ hcarries e he, horigin.imp ?_ fun hbuilt => hbuilt⟩
    rintro ⟨e, he, hanswer⟩
    obtain ⟨dropped, rest', hreceived, hnone⟩ := (hcarries e he).answer response hanswer
    exact ⟨e, he, dropped, response.encode, rest', hanswer, hreceived, hnone, rfl⟩

end GatewayServer

end GameBackend
