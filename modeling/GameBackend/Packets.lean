import GameBackend.Extractor
import Mathlib.Data.Nat.Bitwise

/-!
# Packets

The frame of the TCP protocol: a header of 24 bytes and a body. `EncodePacket`
writes one, `TryExtractPacket` takes one off the front of a buffer. Memory is that
of a little-endian host, where `htonl` and `ntohl` both turn the four bytes round.

A well-formed packet, one whose header has the magic number and the length of its
body, comes back from its encoding whatever follows (`extract_encodePacket`).
-/

namespace GameBackend

/-! ### Numbers in memory -/

/-- The `width` lowest bytes of a number, the lowest first. -/
def storeBytes : ℕ → ℕ → List UInt8
  | 0, _ => []
  | width + 1, n => UInt8.ofNat n :: storeBytes width (n / 256)

/-- The number that some bytes stand for, the lowest first. -/
def loadBytes : List UInt8 → ℕ
  | [] => 0
  | byte :: bytes => byte.toNat + 256 * loadBytes bytes

@[simp] theorem storeBytes_length (width n : ℕ) : (storeBytes width n).length = width := by
  induction width generalizing n with
  | zero => rfl
  | succ width ih => simp [storeBytes, ih]

theorem loadBytes_lt (bytes : List UInt8) : loadBytes bytes < 256 ^ bytes.length := by
  induction bytes with
  | nil => simp [loadBytes]
  | cons byte bytes ih =>
    have hbyte := byte.toNat_lt
    simp only [loadBytes, List.length_cons, pow_succ]
    omega

theorem loadBytes_storeBytes {width n : ℕ} (h : n < 256 ^ width) :
    loadBytes (storeBytes width n) = n := by
  induction width generalizing n with
  | zero => simp_all [storeBytes, loadBytes]
  | succ width ih =>
    have hdiv : n / 256 < 256 ^ width := by
      rw [pow_succ] at h
      omega
    simp only [storeBytes, loadBytes, ih hdiv, UInt8.toNat_ofNat']
    omega

theorem storeBytes_loadBytes (bytes : List UInt8) :
    storeBytes bytes.length (loadBytes bytes) = bytes := by
  induction bytes with
  | nil => rfl
  | cons byte bytes ih =>
    have hbyte := byte.toNat_lt
    have hlow : UInt8.ofNat (byte.toNat + 256 * loadBytes bytes) = byte := by
      apply UInt8.toNat_inj.mp
      rw [UInt8.toNat_ofNat']
      omega
    have hhigh : (byte.toNat + 256 * loadBytes bytes) / 256 = loadBytes bytes := by omega
    simp only [List.length_cons, loadBytes, storeBytes, hlow, hhigh, ih]

/-- A number turned round byte by byte. -/
def turnBytes (width n : ℕ) : ℕ := loadBytes (storeBytes width n).reverse

theorem turnBytes_lt (width n : ℕ) : turnBytes width n < 256 ^ width := by
  have h := loadBytes_lt (storeBytes width n).reverse
  rwa [List.length_reverse, storeBytes_length] at h

theorem turnBytes_turnBytes {width n : ℕ} (h : n < 256 ^ width) :
    turnBytes width (turnBytes width n) = n := by
  have hback := storeBytes_loadBytes (storeBytes width n).reverse
  rw [List.length_reverse, storeBytes_length] at hback
  rw [turnBytes, turnBytes, hback, List.reverse_reverse, loadBytes_storeBytes h]

/-! ### Byte order -/

def htonl (value : UInt32) : UInt32 := UInt32.ofNat (turnBytes 4 value.toNat)

def ntohl (value : UInt32) : UInt32 := UInt32.ofNat (turnBytes 4 value.toNat)

theorem ntohl_htonl (value : UInt32) : ntohl (htonl value) = value := by
  have hlt : turnBytes 4 value.toNat < 2 ^ 32 := turnBytes_lt 4 value.toNat
  apply UInt32.toNat_inj.mp
  rw [ntohl, htonl, UInt32.toNat_ofNat', UInt32.toNat_ofNat', Nat.mod_eq_of_lt hlt,
    turnBytes_turnBytes value.toNat_lt, Nat.mod_eq_of_lt value.toNat_lt]

def hostToNetwork64 (value : UInt64) : UInt64 :=
  let high := htonl (value >>> 32).toUInt32
  let low := htonl (value &&& 0xFFFFFFFF).toUInt32
  (low.toUInt64 <<< 32) ||| high.toUInt64

def networkToHost64 (value : UInt64) : UInt64 :=
  let high := ntohl (value >>> 32).toUInt32
  let low := ntohl (value &&& 0xFFFFFFFF).toUInt32
  (low.toUInt64 <<< 32) ||| high.toUInt64

/-- The two halves of a 64-bit number. -/
theorem halves_toNat (high low : UInt32) :
    ((high.toUInt64 <<< 32) ||| low.toUInt64).toNat = high.toNat * 2 ^ 32 + low.toNat := by
  have hhigh := high.toNat_lt
  have hlow := low.toNat_lt
  rw [UInt64.toNat_or, UInt64.toNat_shiftLeft, UInt32.toNat_toUInt64, UInt32.toNat_toUInt64]
  have hshift : high.toNat <<< ((32 : UInt64).toNat % 64) % 2 ^ 64 = high.toNat <<< 32 := by
    rw [show (32 : UInt64).toNat % 64 = 32 from rfl, Nat.shiftLeft_eq]
    exact Nat.mod_eq_of_lt (by omega)
  rw [hshift, ← Nat.shiftLeft_add_eq_or_of_lt hlow, Nat.shiftLeft_eq]

theorem high_half (high low : UInt32) :
    (((high.toUInt64 <<< 32) ||| low.toUInt64) >>> 32).toUInt32 = high := by
  have hlow := low.toNat_lt
  apply UInt32.toNat_inj.mp
  rw [UInt64.toNat_toUInt32, UInt64.toNat_shiftRight, halves_toNat,
    show (32 : UInt64).toNat % 64 = 32 from rfl, Nat.shiftRight_eq_div_pow]
  have := high.toNat_lt
  omega

theorem low_half (high low : UInt32) :
    (((high.toUInt64 <<< 32) ||| low.toUInt64) &&& 0xFFFFFFFF).toUInt32 = low := by
  have hlow := low.toNat_lt
  apply UInt32.toNat_inj.mp
  rw [UInt64.toNat_toUInt32, UInt64.toNat_and, halves_toNat,
    show (0xFFFFFFFF : UInt64).toNat = 2 ^ 32 - 1 from rfl, Nat.and_two_pow_sub_one_eq_mod]
  omega

theorem halves_eq (value : UInt64) :
    ((value >>> 32).toUInt32.toUInt64 <<< 32) |||
      (value &&& 0xFFFFFFFF).toUInt32.toUInt64 = value := by
  have hvalue := value.toNat_lt
  apply UInt64.toNat_inj.mp
  rw [halves_toNat, UInt64.toNat_toUInt32, UInt64.toNat_toUInt32, UInt64.toNat_shiftRight,
    UInt64.toNat_and, show (32 : UInt64).toNat % 64 = 32 from rfl,
    show (0xFFFFFFFF : UInt64).toNat = 2 ^ 32 - 1 from rfl, Nat.and_two_pow_sub_one_eq_mod,
    Nat.shiftRight_eq_div_pow]
  omega

theorem networkToHost64_hostToNetwork64 (value : UInt64) :
    networkToHost64 (hostToNetwork64 value) = value := by
  simp only [networkToHost64, hostToNetwork64, high_half, low_half, ntohl_htonl]
  exact halves_eq value

/-! ### The header -/

structure PacketHeader where
  magic : UInt32 := 0x4D47424B
  version : UInt32 := 1
  msgId : UInt32 := 0
  bodyLen : UInt32 := 0
  requestId : UInt64 := 0
  deriving DecidableEq, Repr

structure Packet where
  header : PacketHeader := {}
  body : List UInt8 := []
  deriving DecidableEq, Repr

def kPacketHeaderSize : ℕ := 24

namespace PacketHeader

/-- The bytes of the struct. -/
def memory (header : PacketHeader) : List UInt8 :=
  storeBytes 4 header.magic.toNat ++ (storeBytes 4 header.version.toNat ++
    (storeBytes 4 header.msgId.toNat ++ (storeBytes 4 header.bodyLen.toNat ++
      storeBytes 8 header.requestId.toNat)))

/-- The struct copied from the first 24 of some bytes. -/
def ofMemory (bytes : List UInt8) : PacketHeader where
  magic := UInt32.ofNat (loadBytes (bytes.take 4))
  version := UInt32.ofNat (loadBytes ((bytes.drop 4).take 4))
  msgId := UInt32.ofNat (loadBytes ((bytes.drop 8).take 4))
  bodyLen := UInt32.ofNat (loadBytes ((bytes.drop 12).take 4))
  requestId := UInt64.ofNat (loadBytes ((bytes.drop 16).take 8))

@[simp] theorem memory_length (header : PacketHeader) :
    header.memory.length = kPacketHeaderSize := by
  simp [memory, kPacketHeaderSize]

theorem ofMemory_memory (header : PacketHeader) (more : List UInt8) :
    ofMemory (header.memory ++ more) = header := by
  have h32 (value : UInt32) : UInt32.ofNat (loadBytes (storeBytes 4 value.toNat)) = value := by
    rw [loadBytes_storeBytes value.toNat_lt, UInt32.ofNat_toNat]
  have h64 (value : UInt64) : UInt64.ofNat (loadBytes (storeBytes 8 value.toNat)) = value := by
    rw [loadBytes_storeBytes value.toNat_lt, UInt64.ofNat_toNat]
  simp [ofMemory, memory, List.drop_append, List.drop_eq_nil_of_le, h32, h64]

/-- The header that a buffer starts with depends on its first 24 bytes only. -/
theorem ofMemory_append {bytes : List UInt8} (h : kPacketHeaderSize ≤ bytes.length)
    (more : List UInt8) : ofMemory (bytes ++ more) = ofMemory bytes := by
  have hfield (skip width : ℕ) (hle : skip + width ≤ 24) :
      ((bytes ++ more).drop skip).take width = (bytes.drop skip).take width := by
    rw [kPacketHeaderSize] at h
    rw [List.drop_append_of_le_length (by omega), List.take_append_of_le_length]
    rw [List.length_drop]
    omega
  have htake := hfield 0 4 (by omega)
  simp only [List.drop_zero] at htake
  simp only [ofMemory, htake, hfield 4 4 (by omega), hfield 8 4 (by omega),
    hfield 12 4 (by omega), hfield 16 8 (by omega)]

/-- Every field in network byte order. -/
def toNetwork (header : PacketHeader) : PacketHeader where
  magic := htonl header.magic
  version := htonl header.version
  msgId := htonl header.msgId
  bodyLen := htonl header.bodyLen
  requestId := hostToNetwork64 header.requestId

/-- Every field back in host byte order. -/
def toHost (header : PacketHeader) : PacketHeader where
  magic := ntohl header.magic
  version := ntohl header.version
  msgId := ntohl header.msgId
  bodyLen := ntohl header.bodyLen
  requestId := networkToHost64 header.requestId

@[simp] theorem toHost_toNetwork (header : PacketHeader) : header.toNetwork.toHost = header := by
  cases header
  simp [toNetwork, toHost, ntohl_htonl, networkToHost64_hostToNetwork64]

end PacketHeader

/-! ### Frames -/

def encodePacket (header : PacketHeader) (body : List UInt8) : List UInt8 :=
  header.toNetwork.memory ++ body

/-- `TryExtractPacket`: the packet it delivers when it returns true, and the buffer
as it leaves it. -/
def tryExtractPacket (buffer : List UInt8) : Option Packet × List UInt8 :=
  if buffer.length < kPacketHeaderSize then (none, buffer)
  else
    let hostHeader := (PacketHeader.ofMemory buffer).toHost
    if hostHeader.magic ≠ ({} : PacketHeader).magic then (none, [])
    else
      let totalSize := kPacketHeaderSize + hostHeader.bodyLen.toNat
      if buffer.length < totalSize then (none, buffer)
      else
        (some ⟨hostHeader, (buffer.drop kPacketHeaderSize).take hostHeader.bodyLen.toNat⟩,
          buffer.drop totalSize)

namespace Packet

/-- The frame of a packet. -/
def encode (packet : Packet) : List UInt8 := encodePacket packet.header packet.body

/-- The header has the length of the body. -/
def Sized (packet : Packet) : Prop := packet.header.bodyLen.toNat = packet.body.length

/-- The header has the magic number and the length of the body. -/
def WellFormed (packet : Packet) : Prop :=
  packet.header.magic = ({} : PacketHeader).magic ∧ packet.Sized

instance (packet : Packet) : Decidable packet.Sized :=
  inferInstanceAs (Decidable (_ = _))

instance (packet : Packet) : Decidable packet.WellFormed :=
  inferInstanceAs (Decidable (_ ∧ _))

end Packet

/-! ### The front of a buffer -/

/-- A header with a wrong magic number stands at the front. -/
def BadHeader (buffer : List UInt8) : Prop :=
  kPacketHeaderSize ≤ buffer.length ∧
    (PacketHeader.ofMemory buffer).toHost.magic ≠ ({} : PacketHeader).magic

/-- The size of the frame at the front, as its header has it. -/
def frameSize (buffer : List UInt8) : ℕ :=
  kPacketHeaderSize + (PacketHeader.ofMemory buffer).toHost.bodyLen.toNat

theorem frameSize_pos (buffer : List UInt8) : 0 < frameSize buffer := by
  rw [frameSize, kPacketHeaderSize]
  omega

/-- A header and as many bytes as it announces stand at the front. -/
def CompleteFrame (buffer : List UInt8) : Prop :=
  kPacketHeaderSize ≤ buffer.length ∧ frameSize buffer ≤ buffer.length

/-- A frame with the magic number stands whole at the front. -/
def WholeFrame (buffer : List UInt8) : Prop :=
  CompleteFrame buffer ∧
    (PacketHeader.ofMemory buffer).toHost.magic = ({} : PacketHeader).magic

instance (buffer : List UInt8) : Decidable (BadHeader buffer) :=
  inferInstanceAs (Decidable (_ ∧ _))

instance (buffer : List UInt8) : Decidable (CompleteFrame buffer) :=
  inferInstanceAs (Decidable (_ ∧ _))

instance (buffer : List UInt8) : Decidable (WholeFrame buffer) :=
  inferInstanceAs (Decidable (_ ∧ _))

/-- The packet of a whole frame. -/
def framePacket (buffer : List UInt8) : Packet :=
  let hostHeader := (PacketHeader.ofMemory buffer).toHost
  ⟨hostHeader, (buffer.drop kPacketHeaderSize).take hostHeader.bodyLen.toNat⟩

theorem tryExtractPacket_bad {buffer : List UInt8} (h : BadHeader buffer) :
    tryExtractPacket buffer = (none, []) := by
  obtain ⟨hsize, hmagic⟩ := h
  rw [tryExtractPacket, if_neg (by omega)]
  exact if_pos hmagic

theorem tryExtractPacket_whole {buffer : List UInt8} (h : WholeFrame buffer) :
    tryExtractPacket buffer = (some (framePacket buffer), buffer.drop (frameSize buffer)) := by
  obtain ⟨⟨hsize, htotal⟩, hmagic⟩ := h
  rw [tryExtractPacket, if_neg (by omega)]
  refine (if_neg (not_not.mpr hmagic)).trans (if_neg ?_)
  exact Nat.not_lt.mpr htotal

theorem tryExtractPacket_wait {buffer : List UInt8} (hb : ¬BadHeader buffer)
    (hw : ¬WholeFrame buffer) : tryExtractPacket buffer = (none, buffer) := by
  rw [tryExtractPacket]
  by_cases hsize : buffer.length < kPacketHeaderSize
  · exact if_pos hsize
  · have hmagic : ¬(PacketHeader.ofMemory buffer).toHost.magic ≠ ({} : PacketHeader).magic :=
      fun hmagic => hb ⟨Nat.not_lt.mp hsize, hmagic⟩
    have htotal : buffer.length < frameSize buffer := by
      by_contra htotal
      exact hw ⟨⟨Nat.not_lt.mp hsize, Nat.not_lt.mp htotal⟩, not_not.mp hmagic⟩
    exact (if_neg hsize).trans ((if_neg hmagic).trans (if_pos htotal))

theorem not_wholeFrame_of_badHeader {buffer : List UInt8} (h : BadHeader buffer) :
    ¬WholeFrame buffer := fun hw => h.2 hw.2

/-- More bytes do not change a bad header. -/
theorem BadHeader.append {buffer : List UInt8} (h : BadHeader buffer) (more : List UInt8) :
    BadHeader (buffer ++ more) := by
  refine ⟨?_, ?_⟩
  · have := h.1
    rw [List.length_append]
    omega
  · rw [PacketHeader.ofMemory_append h.1]
    exact h.2

theorem frameSize_append {buffer : List UInt8} (h : kPacketHeaderSize ≤ buffer.length)
    (more : List UInt8) : frameSize (buffer ++ more) = frameSize buffer := by
  rw [frameSize, PacketHeader.ofMemory_append h, frameSize]

/-- A complete frame is the same frame whatever follows it. -/
theorem framePacket_append {front : List UInt8} (hsize : kPacketHeaderSize ≤ front.length)
    (htotal : frameSize front ≤ front.length) (more : List UInt8) :
    framePacket (front ++ more) = framePacket front := by
  rw [framePacket, framePacket, PacketHeader.ofMemory_append hsize,
    List.drop_append_of_le_length hsize]
  refine congrArg (Packet.mk _) (List.take_append_of_le_length ?_)
  rw [List.length_drop]
  rw [frameSize] at htotal
  omega

/-- A complete frame is a front of the buffer, whatever follows it. -/
theorem CompleteFrame.split {buffer : List UInt8} (h : CompleteFrame buffer) :
    ∃ front, kPacketHeaderSize ≤ front.length ∧
      buffer = front ++ buffer.drop (frameSize buffer) ∧
      ∀ more, CompleteFrame (front ++ more) ∧ framePacket (front ++ more) = framePacket buffer ∧
        (front ++ more).drop (frameSize (front ++ more)) = more := by
  obtain ⟨front, rest, hbuffer, hlength⟩ :
      ∃ front rest, buffer = front ++ rest ∧ front.length = frameSize buffer :=
    ⟨_, _, (List.take_append_drop (frameSize buffer) buffer).symm,
      List.length_take_of_le h.2⟩
  subst hbuffer
  have hsize : kPacketHeaderSize ≤ front.length := by
    rw [hlength]
    exact Nat.le_add_right _ _
  have hframe (more : List UInt8) : frameSize (front ++ more) = front.length := by
    rw [frameSize_append hsize, ← frameSize_append hsize rest, hlength]
  have htotal : frameSize front ≤ front.length := by
    rw [← frameSize_append hsize rest, hlength]
  refine ⟨front, hsize, by rw [hframe, List.drop_left' rfl], fun more => ⟨⟨?_, ?_⟩, ?_, ?_⟩⟩
  · rw [List.length_append]
    omega
  · rw [hframe, List.length_append]
    omega
  · rw [framePacket_append hsize htotal, framePacket_append hsize htotal]
  · rw [hframe, List.drop_left' rfl]

theorem nonempty_of_header {front : List UInt8} (h : kPacketHeaderSize ≤ front.length) :
    front ≠ [] := by
  rintro rfl
  exact absurd h (by decide)

/-- What `TryExtractPacket` makes of a buffer. -/
def packetFrames : Extractor UInt8 Packet where
  scan buffer :=
    if BadHeader buffer then .reject
    else if WholeFrame buffer then .frame (framePacket buffer) (buffer.drop (frameSize buffer))
    else .wait
  scan_nil := rfl
  scan_frame := by
    intro buffer p rest h
    split_ifs at h with hb hw
    cases h
    obtain ⟨front, hsize, hbuffer, hfront⟩ := hw.1.split
    refine ⟨front, nonempty_of_header hsize, hbuffer, fun more => ?_⟩
    obtain ⟨hcomplete, hpacket, hdrop⟩ := hfront more
    have hmagic : (PacketHeader.ofMemory front).toHost.magic = ({} : PacketHeader).magic := by
      rw [← PacketHeader.ofMemory_append hsize (buffer.drop (frameSize buffer)), ← hbuffer]
      exact hw.2
    have hwhole : WholeFrame (front ++ more) :=
      ⟨hcomplete, PacketHeader.ofMemory_append hsize more ▸ hmagic⟩
    rw [if_neg fun hbad => not_wholeFrame_of_badHeader hbad hwhole, if_pos hwhole, hpacket,
      hdrop]
  scan_reject := by
    intro buffer h more
    split_ifs at h with hb hw
    exact if_pos (hb.append more)

/-- The frames of a stream by the lengths that the headers announce, whatever their
magic numbers. -/
def lengthFrames : Extractor UInt8 Packet where
  scan buffer :=
    if CompleteFrame buffer then
      .frame (framePacket buffer) (buffer.drop (frameSize buffer))
    else .wait
  scan_nil := rfl
  scan_frame := by
    intro buffer p rest h
    split_ifs at h with hc
    cases h
    obtain ⟨front, hsize, hbuffer, hfront⟩ := hc.split
    refine ⟨front, nonempty_of_header hsize, hbuffer, fun more => ?_⟩
    obtain ⟨hcomplete, hpacket, hdrop⟩ := hfront more
    rw [if_pos hcomplete, hpacket, hdrop]
  scan_reject := by
    intro buffer h more
    split_ifs at h

theorem scan_bad {buffer : List UInt8} (h : BadHeader buffer) :
    packetFrames.scan buffer = .reject := if_pos h

theorem scan_whole {buffer : List UInt8} (h : WholeFrame buffer) :
    packetFrames.scan buffer = .frame (framePacket buffer) (buffer.drop (frameSize buffer)) :=
  (if_neg fun hb => not_wholeFrame_of_badHeader hb h).trans (if_pos h)

theorem scan_wait {buffer : List UInt8} (hb : ¬BadHeader buffer) (hw : ¬WholeFrame buffer) :
    packetFrames.scan buffer = .wait := (if_neg hb).trans (if_neg hw)

theorem scan_complete {buffer : List UInt8} (h : CompleteFrame buffer) :
    lengthFrames.scan buffer = .frame (framePacket buffer) (buffer.drop (frameSize buffer)) :=
  if_pos h

theorem badHeader_of_scan {buffer : List UInt8} (h : packetFrames.scan buffer = .reject) :
    BadHeader buffer := by
  by_contra hb
  by_cases hw : WholeFrame buffer
  · rw [scan_whole hw] at h
    cases h
  · rw [scan_wait hb hw] at h
    cases h

theorem wholeFrame_of_scan {buffer rest : List UInt8} {packet : Packet}
    (h : packetFrames.scan buffer = .frame packet rest) :
    WholeFrame buffer ∧ rest = buffer.drop (frameSize buffer) := by
  by_cases hw : WholeFrame buffer
  · rw [scan_whole hw] at h
    cases h
    exact ⟨hw, rfl⟩
  · by_cases hb : BadHeader buffer
    · rw [scan_bad hb] at h
      cases h
    · rw [scan_wait hb hw] at h
      cases h

/-- One extraction is one reading of the front of the buffer. -/
theorem tryExtractPacket_scan (buffer : List UInt8) :
    tryExtractPacket buffer =
      match packetFrames.scan buffer with
      | .wait => (none, buffer)
      | .frame packet rest => (some packet, rest)
      | .reject => (none, []) := by
  by_cases hb : BadHeader buffer
  · rw [tryExtractPacket_bad hb, scan_bad hb]
  · by_cases hw : WholeFrame buffer
    · rw [tryExtractPacket_whole hw, scan_whole hw]
    · rw [tryExtractPacket_wait hb hw, scan_wait hb hw]

/-! ### Round trip -/

namespace Packet

theorem encode_length (packet : Packet) :
    packet.encode.length = kPacketHeaderSize + packet.body.length := by
  rw [encode, encodePacket, List.length_append, PacketHeader.memory_length]

theorem encode_header (packet : Packet) (more : List UInt8) :
    (PacketHeader.ofMemory (packet.encode ++ more)).toHost = packet.header := by
  rw [encode, encodePacket, List.append_assoc, PacketHeader.ofMemory_memory,
    PacketHeader.toHost_toNetwork]

variable {packet : Packet}

theorem Sized.frameSize (h : packet.Sized) (more : List UInt8) :
    frameSize (packet.encode ++ more) = packet.encode.length := by
  rw [GameBackend.frameSize, encode_header, h, encode_length]

theorem Sized.complete (h : packet.Sized) (more : List UInt8) :
    CompleteFrame (packet.encode ++ more) := by
  refine ⟨?_, ?_⟩
  · rw [List.length_append, encode_length]
    omega
  · rw [h.frameSize, List.length_append]
    omega

theorem Sized.framePacket (h : packet.Sized) (more : List UInt8) :
    framePacket (packet.encode ++ more) = packet := by
  have hbody : ((packet.encode ++ more).drop kPacketHeaderSize).take packet.body.length =
      packet.body := by
    rw [encode, encodePacket, List.append_assoc,
      List.drop_left' (PacketHeader.memory_length _), List.take_left']
    rfl
  rw [GameBackend.framePacket, encode_header, h, hbody]

/-- The frame of a well-formed packet is a whole frame whatever follows it. -/
theorem WellFormed.whole (h : packet.WellFormed) (more : List UInt8) :
    WholeFrame (packet.encode ++ more) :=
  ⟨h.2.complete more, (congrArg PacketHeader.magic (encode_header packet more)).trans h.1⟩

/-- A well-formed packet comes back from its encoding whatever follows it. -/
theorem WellFormed.extract (h : packet.WellFormed) (more : List UInt8) :
    tryExtractPacket (packet.encode ++ more) = (some packet, more) := by
  rw [tryExtractPacket_whole (h.whole more), h.2.framePacket, h.2.frameSize,
    List.drop_left' rfl]

theorem WellFormed.scan (h : packet.WellFormed) (more : List UInt8) :
    packetFrames.scan (packet.encode ++ more) = .frame packet more := by
  rw [scan_whole (h.whole more), h.2.framePacket, h.2.frameSize, List.drop_left' rfl]

theorem Sized.scan (h : packet.Sized) (more : List UInt8) :
    lengthFrames.scan (packet.encode ++ more) = .frame packet more := by
  rw [scan_complete (h.complete more), h.framePacket, h.frameSize, List.drop_left' rfl]

end Packet

/-- What is left of a stream of frames is a front, not the whole, of the next frame. -/
def Unfinished (next : List Packet) (buffer : List UInt8) : Prop :=
  match next with
  | [] => buffer = []
  | packet :: _ => ∃ missing, missing ≠ [] ∧ packet.encode = buffer ++ missing

/-- A front of a stream of well-formed packets drains to the packets it holds whole. -/
theorem drain_packets {packets : List Packet} (hwf : ∀ packet ∈ packets, packet.WellFormed)
    {buffer more : List UInt8} (h : buffer ++ more = packets.flatMap Packet.encode) :
    ∃ next, packets = (packetFrames.drain buffer).1 ++ next ∧
      buffer = (packetFrames.drain buffer).1.flatMap Packet.encode ++
        (packetFrames.drain buffer).2 ∧
      Unfinished next (packetFrames.drain buffer).2 := by
  induction packets generalizing buffer with
  | nil =>
    obtain ⟨rfl, -⟩ := List.append_eq_nil_iff.mp h
    exact ⟨[], by simp, by simp, by simp [Unfinished]⟩
  | cons packet later ih =>
    have hpacket := hwf packet List.mem_cons_self
    have hwhole := hpacket.scan []
    rw [List.append_nil] at hwhole
    rw [List.flatMap_cons, List.append_eq_append_iff] at h
    -- the first frame is whole in the buffer, or the buffer is a front of it
    have hcases : (∃ rest, buffer = packet.encode ++ rest ∧
        rest ++ more = later.flatMap Packet.encode) ∨
        ∃ missing, missing ≠ [] ∧ packet.encode = buffer ++ missing := by
      obtain ⟨missing, hfront, hmore⟩ | ⟨rest, hbuffer, htail⟩ := h
      · by_cases hmissing : missing = []
        · subst hmissing
          exact .inl ⟨[], by simpa using hfront.symm, by simpa using hmore⟩
        · exact .inr ⟨missing, hmissing, hfront⟩
      · exact .inl ⟨rest, hbuffer, htail.symm⟩
    obtain ⟨rest, rfl, htail⟩ | ⟨missing, hmissing, hfront⟩ := hcases
    · obtain ⟨next, hnext, hrest, hleft⟩ :=
        ih (fun p hp => hwf p (List.mem_cons_of_mem _ hp)) htail
      rw [packetFrames.drain_frame (hpacket.scan rest)]
      refine ⟨next, ?_, ?_, hleft⟩
      · rw [List.cons_append, ← hnext]
      · rw [List.flatMap_cons, List.append_assoc, ← hrest]
    · rw [packetFrames.drain_wait (packetFrames.scan_front (hfront ▸ hwhole) hmissing)]
      exact ⟨packet :: later, rfl, rfl, missing, hmissing, hfront⟩

/-- A stream of well-formed packets brings no rejection about. -/
theorem clean_packets {packets : List Packet} (hwf : ∀ packet ∈ packets, packet.WellFormed) :
    packetFrames.Clean (packets.flatMap Packet.encode) := by
  induction packets with
  | nil => exact .wait packetFrames.scan_nil
  | cons packet later ih =>
    have hpacket := hwf packet List.mem_cons_self
    rw [List.flatMap_cons]
    exact .frame (hpacket.scan _) (ih fun p hp => hwf p (List.mem_cons_of_mem _ hp))

/-- A stream of well-formed packets drains to these packets. -/
theorem drain_all_packets {packets : List Packet}
    (hwf : ∀ packet ∈ packets, packet.WellFormed) :
    packetFrames.drain (packets.flatMap Packet.encode) = (packets, []) := by
  induction packets with
  | nil => exact packetFrames.drain_nil
  | cons packet later ih =>
    have hpacket := hwf packet List.mem_cons_self
    rw [List.flatMap_cons, packetFrames.drain_frame (hpacket.scan _),
      ih fun p hp => hwf p (List.mem_cons_of_mem _ hp)]

/-- Read frame by frame, the stream comes to no bad header, or no whole frame with the
magic number stands anywhere behind the bad header. -/
inductive Determinate : List UInt8 → Prop
  | incomplete {stream : List UInt8} (hb : ¬BadHeader stream) (hw : ¬WholeFrame stream) :
      Determinate stream
  | whole {stream : List UInt8} (hw : WholeFrame stream)
      (hrest : Determinate (stream.drop (frameSize stream))) : Determinate stream
  | bad {stream : List UInt8} (hb : BadHeader stream)
      (hnone : ∀ skip, kPacketHeaderSize ≤ skip → ¬WholeFrame (stream.drop skip)) :
      Determinate stream

theorem settled_iff_determinate {stream : List UInt8} :
    packetFrames.Settled stream ↔ Determinate stream := by
  constructor
  · intro hs
    induction hs with
    | @wait stream h =>
      refine .incomplete (fun hb => ?_) (fun hw => ?_)
      · rw [scan_bad hb] at h
        cases h
      · rw [scan_whole hw] at h
        cases h
    | frame h _ ih =>
      obtain ⟨hw, rfl⟩ := wholeFrame_of_scan h
      exact .whole hw ih
    | @reject stream h hlater =>
      have hb := badHeader_of_scan h
      refine .bad hb fun skip hskip hwhole => ?_
      have hsplit := List.take_append_drop skip stream
      have hlength : kPacketHeaderSize ≤ (stream.take skip).length := by
        rw [List.length_take]
        exact le_min hskip hb.1
      have hfront : BadHeader (stream.take skip) := by
        refine ⟨hlength, ?_⟩
        rw [← PacketHeader.ofMemory_append hlength (stream.drop skip), hsplit]
        exact hb.2
      exact hlater _ _ hsplit.symm (scan_bad hfront) _ _ (scan_whole hwhole)
  · intro hd
    induction hd with
    | incomplete hb hw => exact .wait (scan_wait hb hw)
    | whole hw _ ih => exact .frame (scan_whole hw) ih
    | bad hb hnone =>
      refine .reject (scan_bad hb) fun front rest heq hfront p rest' hrest => ?_
      refine hnone front.length (badHeader_of_scan hfront).1 ?_
      rw [heq, List.drop_left' rfl]
      exact (wholeFrame_of_scan hrest).1

end GameBackend
