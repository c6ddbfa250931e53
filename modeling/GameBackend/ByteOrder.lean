import GameBackend.Packets
import Mathlib.Tactic.Ring

/-!
# Frames on hosts of either byte order

`EncodePacket` and `TryExtractPacket` again, on a host whose byte order is a parameter; with
the little-endian one they are those of `Packets`. `htonl` and `ntohl` turn the bytes round
on a little-endian host and do nothing on a big-endian one.

`HostToNetwork64` exchanges the halves of a number on either host. Only on a little-endian
one this is what the network order needs, so a frame means the same on all hosts exactly
when the two halves of its request id are equal (`hostIndependent_iff`).
-/

namespace GameBackend

/-- The byte order of a host. -/
inductive ByteOrder where
  | little
  | big
  deriving DecidableEq, Repr

/-! ## Frames -/

namespace ByteOrder

def other : ByteOrder → ByteOrder
  | little => big
  | big => little

/-- A number in memory. -/
def store : ByteOrder → ℕ → ℕ → List UInt8
  | little, width, n => storeBytes width n
  | big, width, n => (storeBytes width n).reverse

/-- The number that some memory holds. -/
def load : ByteOrder → List UInt8 → ℕ
  | little, bytes => loadBytes bytes
  | big, bytes => loadBytes bytes.reverse

def htonl : ByteOrder → UInt32 → UInt32
  | little, value => GameBackend.htonl value
  | big, value => value

def ntohl : ByteOrder → UInt32 → UInt32
  | little, value => GameBackend.ntohl value
  | big, value => value

def hostToNetwork64 (order : ByteOrder) (value : UInt64) : UInt64 :=
  let high := order.htonl (value >>> 32).toUInt32
  let low := order.htonl (value &&& 0xFFFFFFFF).toUInt32
  (low.toUInt64 <<< 32) ||| high.toUInt64

def networkToHost64 (order : ByteOrder) (value : UInt64) : UInt64 :=
  let high := order.ntohl (value >>> 32).toUInt32
  let low := order.ntohl (value &&& 0xFFFFFFFF).toUInt32
  (low.toUInt64 <<< 32) ||| high.toUInt64

/-- Every field in network byte order. -/
def toNetwork (order : ByteOrder) (header : PacketHeader) : PacketHeader where
  magic := order.htonl header.magic
  version := order.htonl header.version
  msgId := order.htonl header.msgId
  bodyLen := order.htonl header.bodyLen
  requestId := order.hostToNetwork64 header.requestId

/-- Every field back in host byte order. -/
def toHost (order : ByteOrder) (header : PacketHeader) : PacketHeader where
  magic := order.ntohl header.magic
  version := order.ntohl header.version
  msgId := order.ntohl header.msgId
  bodyLen := order.ntohl header.bodyLen
  requestId := order.networkToHost64 header.requestId

/-- The bytes of the struct. -/
def memory (order : ByteOrder) (header : PacketHeader) : List UInt8 :=
  order.store 4 header.magic.toNat ++ (order.store 4 header.version.toNat ++
    (order.store 4 header.msgId.toNat ++ (order.store 4 header.bodyLen.toNat ++
      order.store 8 header.requestId.toNat)))

/-- The struct copied from the first 24 of some bytes. -/
def ofMemory (order : ByteOrder) (bytes : List UInt8) : PacketHeader where
  magic := UInt32.ofNat (order.load (bytes.take 4))
  version := UInt32.ofNat (order.load ((bytes.drop 4).take 4))
  msgId := UInt32.ofNat (order.load ((bytes.drop 8).take 4))
  bodyLen := UInt32.ofNat (order.load ((bytes.drop 12).take 4))
  requestId := UInt64.ofNat (order.load ((bytes.drop 16).take 8))

def encodePacket (order : ByteOrder) (header : PacketHeader) (body : List UInt8) :
    List UInt8 :=
  order.memory (order.toNetwork header) ++ body

def tryExtractPacket (order : ByteOrder) (buffer : List UInt8) : Option Packet × List UInt8 :=
  if buffer.length < kPacketHeaderSize then (none, buffer)
  else
    let hostHeader := order.toHost (order.ofMemory buffer)
    if hostHeader.magic ≠ ({} : PacketHeader).magic then (none, [])
    else
      let totalSize := kPacketHeaderSize + hostHeader.bodyLen.toNat
      if buffer.length < totalSize then (none, buffer)
      else
        (some ⟨hostHeader, (buffer.drop kPacketHeaderSize).take hostHeader.bodyLen.toNat⟩,
          buffer.drop totalSize)

/-- `Packets` is about a little-endian host. -/
theorem encodePacket_little : encodePacket little = GameBackend.encodePacket := rfl

theorem tryExtractPacket_little : tryExtractPacket little = GameBackend.tryExtractPacket := rfl

end ByteOrder

/-! ## Network byte order -/

/-- The `width` lowest bytes of a number, the highest first. -/
def bigEndian : ℕ → ℕ → List UInt8
  | 0, _ => []
  | width + 1, n => bigEndian width (n / 256) ++ [UInt8.ofNat n]

/-- The frame of a packet as the protocol has it. -/
def wireFrame (header : PacketHeader) (body : List UInt8) : List UInt8 :=
  bigEndian 4 header.magic.toNat ++ (bigEndian 4 header.version.toNat ++
    (bigEndian 4 header.msgId.toNat ++ (bigEndian 4 header.bodyLen.toNat ++
      (bigEndian 8 header.requestId.toNat ++ body))))

theorem bigEndian_eq (width n : ℕ) : bigEndian width n = (storeBytes width n).reverse := by
  induction width generalizing n with
  | zero => rfl
  | succ width ih => rw [bigEndian, storeBytes, List.reverse_cons, ih]

@[simp] theorem bigEndian_length (width n : ℕ) : (bigEndian width n).length = width := by
  rw [bigEndian_eq, List.length_reverse, storeBytes_length]

/-- The bytes of a number that is put together from two. -/
theorem storeBytes_append {width low : ℕ} (h : low < 256 ^ width) (width' high : ℕ) :
    storeBytes (width + width') (low + 256 ^ width * high) =
      storeBytes width low ++ storeBytes width' high := by
  induction width generalizing low with
  | zero =>
    obtain rfl : low = 0 := by simpa using h
    simp [storeBytes]
  | succ width ih =>
    have hlow : low / 256 < 256 ^ width := by
      rw [pow_succ] at h
      omega
    have hdiv : (low + 256 ^ (width + 1) * high) / 256 = low / 256 + 256 ^ width * high := by
      rw [pow_succ, Nat.mul_right_comm, Nat.add_mul_div_right _ _ (by decide)]
    have hbyte : UInt8.ofNat (low + 256 ^ (width + 1) * high) = UInt8.ofNat low := by
      apply UInt8.toNat_inj.mp
      rw [UInt8.toNat_ofNat', UInt8.toNat_ofNat', pow_succ, Nat.mul_right_comm,
        show (2 : ℕ) ^ 8 = 256 from rfl, Nat.add_mul_mod_self_right]
    rw [Nat.add_right_comm, storeBytes, storeBytes, hdiv, hbyte, ih hlow, List.cons_append]

theorem loadBytes_append (bytes bytes' : List UInt8) :
    loadBytes (bytes ++ bytes') = loadBytes bytes + 256 ^ bytes.length * loadBytes bytes' := by
  induction bytes with
  | nil => simp [loadBytes]
  | cons byte bytes ih =>
    rw [List.cons_append, loadBytes, loadBytes, ih, List.length_cons, pow_succ]
    ring

/-! ## The numbers of a frame -/

/-- A 64-bit number of two halves. -/
def join (high low : UInt32) : UInt64 := (high.toUInt64 <<< 32) ||| low.toUInt64

/-- The number with its halves exchanged. -/
def exchange (value : UInt64) : UInt64 :=
  join (value &&& 0xFFFFFFFF).toUInt32 (value >>> 32).toUInt32

theorem exists_join (value : UInt64) : ∃ high low, value = join high low :=
  ⟨_, _, (halves_eq value).symm⟩

theorem exchange_join (high low : UInt32) : exchange (join high low) = join low high := by
  simp only [exchange, join, high_half, low_half]

theorem storeBytes_join (high low : UInt32) :
    storeBytes 8 (join high low).toNat = storeBytes 4 low.toNat ++ storeBytes 4 high.toNat := by
  rw [join, halves_toNat, ← storeBytes_append low.toNat_lt 4 high.toNat]
  congr 1
  ring

theorem loadBytes_join {bytes : List UInt8} (h : bytes.length = 4) (bytes' : List UInt8) :
    UInt64.ofNat (loadBytes (bytes ++ bytes')) =
      join (UInt32.ofNat (loadBytes bytes')) (UInt32.ofNat (loadBytes bytes)) := by
  have hlow := loadBytes_lt bytes
  rw [h] at hlow
  apply UInt64.toNat_inj.mp
  rw [join, halves_toNat, loadBytes_append, h, UInt64.toNat_ofNat', UInt32.toNat_ofNat',
    UInt32.toNat_ofNat']
  omega

namespace ByteOrder

variable (order : ByteOrder)

/-- What stands on the wire for a request id. -/
def wireId : UInt64 → UInt64 :=
  match order with
  | little => id
  | big => exchange

theorem store_htonl (value : UInt32) :
    order.store 4 (order.htonl value).toNat = bigEndian 4 value.toNat := by
  cases order with
  | little =>
    have hlt : turnBytes 4 value.toNat < 2 ^ 32 := turnBytes_lt 4 value.toNat
    have hback := storeBytes_loadBytes (storeBytes 4 value.toNat).reverse
    rw [List.length_reverse, storeBytes_length] at hback
    rw [store, htonl, GameBackend.htonl, UInt32.toNat_ofNat', Nat.mod_eq_of_lt hlt, turnBytes,
      hback, bigEndian_eq]
  | big => rw [store, htonl, bigEndian_eq]

theorem ntohl_load (value : UInt32) :
    order.ntohl (UInt32.ofNat (order.load (bigEndian 4 value.toNat))) = value := by
  cases order with
  | little =>
    rw [load, ntohl, bigEndian_eq]
    exact ntohl_htonl value
  | big =>
    rw [load, ntohl, bigEndian_eq, List.reverse_reverse, loadBytes_storeBytes value.toNat_lt,
      UInt32.ofNat_toNat]

theorem bigEndian_join (high low : UInt32) :
    bigEndian 8 (join high low).toNat = bigEndian 4 high.toNat ++ bigEndian 4 low.toNat := by
  rw [bigEndian_eq, storeBytes_join, List.reverse_append, ← bigEndian_eq, ← bigEndian_eq]

theorem hostToNetwork64_join (high low : UInt32) :
    order.hostToNetwork64 (join high low) = join (order.htonl low) (order.htonl high) := by
  simp only [hostToNetwork64, join, high_half, low_half]

theorem networkToHost64_join (high low : UInt32) :
    order.networkToHost64 (join high low) = join (order.ntohl low) (order.ntohl high) := by
  simp only [networkToHost64, join, high_half, low_half]

/-- A request id goes out right on a little-endian host and with its halves exchanged on a
big-endian one. -/
theorem store_hostToNetwork64 (value : UInt64) :
    order.store 8 (order.hostToNetwork64 value).toNat =
      bigEndian 8 (order.wireId value).toNat := by
  obtain ⟨high, low, rfl⟩ := exists_join value
  have hhigh := order.store_htonl high
  have hlow := order.store_htonl low
  rw [hostToNetwork64_join]
  cases order with
  | little =>
    rw [store] at hhigh hlow ⊢
    rw [storeBytes_join, hhigh, hlow, wireId, id, bigEndian_join]
  | big =>
    rw [store] at hhigh hlow ⊢
    rw [storeBytes_join, List.reverse_append, hhigh, hlow, wireId, exchange_join, bigEndian_join]

/-- And it comes in the same way. -/
theorem networkToHost64_load (value : UInt64) :
    order.networkToHost64 (UInt64.ofNat (order.load (bigEndian 8 value.toNat))) =
      order.wireId value := by
  obtain ⟨high, low, rfl⟩ := exists_join value
  have hhigh := order.ntohl_load high
  have hlow := order.ntohl_load low
  rw [bigEndian_join]
  cases order with
  | little =>
    rw [load] at hhigh hlow ⊢
    rw [loadBytes_join (bigEndian_length ..), networkToHost64_join, hhigh, hlow, wireId, id]
  | big =>
    rw [load] at hhigh hlow ⊢
    rw [List.reverse_append, loadBytes_join (by simp), networkToHost64_join, hhigh, hlow, wireId,
      exchange_join]

/-- What a host writes is the frame of the protocol, with the request id as it goes out. -/
theorem encodePacket_eq (header : PacketHeader) (body : List UInt8) :
    order.encodePacket header body =
      wireFrame { header with requestId := order.wireId header.requestId } body := by
  simp only [encodePacket, memory, toNetwork, store_htonl, store_hostToNetwork64, wireFrame,
    List.append_assoc]

/-- What a host reads in a frame of the protocol. -/
theorem toHost_ofMemory (header : PacketHeader) (body : List UInt8) :
    order.toHost (order.ofMemory (wireFrame header body)) =
      { header with requestId := order.wireId header.requestId } := by
  simp [toHost, ofMemory, wireFrame, List.drop_append, List.drop_eq_nil_of_le, ntohl_load,
    networkToHost64_load]

end ByteOrder

theorem wireFrame_length (header : PacketHeader) (body : List UInt8) :
    (wireFrame header body).length = kPacketHeaderSize + body.length := by
  simp only [wireFrame, List.length_append, bigEndian_length, kPacketHeaderSize]
  omega

theorem wireFrame_drop (header : PacketHeader) (body : List UInt8) :
    (wireFrame header body).drop kPacketHeaderSize = body := by
  have hfront : wireFrame header body = wireFrame header [] ++ body := by
    simp only [wireFrame, List.append_nil, List.append_assoc]
  have hlength : (wireFrame header []).length = kPacketHeaderSize := wireFrame_length header []
  rw [hfront, List.drop_left' hlength]

theorem wireFrame_inj {header header' : PacketHeader} {body : List UInt8}
    (h : wireFrame header body = wireFrame header' body) : header = header' := by
  have hread := ByteOrder.little.toHost_ofMemory header body
  rw [h, ByteOrder.toHost_ofMemory] at hread
  exact hread.symm

/-- A host reads a well-formed frame of the protocol, with the request id as it comes in. -/
theorem ByteOrder.tryExtractPacket_wireFrame (order : ByteOrder) {header : PacketHeader}
    {body : List UInt8} (h : (⟨header, body⟩ : Packet).WellFormed) :
    order.tryExtractPacket (wireFrame header body) =
      (some ⟨{ header with requestId := order.wireId header.requestId }, body⟩, []) := by
  obtain ⟨hmagic, hsized⟩ := h
  have hlen : header.bodyLen.toNat = body.length := hsized
  have hsize := wireFrame_length header body
  rw [tryExtractPacket, if_neg (by omega)]
  simp only [toHost_ofMemory, hlen, wireFrame_drop]
  rw [if_neg (not_not.mpr hmagic), if_neg (by omega), List.take_length,
    List.drop_eq_nil_of_le (by omega)]

/-! ## Host-independent frames -/

/-- A frame is what the protocol has, whichever host writes it, and a host of the other byte
order gets back the packet. -/
def HostIndependent (header : PacketHeader) (body : List UInt8) : Prop :=
  ∀ order : ByteOrder, order.encodePacket header body = wireFrame header body ∧
    ((⟨header, body⟩ : Packet).WellFormed →
      order.other.tryExtractPacket (order.encodePacket header body) =
        (some ⟨header, body⟩, []))

theorem exchange_eq_iff (value : UInt64) :
    exchange value = value ↔ value >>> 32 = value &&& 0xFFFFFFFF := by
  obtain ⟨high, low, rfl⟩ := exists_join value
  have hhigh := high.toNat_lt
  have hlow := low.toNat_lt
  have hshift : (join high low >>> 32).toNat = high.toNat := by
    rw [join, UInt64.toNat_shiftRight, halves_toNat, show (32 : UInt64).toNat % 64 = 32 from rfl,
      Nat.shiftRight_eq_div_pow]
    omega
  have hmask : (join high low &&& 0xFFFFFFFF).toNat = low.toNat := by
    rw [join, UInt64.toNat_and, halves_toNat,
      show (0xFFFFFFFF : UInt64).toNat = 2 ^ 32 - 1 from rfl, Nat.and_two_pow_sub_one_eq_mod]
    omega
  rw [exchange_join, ← UInt64.toNat_inj, ← UInt64.toNat_inj, hshift, hmask, join, join,
    halves_toNat, halves_toNat]
  omega

/-- Frames are laid out right on little-endian hosts, and on big-endian ones when the halves of
the request id are equal. -/
theorem encodePacket_eq_wireFrame_iff (order : ByteOrder) (header : PacketHeader)
    (body : List UInt8) :
    order.encodePacket header body = wireFrame header body ↔
      order = .little ∨ exchange header.requestId = header.requestId := by
  rw [order.encodePacket_eq]
  cases order with
  | little => simp [ByteOrder.wireId]
  | big =>
    constructor
    · exact fun h => .inr (congrArg PacketHeader.requestId (wireFrame_inj h))
    · rintro (h | h)
      · cases h
      · rw [ByteOrder.wireId, h]

/-- A frame from one host to a host of the other byte order arrives with the halves of its
request id exchanged. -/
theorem tryExtractPacket_other {header : PacketHeader} {body : List UInt8} (order : ByteOrder)
    (h : (⟨header, body⟩ : Packet).WellFormed) :
    order.other.tryExtractPacket (order.encodePacket header body) =
      (some ⟨{ header with requestId := exchange header.requestId }, body⟩, []) := by
  have hwf : (⟨{ header with requestId := order.wireId header.requestId }, body⟩ :
    Packet).WellFormed := h
  rw [order.encodePacket_eq, order.other.tryExtractPacket_wireFrame hwf]
  cases order with
  | little => rfl
  | big => rfl

theorem hostIndependent_iff (header : PacketHeader) (body : List UInt8) :
    HostIndependent header body ↔
      header.requestId >>> 32 = header.requestId &&& 0xFFFFFFFF := by
  rw [← exchange_eq_iff]
  constructor
  · intro h
    obtain hlittle | hequal := (encodePacket_eq_wireFrame_iff .big header body).mp (h .big).1
    · cases hlittle
    · exact hequal
  · intro hequal order
    refine ⟨(encodePacket_eq_wireFrame_iff order header body).mpr (.inr hequal), fun h => ?_⟩
    rw [tryExtractPacket_other order h, hequal]

/-- The request id 1 leaves a big-endian host as 4294967296. -/
theorem request_id_exchanged : ¬HostIndependent { requestId := 1 } [] := by
  intro h
  exact absurd (h .big).1 (by decide +kernel)

end GameBackend
