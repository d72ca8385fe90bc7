import RustP2p.Core.Std
import RustP2p.Lib.BigEndian

/-!
# Overlay packets

`PeerId` of `identity.rs` and the packet header of `protocol.rs`.  The first
byte tells overlay packets from STUN, QUIC and punch traffic.  The fixed header
has thirteen bytes: `0x80 | protocol`, version, flags, maximum and current time
to live, total length, and the lengths of the two peer ids that follow it.

`Packet` carries its bounds, so that the header bytes and the payload can be
read off any packet.  A relay changes one byte, the current time to live.
`parse_set_ttl` says that parsing does not look at that byte, and `parse_build`
that a built packet parses to itself.
-/

namespace RustP2p

open BigEndian

/-! ## Peer ids -/

/-- `identity::PeerId`. -/
structure PeerId where
  value : String
deriving DecidableEq, Repr

namespace PeerId

/-- `PeerId::broadcast`. -/
def broadcast : PeerId := ⟨"*"⟩

/-- `PeerId::is_unspecified`. -/
def isUnspecified (id : PeerId) : Bool := id.value = ""

/-- `PeerId::is_broadcast`. -/
def isBroadcast (id : PeerId) : Bool := id.value = "*"

/-- `as_str().as_bytes()`. -/
def asBytes (id : PeerId) : List UInt8 := id.value.toByteArray.data.toList

/-- `std::str::from_utf8`, to a peer id. -/
def fromUtf8 (bytes : List UInt8) : Option PeerId :=
  (String.fromUTF8? ⟨bytes.toArray⟩).map PeerId.mk

theorem fromUtf8_asBytes (id : PeerId) : fromUtf8 id.asBytes = some id := by
  have bytes : (⟨id.asBytes.toArray⟩ : ByteArray) = id.value.toByteArray := rfl
  simp only [fromUtf8, bytes, String.fromUTF8?, dif_pos id.value.isValidUTF8, Option.map_some]
  rfl

end PeerId

/-! ## Packet kinds -/

/-- `protocol::PacketType`. -/
inductive PacketType where
  | stun
  | quic
  | punch
  | rustP2p (protocol : UInt8)
  | other (byte : UInt8)
deriving DecidableEq, Repr

/-- `classify_packet`. -/
def classifyPacket (firstByte : UInt8) : PacketType :=
  if firstByte &&& 0x40 ≠ 0 then .quic
  else if firstByte = 0x01 then .stun
  else if firstByte = 0x02 ∨ firstByte = 0x03 then .punch
  else if firstByte &&& 0x80 ≠ 0 then .rustP2p (firstByte &&& 0x7f)
  else .other firstByte

/-- `protocol::ProtocolType`. -/
inductive ProtocolType where
  | messageData
  | punchConsultRequest
  | punchConsultReply
  | punchRequest
  | punchReply
  | echoRequest
  | echoReply
  | timestampRequest
  | timestampReply
  | idRouteQuery
  | idRouteReply
  | rangeBroadcast
  | quicRelay
  | helloRequest
  | helloReply
  | natObserveRequest
  | natObserveReply
deriving DecidableEq, Repr

namespace ProtocolType

/-- `value as u8`. -/
def toByte : ProtocolType → UInt8
  | messageData => 0
  | punchConsultRequest => 1
  | punchConsultReply => 2
  | punchRequest => 3
  | punchReply => 4
  | echoRequest => 5
  | echoReply => 6
  | timestampRequest => 7
  | timestampReply => 8
  | idRouteQuery => 9
  | idRouteReply => 10
  | rangeBroadcast => 11
  | quicRelay => 12
  | helloRequest => 13
  | helloReply => 14
  | natObserveRequest => 15
  | natObserveReply => 16

/-- `TryFrom<u8>`. -/
def tryFrom (value : UInt8) : IoResult ProtocolType :=
  match value.toNat with
  | 0 => .ok messageData
  | 1 => .ok punchConsultRequest
  | 2 => .ok punchConsultReply
  | 3 => .ok punchRequest
  | 4 => .ok punchReply
  | 5 => .ok echoRequest
  | 6 => .ok echoReply
  | 7 => .ok timestampRequest
  | 8 => .ok timestampReply
  | 9 => .ok idRouteQuery
  | 10 => .ok idRouteReply
  | 11 => .ok rangeBroadcast
  | 12 => .ok quicRelay
  | 13 => .ok helloRequest
  | 14 => .ok helloReply
  | 15 => .ok natObserveRequest
  | 16 => .ok natObserveReply
  | val => .error ⟨.invalidData, "invalid protocol type: " ++ toString val⟩

end ProtocolType

/-! ## Packets -/

/-- `VERSION`. -/
def VERSION : UInt8 := 3

/-- `FIXED_HEADER_LEN`. -/
def FIXED_HEADER_LEN : Nat := 13

/-- `protocol::Packet`.  The payload starts after the fixed header and inside
the buffer. -/
structure Packet where
  buf : List UInt8
  src : PeerId
  dest : PeerId
  payloadOffset : Nat
  header_le : FIXED_HEADER_LEN ≤ payloadOffset
  offset_le : payloadOffset ≤ buf.length
deriving DecidableEq, Repr

namespace Packet

/-- The header of a packet between two peers with identifiers of one byte. -/
theorem header_le_fifteen : FIXED_HEADER_LEN ≤ 15 := by decide

theorem length_buf (p : Packet) : 13 ≤ p.buf.length :=
  Nat.le_trans p.header_le p.offset_le

/-- The first byte, the top bit and the protocol number. -/
def protocolByte (p : Packet) : UInt8 := have := p.length_buf; p.buf[0]

/-- `Packet::protocol`. -/
def protocol (p : Packet) : IoResult ProtocolType := ProtocolType.tryFrom (p.protocolByte &&& 0x7f)

/-- `Packet::max_ttl`. -/
def maxTtl (p : Packet) : UInt8 := have := p.length_buf; p.buf[3]

/-- `Packet::ttl`. -/
def ttl (p : Packet) : UInt8 := have := p.length_buf; p.buf[4]

/-- `Packet::payload`. -/
def payload (p : Packet) : List UInt8 := p.buf.drop p.payloadOffset

/-- The number of relays a packet says it crossed, `max_ttl.saturating_sub(ttl)`. -/
def metric (p : Packet) : UInt8 := saturatingSub p.maxTtl p.ttl

/-- The packet with another current time to live. -/
def setTtl (p : Packet) (ttl : UInt8) : Packet :=
  { p with buf := p.buf.set 4 ttl, offset_le := by rw [List.length_set]; exact p.offset_le }

/-- `Packet::decrement_ttl`, `none` for `false`. -/
def decrementTtl (p : Packet) : Option Packet :=
  if p.ttl ≤ 1 then none else some (p.setTtl (p.ttl - 1))

/-- The bytes `Packet::build` pushes, before it knows they fit. -/
def encode (protocol : ProtocolType) (src dest : PeerId) (maxTtl : UInt8)
    (payload : List UInt8) : List UInt8 :=
  [0x80 ||| protocol.toByte, VERSION, 0, maxTtl, maxTtl] ++
    (toBeBytes 4 (FIXED_HEADER_LEN + src.asBytes.length + dest.asBytes.length + payload.length) ++
    (toBeBytes 2 src.asBytes.length ++ (toBeBytes 2 dest.asBytes.length ++
    (src.asBytes ++ (dest.asBytes ++ payload)))))

theorem length_encode (protocol : ProtocolType) (src dest : PeerId) (maxTtl : UInt8)
    (payload : List UInt8) : (encode protocol src dest maxTtl payload).length =
      FIXED_HEADER_LEN + src.asBytes.length + dest.asBytes.length + payload.length := by
  simp only [encode, List.length_append, List.length_cons, List.length_nil, length_toBeBytes,
    FIXED_HEADER_LEN]
  omega

/-- `Packet::build`.  The additions of the source are checked in `usize`, whose
overflow gives the same error as a length beyond `u32`. -/
def build (protocol : ProtocolType) (src dest : PeerId) (maxTtl : UInt8)
    (payload : List UInt8) : IoResult Packet :=
  if src.asBytes.length > 65535 ∨ dest.asBytes.length > 65535 then
    .error ⟨.invalidInput, "peer id exceeds 65535 bytes"⟩
  else if FIXED_HEADER_LEN + src.asBytes.length + dest.asBytes.length + payload.length >
      4294967295 then
    .error ⟨.invalidInput, "packet too large"⟩
  else
    .ok {
      buf := encode protocol src dest maxTtl payload
      src := src
      dest := dest
      payloadOffset := FIXED_HEADER_LEN + src.asBytes.length + dest.asBytes.length
      header_le := by omega
      offset_le := by rw [length_encode]; omega }

/-- Where the header says the destination id starts. -/
def destStart (buf : List UInt8) : Nat := FIXED_HEADER_LEN + fromBeBytes (slice buf 9 11)

/-- Where the header says the payload starts. -/
def payloadStart (buf : List UInt8) : Nat := destStart buf + fromBeBytes (slice buf 11 13)

theorem header_le_payloadStart (buf : List UInt8) : FIXED_HEADER_LEN ≤ payloadStart buf :=
  Nat.le_trans (Nat.le_add_right _ _) (Nat.le_add_right _ _)

theorem headerByte {n i : Nat} (h : ¬ n < FIXED_HEADER_LEN) (hi : i < FIXED_HEADER_LEN) : i < n :=
  Nat.lt_of_lt_of_le hi (Nat.le_of_not_lt h)

/-- `Packet::parse`.  The two `checked_add` of the source cannot fail, the
lengths being below `2 ^ 16`. -/
def parse (buf : List UInt8) : IoResult Packet :=
  if hlen : buf.length < FIXED_HEADER_LEN then
    .error ⟨.invalidData, "short packet"⟩
  else if buf.get ⟨0, headerByte hlen (by decide)⟩ &&& 0x80 = 0 then
    .error ⟨.invalidData, "not a rustp2p packet"⟩
  else if buf.get ⟨1, headerByte hlen (by decide)⟩ ≠ VERSION then
    .error ⟨.invalidData, "unsupported packet version: " ++
      toString (buf.get ⟨1, headerByte hlen (by decide)⟩)⟩
  else if fromBeBytes (slice buf 5 9) ≠ buf.length then
    .error ⟨.invalidData, "packet length mismatch"⟩
  else if hoff : buf.length < payloadStart buf then
    .error ⟨.invalidData, "peer id length exceeds packet"⟩
  else
    match PeerId.fromUtf8 (slice buf FIXED_HEADER_LEN (destStart buf)) with
    | none => .error ⟨.invalidData, "src peer id: " ++
        (Utf8Error.first 0 (slice buf FIXED_HEADER_LEN (destStart buf))).display⟩
    | some src =>
        match PeerId.fromUtf8 (slice buf (destStart buf) (payloadStart buf)) with
        | none => .error ⟨.invalidData, "dest peer id: " ++
            (Utf8Error.first 0 (slice buf (destStart buf) (payloadStart buf))).display⟩
        | some dest => .ok ⟨buf, src, dest, payloadStart buf, header_le_payloadStart buf,
            Nat.le_of_not_lt hoff⟩

/-! ## Changing the time to live -/

section SetTtl

variable (p : Packet) (t : UInt8)

@[simp] theorem setTtl_src : (p.setTtl t).src = p.src := rfl

@[simp] theorem setTtl_dest : (p.setTtl t).dest = p.dest := rfl

@[simp] theorem setTtl_ttl : (p.setTtl t).ttl = t := by
  simp [setTtl, ttl]

@[simp] theorem setTtl_maxTtl : (p.setTtl t).maxTtl = p.maxTtl := by
  simp [setTtl, maxTtl]

@[simp] theorem setTtl_protocolByte : (p.setTtl t).protocolByte = p.protocolByte := by
  simp [setTtl, protocolByte]

@[simp] theorem setTtl_protocol : (p.setTtl t).protocol = p.protocol := by
  rw [protocol, setTtl_protocolByte, protocol]

@[simp] theorem setTtl_payload : (p.setTtl t).payload = p.payload :=
  List.drop_set_of_lt (Nat.lt_of_lt_of_le (by decide : 4 < FIXED_HEADER_LEN) p.header_le)

end SetTtl

/-! ## What parsing accepts -/

/-- The packets that parse to `p`: the header is complete and names a version 3
overlay packet, the length field is the length, and the ids are where `p` has
them. -/
theorem parse_eq_ok_iff {buf : List UInt8} {p : Packet} :
    parse buf = .ok p ↔
      p.buf = buf ∧ p.protocolByte &&& 0x80 ≠ 0 ∧ p.buf[1]? = some VERSION ∧
      fromBeBytes (slice buf 5 9) = buf.length ∧ p.payloadOffset = payloadStart buf ∧
      PeerId.fromUtf8 (slice buf FIXED_HEADER_LEN (destStart buf)) = some p.src ∧
      PeerId.fromUtf8 (slice buf (destStart buf) (payloadStart buf)) = some p.dest := by
  constructor
  · intro h
    simp only [parse] at h
    split at h
    next => cases h
    next hlen =>
      split at h
      next => cases h
      next htop =>
        split at h
        next => cases h
        next hversion =>
          split at h
          next => cases h
          next hfield =>
            split at h
            next => cases h
            next hoff =>
              split at h
              next => cases h
              next src hsrc =>
                split at h
                next => cases h
                next dest hdest =>
                  cases h
                  refine ⟨rfl, htop, ?_, not_not.mp hfield, rfl, hsrc, hdest⟩
                  rw [List.getElem?_eq_getElem (headerByte hlen (by decide))]
                  exact congrArg some (not_not.mp hversion)
  · intro h
    obtain ⟨rfl, htop, hversion, hfield, hoffset, hsrc, hdest⟩ := h
    have hlen : ¬ p.buf.length < FIXED_HEADER_LEN := Nat.not_lt.mpr p.length_buf
    have hoff : ¬ p.buf.length < payloadStart p.buf := by
      rw [← hoffset]
      exact Nat.not_lt.mpr p.offset_le
    have htop' : ¬ p.buf.get ⟨0, headerByte hlen (by decide)⟩ &&& 0x80 = 0 := htop
    have hversion' : p.buf.get ⟨1, headerByte hlen (by decide)⟩ = VERSION := by
      rw [List.getElem?_eq_getElem (headerByte hlen (by decide))] at hversion
      exact Option.some.inj hversion
    simp only [parse]
    rw [dif_neg hlen, if_neg htop', if_neg (not_not.mpr hversion'), if_neg (not_not.mpr hfield),
      dif_neg hoff]
    simp only [hsrc, hdest]
    simp only [← hoffset]

/-- A parsed packet keeps the bytes it was parsed from. -/
theorem parse_buf {buf : List UInt8} {p : Packet} (h : parse buf = .ok p) : p.buf = buf :=
  (parse_eq_ok_iff.mp h).1

/-- Parsing does not look at the current time to live. -/
theorem parse_set_ttl {buf : List UInt8} {p : Packet} (h : parse buf = .ok p) (t : UInt8) :
    parse (buf.set 4 t) = .ok (p.setTtl t) := by
  obtain ⟨rfl, htop, hversion, hfield, hoffset, hsrc, hdest⟩ := parse_eq_ok_iff.mp h
  have hstart : destStart (p.buf.set 4 t) = destStart p.buf := by
    rw [destStart, destStart, slice_set (by decide)]
  have hpayload : payloadStart (p.buf.set 4 t) = payloadStart p.buf := by
    rw [payloadStart, payloadStart, hstart, slice_set (by decide)]
  have hafter : 4 < destStart p.buf :=
    Nat.lt_of_lt_of_le (by decide : 4 < FIXED_HEADER_LEN) (Nat.le_add_right _ _)
  refine parse_eq_ok_iff.mpr ⟨rfl, ?_, ?_, ?_, ?_, ?_, ?_⟩
  · rw [setTtl_protocolByte]
    exact htop
  · simpa [setTtl] using hversion
  · rw [slice_set (by decide), List.length_set]
    exact hfield
  · rw [hpayload]
    exact hoffset
  · rw [hstart, slice_set (by decide)]
    exact hsrc
  · rw [hstart, hpayload, slice_set hafter]
    exact hdest

/-- So a parsed packet parses again with another time to live. -/
theorem parse_setTtl {buf : List UInt8} {p : Packet} (h : parse buf = .ok p) (t : UInt8) :
    parse (p.setTtl t).buf = .ok (p.setTtl t) := by
  have hset : (p.setTtl t).buf = buf.set 4 t := by
    rw [← parse_buf h]
    rfl
  rw [hset]
  exact parse_set_ttl h t

/-! ## What building gives -/

/-- The top bit marks the packet as an overlay packet, and the rest of the first
byte is the protocol. -/
theorem protocol_of_byte (protocol : ProtocolType) :
    (0x80 ||| protocol.toByte) &&& 0x80 ≠ 0 ∧
      ProtocolType.tryFrom ((0x80 ||| protocol.toByte) &&& 0x7f) = .ok protocol ∧
      classifyPacket (0x80 ||| protocol.toByte) = .rustP2p protocol.toByte := by
  cases protocol <;> decide

section Build

variable {protocol : ProtocolType} {src dest : PeerId} {maxTtl : UInt8} {payload : List UInt8}
  {p : Packet}

/-- The packet that `build` returns, and the two bounds it checked. -/
theorem build_eq_ok (h : build protocol src dest maxTtl payload = .ok p) :
    p.buf = encode protocol src dest maxTtl payload ∧ p.src = src ∧ p.dest = dest ∧
      p.payloadOffset = FIXED_HEADER_LEN + src.asBytes.length + dest.asBytes.length ∧
      src.asBytes.length ≤ 65535 ∧ dest.asBytes.length ≤ 65535 ∧
      FIXED_HEADER_LEN + src.asBytes.length + dest.asBytes.length + payload.length ≤
        4294967295 := by
  simp only [build] at h
  split at h
  next => cases h
  next hids =>
    split at h
    next => cases h
    next hlen =>
      cases h
      exact ⟨rfl, rfl, rfl, rfl, by omega, by omega, by omega⟩

/-- The parts of a built packet, by the offsets of `parse`. -/
theorem slices_encode (protocol : ProtocolType) (maxTtl : UInt8)
    (hsrc : src.asBytes.length ≤ 65535) (hdest : dest.asBytes.length ≤ 65535)
    (hlen : FIXED_HEADER_LEN + src.asBytes.length + dest.asBytes.length + payload.length ≤
      4294967295) :
    let buf := encode protocol src dest maxTtl payload
    fromBeBytes (slice buf 5 9) = buf.length ∧
      destStart buf = FIXED_HEADER_LEN + src.asBytes.length ∧
      payloadStart buf = FIXED_HEADER_LEN + src.asBytes.length + dest.asBytes.length ∧
      slice buf FIXED_HEADER_LEN (destStart buf) = src.asBytes ∧
      slice buf (destStart buf) (payloadStart buf) = dest.asBytes ∧
      buf.drop (payloadStart buf) = payload := by
  intro buf
  have split : buf = [0x80 ||| protocol.toByte, VERSION, 0, maxTtl, maxTtl] ++
      (toBeBytes 4 (FIXED_HEADER_LEN + src.asBytes.length + dest.asBytes.length +
        payload.length) ++ (toBeBytes 2 src.asBytes.length ++ (toBeBytes 2 dest.asBytes.length ++
        (src.asBytes ++ (dest.asBytes ++ payload))))) := rfl
  have hstart : destStart buf = FIXED_HEADER_LEN + src.asBytes.length := by
    rw [destStart, split, ← List.append_assoc, slice_append (by simp) (by simp),
      fromBeBytes_toBeBytes, Nat.mod_eq_of_lt (by omega)]
  have hpayload : payloadStart buf =
      FIXED_HEADER_LEN + src.asBytes.length + dest.asBytes.length := by
    rw [payloadStart, hstart, split, ← List.append_assoc, ← List.append_assoc,
      slice_append (by simp) (by simp), fromBeBytes_toBeBytes, Nat.mod_eq_of_lt (by omega)]
  refine ⟨?_, hstart, hpayload, ?_, ?_, ?_⟩
  · rw [length_encode, split, slice_append (by simp) (by simp), fromBeBytes_toBeBytes,
      Nat.mod_eq_of_lt (by omega)]
  · rw [hstart, split, ← List.append_assoc, ← List.append_assoc, ← List.append_assoc,
      slice_append (by simp [FIXED_HEADER_LEN]) (by omega)]
  · rw [hstart, hpayload, split, ← List.append_assoc, ← List.append_assoc, ← List.append_assoc,
      ← List.append_assoc, slice_append (by simp [FIXED_HEADER_LEN]; omega) (by omega)]
  · rw [hpayload, split, ← List.append_assoc, ← List.append_assoc, ← List.append_assoc,
      ← List.append_assoc, ← List.append_assoc]
    exact List.drop_left' (by simp [FIXED_HEADER_LEN]; omega)

/-- A built packet parses to itself. -/
theorem parse_build (h : build protocol src dest maxTtl payload = .ok p) :
    parse p.buf = .ok p := by
  obtain ⟨hbuf, rfl, rfl, hoffset, hsrc, hdest, hlen⟩ := build_eq_ok h
  obtain ⟨hfield, hstart, hpayload, hsrcBytes, hdestBytes, -⟩ :=
    slices_encode protocol maxTtl hsrc hdest hlen
  have hbyte : p.protocolByte = 0x80 ||| protocol.toByte := by
    simp only [protocolByte, hbuf]
    rfl
  refine parse_eq_ok_iff.mpr ⟨rfl, ?_, ?_, ?_, ?_, ?_, ?_⟩
  · rw [hbyte]
    exact (protocol_of_byte protocol).1
  · rw [hbuf]
    rfl
  · rw [hbuf]
    exact hfield
  · rw [hbuf, hpayload]
    exact hoffset
  · rw [hbuf, hsrcBytes]
    exact PeerId.fromUtf8_asBytes p.src
  · rw [hbuf, hdestBytes]
    exact PeerId.fromUtf8_asBytes p.dest

/-- The fields of a built packet. -/
theorem build_fields (h : build protocol src dest maxTtl payload = .ok p) :
    p.src = src ∧ p.dest = dest ∧ p.payload = payload ∧ p.maxTtl = maxTtl ∧ p.ttl = maxTtl ∧
      p.protocolByte = 0x80 ||| protocol.toByte ∧ p.protocol = .ok protocol := by
  obtain ⟨hbuf, rfl, rfl, hoffset, hsrc, hdest, hlen⟩ := build_eq_ok h
  obtain ⟨-, -, hpayload, -, -, hrest⟩ :=
    slices_encode protocol maxTtl hsrc hdest hlen
  have hbyte : p.protocolByte = 0x80 ||| protocol.toByte := by
    simp only [protocolByte, hbuf]
    rfl
  refine ⟨rfl, rfl, ?_, ?_, ?_, hbyte, ?_⟩
  · rw [Packet.payload, hbuf, hoffset, ← hpayload]
    exact hrest
  · simp only [Packet.maxTtl, hbuf]
    rfl
  · simp only [ttl, hbuf]
    rfl
  · rw [Packet.protocol, hbyte]
    exact (protocol_of_byte protocol).2.1

end Build

end Packet

end RustP2p
