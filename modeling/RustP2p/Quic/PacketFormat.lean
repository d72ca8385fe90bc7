import RustP2p.Quic.Packet

/-!
# The packet format

Which byte strings are overlay packets, and how a packet and its bytes determine
each other.

`Grammar` states the format on the bytes alone, field by field.  `parse` accepts
exactly these strings (`parse_accepts_grammar`).  `parseIndexed` is the parser with
the index expressions of the source, each of which panics when it is out of
range.  It is the same function, so none of them ever is.

A packet that was built parses to its fields, and a packet that was parsed is
built from its fields again, if the bytes that `build` does not choose are the
ones it writes (`packet_round_trip`).
-/

namespace RustP2p

open BigEndian

/-! ## Peer ids -/

namespace PeerId

/-- An id is read from bytes exactly if they are UTF-8. -/
theorem fromUtf8_isSome {bytes : List UInt8} :
    (∃ id, fromUtf8 bytes = some id) ↔ ByteArray.IsValidUTF8 ⟨bytes.toArray⟩ := by
  simp only [fromUtf8, String.fromUTF8?]
  split
  next h => exact iff_of_true ⟨_, rfl⟩ h
  next h =>
    refine iff_of_false ?_ h
    intro hsome
    obtain ⟨id, hid⟩ := hsome
    cases hid

/-- The bytes of an id are those it was read from. -/
theorem asBytes_of_fromUtf8 {bytes : List UInt8} {id : PeerId} (h : fromUtf8 bytes = some id) :
    id.asBytes = bytes := by
  simp only [fromUtf8, String.fromUTF8?] at h
  split at h
  next hvalid =>
    cases h
    rfl
  next => cases h

end PeerId

namespace Packet

/-! ## Indexing -/

/-- `Packet::parse` with the index expressions of the source, `none` for a panic. -/
def parseIndexed (buf : List UInt8) : Option (IoResult Packet) :=
  if buf.length < FIXED_HEADER_LEN then some (.error ⟨.invalidData, "short packet"⟩)
  else do
    let first ← buf[0]?
    if first &&& 0x80 = 0 then some (.error ⟨.invalidData, "not a rustp2p packet"⟩)
    else
      let version ← buf[1]?
      if version ≠ VERSION then
        some (.error ⟨.invalidData, "unsupported packet version: " ++ toString version⟩)
      else
        let len ← slice? buf 5 9
        if fromBeBytes len ≠ buf.length then
          some (.error ⟨.invalidData, "packet length mismatch"⟩)
        else
          let srcLen ← slice? buf 9 11
          let destLen ← slice? buf 11 13
          let destStart := FIXED_HEADER_LEN + fromBeBytes srcLen
          let payloadOffset := destStart + fromBeBytes destLen
          if hoff : buf.length < payloadOffset then
            some (.error ⟨.invalidData, "peer id length exceeds packet"⟩)
          else
            let srcBytes ← slice? buf FIXED_HEADER_LEN destStart
            match PeerId.fromUtf8 srcBytes with
            | none => some (.error ⟨.invalidData,
                "src peer id: " ++ (Utf8Error.first 0 srcBytes).display⟩)
            | some src =>
                let destBytes ← slice? buf destStart payloadOffset
                match PeerId.fromUtf8 destBytes with
                | none => some (.error ⟨.invalidData,
                    "dest peer id: " ++ (Utf8Error.first 0 destBytes).display⟩)
                | some dest => some (.ok ⟨buf, src, dest, payloadOffset,
                    Nat.le_add_right_of_le (Nat.le_add_right _ _), Nat.le_of_not_lt hoff⟩)

/-- Parsing never panics. -/
theorem parseIndexed_eq (buf : List UInt8) : parseIndexed buf = some (parse buf) := by
  simp only [parseIndexed, parse]
  split
  next => rfl
  next hlen =>
    have hheader : 13 ≤ buf.length := Nat.le_of_not_lt hlen
    have hfirst : buf[0]? = some (buf.get ⟨0, headerByte hlen (by decide)⟩) :=
      List.getElem?_eq_getElem _
    have hversion : buf[1]? = some (buf.get ⟨1, headerByte hlen (by decide)⟩) :=
      List.getElem?_eq_getElem _
    rw [hfirst, hversion, slice?_eq_some (by decide) (by omega),
      slice?_eq_some (by decide) (by omega), slice?_eq_some (by decide) hheader]
    simp only [Option.bind_eq_bind, Option.bind_some]
    split
    next => rfl
    next =>
      split
      next => rfl
      next =>
        split
        next => rfl
        next =>
          have hdest : FIXED_HEADER_LEN + fromBeBytes (slice buf 9 11) = destStart buf := rfl
          have hpayload : destStart buf + fromBeBytes (slice buf 11 13) = payloadStart buf := rfl
          have hstart : FIXED_HEADER_LEN ≤ destStart buf := Nat.le_add_right _ _
          have hstop : destStart buf ≤ payloadStart buf := Nat.le_add_right _ _
          simp only [hdest, hpayload]
          by_cases hoff : buf.length < payloadStart buf
          · rw [dif_pos hoff, dif_pos hoff]
          · rw [dif_neg hoff, dif_neg hoff, slice?_eq_some hstart (by omega),
              slice?_eq_some hstop (by omega)]
            simp only [Option.bind_some]
            cases PeerId.fromUtf8 (slice buf FIXED_HEADER_LEN (destStart buf)) with
            | none => rfl
            | some src =>
                cases PeerId.fromUtf8 (slice buf (destStart buf) (payloadStart buf)) with
                | none => rfl
                | some dest => rfl

/-! ## The grammar -/

/-- The length of the source id, by its field. -/
def srcLen (b : List UInt8) : Nat := fromBeBytes (slice b 9 11)

/-- The length of the destination id, by its field. -/
def destLen (b : List UInt8) : Nat := fromBeBytes (slice b 11 13)

/-- The bytes of an overlay packet. -/
structure Grammar (b : List UInt8) : Prop where
  header : 13 ≤ b.length
  topBit : ∃ first, b[0]? = some first ∧ first &&& 0x80 ≠ 0
  version : b[1]? = some 3
  length : fromBeBytes (slice b 5 9) = b.length
  ids : 13 + srcLen b + destLen b ≤ b.length
  src : ByteArray.IsValidUTF8 ⟨(slice b 13 (13 + srcLen b)).toArray⟩
  dest : ByteArray.IsValidUTF8
    ⟨(slice b (13 + srcLen b) (13 + srcLen b + destLen b)).toArray⟩

/-- What was parsed is in the grammar. -/
theorem grammar_of_parse {b : List UInt8} {p : Packet} (h : parse b = .ok p) : Grammar b := by
  obtain ⟨rfl, htop, hversion, hfield, hoffset, hsrc, hdest⟩ := parse_eq_ok_iff.mp h
  refine ⟨p.length_buf, ⟨p.protocolByte, ?_, htop⟩, hversion, hfield, ?_, ?_, ?_⟩
  · exact List.getElem?_eq_getElem _
  · have hle := p.offset_le
    rw [hoffset] at hle
    exact hle
  · exact PeerId.fromUtf8_isSome.mp ⟨p.src, hsrc⟩
  · exact PeerId.fromUtf8_isSome.mp ⟨p.dest, hdest⟩

/-- What is in the grammar parses. -/
theorem Grammar.parse {b : List UInt8} (h : Grammar b) : ∃ p, parse b = .ok p := by
  obtain ⟨first, hfirst, htop⟩ := h.topBit
  obtain ⟨src, hsrc⟩ := PeerId.fromUtf8_isSome.mpr h.src
  obtain ⟨dest, hdest⟩ := PeerId.fromUtf8_isSome.mpr h.dest
  refine ⟨⟨b, src, dest, payloadStart b, header_le_payloadStart b, h.ids⟩, ?_⟩
  refine parse_eq_ok_iff.mpr ⟨rfl, ?_, h.version, h.length, rfl, hsrc, hdest⟩
  have hbyte : b.get ⟨0, Nat.lt_of_lt_of_le (by decide) h.header⟩ = first := by
    rw [List.getElem?_eq_getElem (Nat.lt_of_lt_of_le (by decide) h.header)] at hfirst
    exact Option.some.inj hfirst
  rw [← hbyte] at htop
  exact htop

/-- For every byte string, parsing does not index out of range, and it succeeds exactly
on the strings of the grammar.  The ids and the payload are then the parts of the
string that the length fields delimit, and the payload is the rest of it. -/
theorem parse_accepts_grammar (b : List UInt8) :
    parseIndexed b = some (parse b) ∧ ((∃ p, parse b = .ok p) ↔ Grammar b) ∧
      ∀ p, parse b = .ok p →
        p.src.asBytes = slice b 13 (13 + srcLen b) ∧
        p.dest.asBytes = slice b (13 + srcLen b) (13 + srcLen b + destLen b) ∧
        p.payload = b.drop (13 + srcLen b + destLen b) := by
  refine ⟨parseIndexed_eq b, ⟨?_, Grammar.parse⟩, ?_⟩
  · intro h
    obtain ⟨p, hp⟩ := h
    exact grammar_of_parse hp
  · intro p hp
    obtain ⟨rfl, -, -, -, hoffset, hsrc, hdest⟩ := parse_eq_ok_iff.mp hp
    refine ⟨PeerId.asBytes_of_fromUtf8 hsrc, PeerId.asBytes_of_fromUtf8 hdest, ?_⟩
    rw [payload, hoffset]
    rfl

/-! ## The round trip -/

/-- A byte whose top bit is set is that bit and the rest. -/
theorem topBit_or_rest {byte : UInt8} (h : byte &&& 0x80 ≠ 0) :
    0x80 ||| (byte &&& 0x7f) = byte := by
  have hall : ∀ n : Fin 256, UInt8.ofNat n.val &&& 0x80 ≠ 0 →
      0x80 ||| (UInt8.ofNat n.val &&& 0x7f) = UInt8.ofNat n.val := by decide +kernel
  have hbyte := hall ⟨byte.toNat, byte.toNat_lt⟩
  rw [UInt8.ofNat_toNat] at hbyte
  exact hbyte h

/-- The number of a protocol is the one it was read from. -/
theorem toByte_of_tryFrom {value : UInt8} {protocol : ProtocolType}
    (h : ProtocolType.tryFrom value = .ok protocol) : protocol.toByte = value := by
  simp only [ProtocolType.tryFrom] at h
  apply UInt8.toNat_inj.mp
  split at h <;> cases h <;> simp_all [ProtocolType.toByte]

/-- `build` accepts what its length fields can hold. -/
theorem build_ok_iff {protocol : ProtocolType} {src dest : PeerId} {maxTtl : UInt8}
    {payload : List UInt8} :
    (∃ p, build protocol src dest maxTtl payload = .ok p) ↔
      src.asBytes.length ≤ 65535 ∧ dest.asBytes.length ≤ 65535 ∧
      13 + src.asBytes.length + dest.asBytes.length + payload.length ≤ 4294967295 := by
  constructor
  · intro h
    obtain ⟨p, hp⟩ := h
    exact (build_eq_ok hp).2.2.2.2
  · intro h
    obtain ⟨hsrc, hdest, hlen⟩ := h
    have hids : ¬ (src.asBytes.length > 65535 ∨ dest.asBytes.length > 65535) := by omega
    have htotal : ¬ FIXED_HEADER_LEN + src.asBytes.length + dest.asBytes.length +
        payload.length > 4294967295 := Nat.not_lt.mpr hlen
    simp only [build]
    rw [if_neg hids, if_neg htotal]
    exact ⟨_, rfl⟩

/-- The first five bytes of a string that has them. -/
theorem five_bytes {b : List UInt8} {b0 b1 b2 b3 b4 : UInt8} (h0 : b[0]? = some b0)
    (h1 : b[1]? = some b1) (h2 : b[2]? = some b2) (h3 : b[3]? = some b3) (h4 : b[4]? = some b4) :
    b = [b0, b1, b2, b3, b4] ++ b.drop 5 := by
  match b, h0, h1, h2, h3, h4 with
  | _ :: _ :: _ :: _ :: _ :: _, h0, h1, h2, h3, h4 =>
      cases h0; cases h1; cases h2; cases h3; cases h4
      rfl

/-- A length field of the header, written from what was read. -/
theorem field_bytes {b : List UInt8} {start width : Nat} (h : start + width ≤ b.length) :
    toBeBytes width (fromBeBytes (slice b start (start + width))) =
      slice b start (start + width) := by
  have hwidth : (slice b start (start + width)).length = width := by
    rw [length_slice h, Nat.add_sub_cancel_left]
  have hread := toBeBytes_fromBeBytes (slice b start (start + width))
  rw [hwidth] at hread
  exact hread

/-- A parsed packet is the encoding of its fields, if the bytes that `build` does not take
from them are the ones it writes. -/
theorem encode_of_parse {b : List UInt8} {p : Packet} {protocol : ProtocolType}
    (h : parse b = .ok p) (hflags : b[2]? = some 0) (httl : p.ttl = p.maxTtl)
    (hprotocol : p.protocol = .ok protocol) :
    encode protocol p.src p.dest p.maxTtl p.payload = b ∧
      p.src.asBytes.length = srcLen b ∧ p.dest.asBytes.length = destLen b := by
  obtain ⟨rfl, htop, hversion, hfield, hoffset, hsrc, hdest⟩ := parse_eq_ok_iff.mp h
  have hheader := p.length_buf
  have hids : 13 + srcLen p.buf + destLen p.buf ≤ p.buf.length := (grammar_of_parse h).ids
  have hsrcBytes : p.src.asBytes = slice p.buf 13 (13 + srcLen p.buf) :=
    PeerId.asBytes_of_fromUtf8 hsrc
  have hdestBytes : p.dest.asBytes =
      slice p.buf (13 + srcLen p.buf) (13 + srcLen p.buf + destLen p.buf) :=
    PeerId.asBytes_of_fromUtf8 hdest
  have hpayload : p.payload = p.buf.drop (13 + srcLen p.buf + destLen p.buf) := by
    rw [payload, hoffset]
    rfl
  have hsrcLen : p.src.asBytes.length = srcLen p.buf := by
    rw [hsrcBytes, length_slice (by omega), Nat.add_sub_cancel_left]
  have hdestLen : p.dest.asBytes.length = destLen p.buf := by
    rw [hdestBytes, length_slice hids, Nat.add_sub_cancel_left]
  have htotal : FIXED_HEADER_LEN + p.src.asBytes.length + p.dest.asBytes.length +
      p.payload.length = p.buf.length := by
    rw [hsrcLen, hdestLen, hpayload, List.length_drop, FIXED_HEADER_LEN]
    omega
  have hbyte : 0x80 ||| protocol.toByte = p.protocolByte := by
    rw [toByte_of_tryFrom hprotocol, topBit_or_rest htop]
  have hbytes : p.buf = [p.protocolByte, VERSION, 0, p.maxTtl, p.maxTtl] ++ p.buf.drop 5 := by
    refine five_bytes (List.getElem?_eq_getElem _) hversion hflags
      (List.getElem?_eq_getElem _) ?_
    rw [← httl]
    exact List.getElem?_eq_getElem _
  have hlenField : toBeBytes 4 p.buf.length = slice p.buf 5 9 := by
    rw [← hfield]
    exact field_bytes (by omega)
  have hsrcField : toBeBytes 2 (srcLen p.buf) = slice p.buf 9 11 := field_bytes (by omega)
  have hdestField : toBeBytes 2 (destLen p.buf) = slice p.buf 11 13 := field_bytes (by omega)
  refine ⟨?_, hsrcLen, hdestLen⟩
  -- the fields are the slices in their order, and what follows the last one is the payload
  calc encode protocol p.src p.dest p.maxTtl p.payload
      = [p.protocolByte, VERSION, 0, p.maxTtl, p.maxTtl] ++ (slice p.buf 5 9 ++
          (slice p.buf 9 11 ++ (slice p.buf 11 13 ++ (slice p.buf 13 (13 + srcLen p.buf) ++
          (slice p.buf (13 + srcLen p.buf) (13 + srcLen p.buf + destLen p.buf) ++
            p.buf.drop (13 + srcLen p.buf + destLen p.buf)))))) := by
        rw [encode, htotal, hbyte, hsrcLen, hdestLen, hlenField, hsrcField, hdestField,
          hsrcBytes, hdestBytes, hpayload]
    _ = [p.protocolByte, VERSION, 0, p.maxTtl, p.maxTtl] ++ p.buf.drop 5 := by
        rw [slice_append_drop (by omega), slice_append_drop (by omega),
          slice_append_drop (by decide), slice_append_drop (by decide),
          slice_append_drop (by decide)]
    _ = p.buf := hbytes.symm

/-- The length field of an id holds sixteen bits. -/
theorem idLen_le {b : List UInt8} {start : Nat} (h : start + 2 ≤ b.length) :
    fromBeBytes (slice b start (start + 2)) ≤ 65535 := by
  have hlt := fromBeBytes_lt (slice b start (start + 2))
  rw [length_slice h, Nat.add_sub_cancel_left] at hlt
  exact Nat.le_of_lt_succ hlt

/-- Packets and their bytes determine each other.  What `build` returns parses to the
fields it was given, and its first byte is classified as an overlay packet.  What parses
with no flags, a full time to live and a known protocol (so that its second highest bit
is clear) is what `build` makes of its fields. -/
theorem packet_round_trip :
    (∀ protocol src dest maxTtl payload,
      ((∃ p, build protocol src dest maxTtl payload = .ok p) ↔
        src.asBytes.length ≤ 65535 ∧ dest.asBytes.length ≤ 65535 ∧
        13 + src.asBytes.length + dest.asBytes.length + payload.length ≤ 4294967295) ∧
      ∀ p, build protocol src dest maxTtl payload = .ok p →
        ∃ q, parse p.buf = .ok q ∧ q.protocol = .ok protocol ∧ q.src = src ∧ q.dest = dest ∧
          q.payload = payload ∧ q.maxTtl = maxTtl ∧ q.ttl = maxTtl ∧
          ∃ first, p.buf[0]? = some first ∧
            classifyPacket first = .rustP2p protocol.toByte) ∧
    ∀ b p protocol, parse b = .ok p → b[2]? = some 0 → p.ttl = p.maxTtl →
      p.protocol = .ok protocol →
      ∃ q, build protocol p.src p.dest p.maxTtl p.payload = .ok q ∧ q.buf = b := by
  constructor
  · intro protocol src dest maxTtl payload
    refine ⟨build_ok_iff, ?_⟩
    intro p hp
    obtain ⟨hsrc, hdest, hpayload, hmax, httl, hbyte, hprotocol⟩ := build_fields hp
    refine ⟨p, parse_build hp, hprotocol, hsrc, hdest, hpayload, hmax, httl, p.protocolByte, ?_, ?_⟩
    · exact List.getElem?_eq_getElem _
    · rw [hbyte]
      exact (protocol_of_byte protocol).2.2
  · intro b p protocol hp hflags httl hprotocol
    have hgrammar := grammar_of_parse hp
    have hheader := hgrammar.header
    obtain ⟨hencode, hsrcLen, hdestLen⟩ := encode_of_parse hp hflags httl hprotocol
    have htotal := congrArg List.length hencode
    rw [length_encode] at htotal
    have hlen := fromBeBytes_lt (slice b 5 9)
    rw [hgrammar.length, length_slice (by omega)] at hlen
    obtain ⟨q, hq⟩ : ∃ q, build protocol p.src p.dest p.maxTtl p.payload = .ok q := by
      refine build_ok_iff.mpr ⟨?_, ?_, ?_⟩
      · rw [hsrcLen]
        exact idLen_le (by omega)
      · rw [hdestLen]
        exact idLen_le (by omega)
      · exact Nat.le_of_lt_succ (Nat.lt_of_le_of_lt (Nat.le_of_eq htotal) hlen)
    exact ⟨q, hq, (build_eq_ok hq).1.trans hencode⟩

end Packet

end RustP2p
