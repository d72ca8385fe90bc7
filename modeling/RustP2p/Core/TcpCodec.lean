import RustP2p.Core.Std
import RustP2p.Lib.BigEndian
import RustP2p.Lib.Framing

/-!
# TCP framing

`LengthPrefixedCodec` of `endpoint/codec.rs` and the read task of a TCP tunnel in
`endpoint/pool.rs`.  A frame is its length in four big-endian bytes and its bytes.

The read task is generic in the codec, as in the source.  It appends what it read
to its buffer and takes frames until the decoder waits.  It ends at the end of the
stream, at a read error, at a shutdown, at a frame it cannot decode, and when its
frames are not received any more.  While they are, it does what the library's
`feed` does (`tracks_step`), so that the chunks do not matter.
-/

namespace RustP2p

open BigEndian Framing

/-! ## The codec -/

/-- `MAX_FRAME_LEN`. -/
def MAX_FRAME_LEN : Nat := 64 * 1024

namespace LengthPrefixedCodec

/-- `LengthPrefixedCodec::decode`: the frame and the rest of the buffer, `none` if more is
needed. -/
def decode (buf : List UInt8) : IoResult (Option (List UInt8 × List UInt8)) :=
  if buf.length < 4 then .ok none
  else if fromBeBytes (slice buf 0 4) > MAX_FRAME_LEN then
    .error ⟨.invalidData, "frame too large: " ++ toString (fromBeBytes (slice buf 0 4))⟩
  else if buf.length < 4 + fromBeBytes (slice buf 0 4) then .ok none
  else .ok (some (slice buf 4 (4 + fromBeBytes (slice buf 0 4)),
    buf.drop (4 + fromBeBytes (slice buf 0 4))))

/-- `LengthPrefixedCodec::encode`: the slices it pushes onto `iov`. -/
def encode (data : List UInt8) (iov : List (List UInt8)) : IoResult (List (List UInt8)) :=
  if data.length > MAX_FRAME_LEN then
    .error ⟨.invalidInput, "frame too large: " ++ toString data.length⟩
  else if data.length > 4294967295 then .error ⟨.invalidInput, "frame too large"⟩
  else .ok (iov ++ [toBeBytes 4 data.length, data])

/-- What the write task sends for one frame: all slices of a fresh `iov`. -/
def send (data : List UInt8) : IoResult (List UInt8) :=
  match encode data [] with
  | .error e => .error e
  | .ok iov => .ok iov.flatten

/-- A frame on the wire. -/
def frame (data : List UInt8) : List UInt8 := toBeBytes 4 data.length ++ data

theorem length_frame (data : List UInt8) : (frame data).length = 4 + data.length := by
  rw [frame, List.length_append, length_toBeBytes]

theorem encode_eq_ok {data : List UInt8} (h : data.length ≤ MAX_FRAME_LEN)
    (iov : List (List UInt8)) : encode data iov = .ok (iov ++ [toBeBytes 4 data.length, data]) := by
  have hmax : data.length ≤ 65536 := h
  have hu32 : ¬ data.length > 4294967295 := by omega
  simp only [encode]
  rw [if_neg (Nat.not_lt.mpr h), if_neg hu32]

theorem send_eq_ok {data : List UInt8} (h : data.length ≤ MAX_FRAME_LEN) :
    send data = .ok (frame data) := by
  simp only [send, encode_eq_ok h, List.nil_append, List.flatten_cons, List.flatten_nil,
    List.append_nil]
  rfl

/-! ## What the decoder does -/

/-- A decoded frame is complete, and the length before it is in bounds. -/
theorem decode_eq_some {buf data rest : List UInt8}
    (h : decode buf = .ok (some (data, rest))) :
    4 + fromBeBytes (slice buf 0 4) ≤ buf.length ∧ fromBeBytes (slice buf 0 4) ≤ MAX_FRAME_LEN ∧
      data = slice buf 4 (4 + fromBeBytes (slice buf 0 4)) ∧
      rest = buf.drop (4 + fromBeBytes (slice buf 0 4)) := by
  simp only [decode] at h
  split at h
  next => cases h
  next =>
    split at h
    next => cases h
    next hmax =>
      split at h
      next => cases h
      next hlen =>
        cases h
        exact ⟨Nat.le_of_not_lt hlen, Nat.le_of_not_lt hmax, rfl, rfl⟩

theorem decode_eq_error {buf : List UInt8} {e : IoError} (h : decode buf = .error e) :
    4 ≤ buf.length ∧ MAX_FRAME_LEN < fromBeBytes (slice buf 0 4) ∧
      e = ⟨.invalidData, "frame too large: " ++ toString (fromBeBytes (slice buf 0 4))⟩ := by
  simp only [decode] at h
  split at h
  next => cases h
  next hheader =>
    split at h
    next hmax =>
      cases h
      exact ⟨Nat.le_of_not_lt hheader, hmax, rfl⟩
    next =>
      split at h
      next => cases h
      next => cases h

/-- The codec as a decoder of the library. -/
def decoder : Decoder UInt8 (List UInt8) IoError where
  decode := decode
  shrinks := by
    intro buf data rest h
    obtain ⟨hlen, -, -, rfl⟩ := decode_eq_some h
    rw [List.length_drop]
    omega

theorem decode_decoder (buf : List UInt8) : decoder.decode buf = decode buf := rfl

/-- The header decides, and it is in the buffer when the decoder does not wait. -/
theorem incremental : decoder.Incremental where
  frame_append := by
    intro buf data rest more h
    obtain ⟨hlen, hmax, rfl, rfl⟩ := decode_eq_some h
    have hheader : slice (buf ++ more) 0 4 = slice buf 0 4 :=
      slice_append_right (by decide) (by omega)
    have hlong : ¬ (buf ++ more).length < 4 := by
      rw [List.length_append]
      omega
    have hwhole : ¬ (buf ++ more).length < 4 + fromBeBytes (slice buf 0 4) := by
      rw [List.length_append]
      omega
    simp only [decoder, decode, hheader]
    rw [if_neg hlong, if_neg (Nat.not_lt.mpr hmax), if_neg hwhole,
      slice_append_right (by omega) hlen, List.drop_append_of_le_length hlen]
  error_append := by
    intro buf e more h
    obtain ⟨hlen, hmax, rfl⟩ := decode_eq_error h
    have hheader : slice (buf ++ more) 0 4 = slice buf 0 4 :=
      slice_append_right (by decide) hlen
    have hlong : ¬ (buf ++ more).length < 4 := by
      rw [List.length_append]
      omega
    simp only [decoder, decode, hheader]
    rw [if_neg hlong, if_pos hmax]

/-! ## Decoding frames -/

section Frames

variable {data : List UInt8}

theorem header_frame (h : data.length ≤ MAX_FRAME_LEN) (more : List UInt8) :
    fromBeBytes (slice (frame data ++ more) 0 4) = data.length := by
  have hmax : data.length ≤ 65536 := h
  have hslice : slice (frame data ++ more) 0 4 = toBeBytes 4 data.length := by
    rw [frame, List.append_assoc, ← List.nil_append (_ ++ _)]
    exact slice_append rfl (length_toBeBytes 4 _)
  rw [hslice, fromBeBytes_toBeBytes, Nat.mod_eq_of_lt (by omega)]

/-- A frame at the front is taken off. -/
theorem decode_frame (h : data.length ≤ MAX_FRAME_LEN) (more : List UInt8) :
    decode (frame data ++ more) = .ok (some (data, more)) := by
  have hlen : (frame data ++ more).length = 4 + data.length + more.length := by
    rw [List.length_append, length_frame]
  have hdata : slice (frame data ++ more) 4 (4 + data.length) = data := by
    rw [frame, List.append_assoc]
    exact slice_append (length_toBeBytes 4 _) (Nat.add_sub_cancel_left 4 _).symm
  have hrest : (frame data ++ more).drop (4 + data.length) = more :=
    List.drop_left' (length_frame data)
  simp only [decode, header_frame h more]
  rw [if_neg (by omega), if_neg (Nat.not_lt.mpr h), if_neg (by omega), hdata, hrest]

/-- A part of a frame waits for the rest. -/
theorem decode_part (h : data.length ≤ MAX_FRAME_LEN) {buf : List UInt8}
    (hpart : buf <+: frame data) (hshort : buf.length < (frame data).length) :
    decode buf = .ok none := by
  obtain ⟨more, hmore⟩ := hpart
  rw [length_frame] at hshort
  simp only [decode]
  split
  next => rfl
  next hheader =>
    have hslice : slice buf 0 4 = slice (frame data ++ []) 0 4 := by
      rw [List.append_nil, ← hmore]
      exact (slice_append_right (by decide) (Nat.le_of_not_lt hheader)).symm
    rw [hslice, header_frame h, if_neg (Nat.not_lt.mpr h), if_pos hshort]

end Frames

/-- The frames of some payloads, one after the other. -/
def wire (payloads : List (List UInt8)) : List UInt8 := (payloads.map frame).flatten

theorem wire_cons (data : List UInt8) (payloads : List (List UInt8)) :
    wire (data :: payloads) = frame data ++ wire payloads := rfl

/-- A part of the stream that is shorter than the first frame is a part of that frame. -/
theorem part_of_first {data buf : List UInt8} {payloads : List (List UInt8)}
    (h : buf <+: wire (data :: payloads)) (hshort : buf.length < (frame data).length) :
    buf <+: frame data :=
  List.prefix_of_prefix_length_le h (List.prefix_append _ _) (Nat.le_of_lt hshort)

/-- Draining the first part of a stream takes the frames that are wholly in it. -/
theorem drain_wire {payloads : List (List UInt8)}
    (hlen : ∀ data ∈ payloads, data.length ≤ MAX_FRAME_LEN) {buf : List UInt8}
    (hbuf : buf <+: wire payloads) :
    ∃ n ≤ payloads.length, (decoder.drain buf).frames = payloads.take n ∧
      (decoder.drain buf).failed = none ∧ buf = wire (payloads.take n) ++ (decoder.drain buf).rest ∧
      ∀ m ≤ payloads.length, wire (payloads.take m) <+: buf → m ≤ n := by
  induction payloads generalizing buf with
  | nil =>
      have hnil : buf = [] := List.prefix_nil.mp hbuf
      subst hnil
      rw [Decoder.drain_of_none (show decoder.decode [] = .ok none from rfl)]
      exact ⟨0, Nat.le_refl 0, rfl, rfl, rfl, fun m hm _ => hm⟩
  | cons data payloads ih =>
      have hdata := hlen data (.head _)
      by_cases hshort : buf.length < (frame data).length
      · have hwait : decoder.decode buf = .ok none :=
          decode_part hdata (part_of_first hbuf hshort) hshort
        rw [Decoder.drain_of_none hwait]
        refine ⟨0, Nat.zero_le _, rfl, rfl, rfl, ?_⟩
        intro m _ hm
        cases m with
        | zero => exact Nat.le_refl 0
        | succ m =>
            have hle := hm.length_le
            rw [List.take_succ_cons, wire_cons, List.length_append] at hle
            omega
      · obtain ⟨more, rfl⟩ : frame data <+: buf :=
          List.prefix_of_prefix_length_le (List.prefix_append _ _) hbuf (Nat.le_of_not_lt hshort)
        rw [wire_cons] at hbuf
        have hmore : more <+: wire payloads := (List.prefix_append_right_inj _).mp hbuf
        obtain ⟨n, hn, hframes, hfailed, hrest, hmax⟩ :=
          ih (fun d hd => hlen d (.tail _ hd)) hmore
        have hstep : decoder.decode (frame data ++ more) = .ok (some (data, more)) :=
          (decode_decoder _).trans (decode_frame hdata more)
        rw [Decoder.drain_of_some hstep]
        refine ⟨n + 1, Nat.succ_le_succ hn, ?_, ?_, ?_, ?_⟩
        · rw [Drained.prepend_frames, hframes]
          rfl
        · rw [Drained.prepend_failed, hfailed]
        · rw [List.take_succ_cons, wire_cons, List.append_assoc, Drained.prepend_rest, ← hrest]
        · intro m hm hprefix
          cases m with
          | zero => exact Nat.zero_le _
          | succ m =>
              rw [List.take_succ_cons, wire_cons] at hprefix
              exact Nat.succ_le_succ (hmax m (Nat.le_of_succ_le_succ hm)
                ((List.prefix_append_right_inj _).mp hprefix))

end LengthPrefixedCodec

/-! ## The read task -/

/-- What the read task of a tunnel waits for. -/
inductive ReadEvent where
  | read (chunk : List UInt8)
  | readError
  | globalShutdown
  | tunnelShutdown
deriving DecidableEq, Repr

/-- The read task of a tunnel.  `takes` is how many more frames are received before the
reading half is dropped, `none` if it is not. -/
structure TcpReader where
  buf : List UInt8
  delivered : List (List UInt8)
  takes : Option Nat
  running : Bool
deriving DecidableEq, Repr

namespace TcpReader

/-- A new task. -/
def new (takes : Option Nat) : TcpReader := ⟨[], [], takes, true⟩

section Steps

variable (d : Decoder UInt8 (List UInt8) IoError)

/-- The inner loop: decode and send until the decoder waits. -/
def drainLoop (r : TcpReader) : TcpReader :=
  match _h : d.decode r.buf with
  | .error _ => { r with running := false }
  | .ok none => r
  | .ok (some (data, rest)) =>
      if r.takes = some 0 then { r with buf := rest, running := false }
      else drainLoop { r with
        buf := rest, delivered := r.delivered ++ [data], takes := r.takes.map (· - 1) }
termination_by r.buf.length
decreasing_by exact d.shrinks _h

/-- One turn of the outer loop.  An empty read is the end of the stream. -/
def step (r : TcpReader) (event : ReadEvent) : TcpReader :=
  if r.running then
    match event with
    | .read [] => { r with running := false }
    | .read chunk => drainLoop d { r with buf := r.buf ++ chunk }
    | .readError => { r with running := false }
    | .globalShutdown => { r with running := false }
    | .tunnelShutdown => { r with running := false }
  else r

/-- The outer loop. -/
def run (r : TcpReader) (events : List ReadEvent) : TcpReader := events.foldl (step d) r

end Steps

section Tracks

variable {d : Decoder UInt8 (List UInt8) IoError}

/-- The task is where the library's reading of a stream is. -/
structure Tracks (r : TcpReader) (s : Drained UInt8 (List UInt8) IoError) : Prop where
  buf : r.buf = s.rest
  delivered : r.delivered = s.frames
  takes : r.takes = none
  running : r.running = s.failed.isNone

/-- While its frames are received, the inner loop drains the buffer. -/
theorem drainLoop_eq {r : TcpReader} (htakes : r.takes = none) (hrunning : r.running = true) :
    drainLoop d r = ⟨(d.drain r.buf).rest, r.delivered ++ (d.drain r.buf).frames, none,
      (d.drain r.buf).failed.isNone⟩ := by
  induction r using drainLoop.induct d with
  | case1 r e he =>
      rw [drainLoop, Decoder.drain_of_error he]
      split
      next =>
        rw [htakes, List.append_nil]
        rfl
      next hnone => cases he.symm.trans hnone
      next hsome => cases he.symm.trans hsome
  | case2 r hnone =>
      rw [drainLoop, Decoder.drain_of_none hnone]
      split
      next he => cases hnone.symm.trans he
      next =>
        obtain ⟨buf, delivered, takes, running⟩ := r
        cases htakes
        cases hrunning
        rw [List.append_nil]
        rfl
      next hsome => cases hnone.symm.trans hsome
  | case3 r data rest hsome hzero =>
      rw [htakes] at hzero
      cases hzero
  | case4 r data rest hsome hpos ih =>
      rw [drainLoop, Decoder.drain_of_some hsome]
      split
      next he => cases hsome.symm.trans he
      next hnone => cases hsome.symm.trans hnone
      next hsome' =>
        cases hsome.symm.trans hsome'
        have hmap : r.takes.map (· - 1) = none := by
          rw [htakes]
          rfl
        rw [if_neg hpos, ih hmap hrunning, List.append_assoc]
        rfl

/-- Reading a chunk feeds it. -/
theorem tracks_step {r : TcpReader} {s : Drained UInt8 (List UInt8) IoError} (h : Tracks r s)
    {chunk : List UInt8} (hne : chunk ≠ []) : Tracks (r.step d (.read chunk)) (d.feed s chunk) := by
  obtain ⟨byte, chunk, rfl⟩ := List.exists_cons_of_ne_nil hne
  cases hfailed : s.failed with
  | some e =>
      have hstopped : r.running = false := by
        rw [h.running, hfailed]
        rfl
      simp only [step, hstopped, Decoder.feed, hfailed]
      exact h
  | none =>
      have hrunning : r.running = true := by
        rw [h.running, hfailed]
        rfl
      have hstep : r.step d (.read (byte :: chunk)) =
          drainLoop d { r with buf := r.buf ++ byte :: chunk } := by
        simp only [step, hrunning]
        rfl
      have htakes : { r with buf := r.buf ++ byte :: chunk }.takes = none := h.takes
      rw [hstep, drainLoop_eq htakes hrunning, Decoder.feed_of_none hfailed, ← h.buf]
      refine ⟨rfl, ?_, rfl, rfl⟩
      rw [Drained.prepend_frames, ← h.delivered]

/-- Reading chunks feeds them. -/
theorem tracks_run {chunks : List (List UInt8)} (hne : ∀ chunk ∈ chunks, chunk ≠ [])
    {r : TcpReader} {s : Drained UInt8 (List UInt8) IoError} (h : Tracks r s) :
    Tracks (r.run d (chunks.map .read)) (chunks.foldl d.feed s) := by
  induction chunks generalizing r s with
  | nil => exact h
  | cons chunk chunks ih =>
      exact ih (fun c hc => hne c (.tail _ hc)) (tracks_step h (hne chunk (.head _)))

end Tracks

end TcpReader

/-! ## Chunks do not matter -/

namespace LengthPrefixedCodec

/-- The encoder accepts the lengths that the decoder accepts. -/
theorem encode_ok_iff (data : List UInt8) (iov : List (List UInt8)) :
    (∃ iov', encode data iov = .ok iov') ↔
      ∃ buf frame rest, decode buf = .ok (some (frame, rest)) ∧ frame.length = data.length := by
  constructor
  · intro h
    obtain ⟨iov', hiov⟩ := h
    by_cases hmax : data.length ≤ MAX_FRAME_LEN
    · exact ⟨frame data ++ [], data, [], decode_frame hmax [], rfl⟩
    · simp only [encode] at hiov
      rw [if_pos (Nat.lt_of_not_le hmax)] at hiov
      cases hiov
  · intro h
    obtain ⟨buf, frame', rest, hdecode, hlen⟩ := h
    obtain ⟨hbuf, hmax, rfl, -⟩ := decode_eq_some hdecode
    rw [length_slice hbuf, Nat.add_sub_cancel_left] at hlen
    rw [hlen] at hmax
    exact ⟨_, encode_eq_ok hmax iov⟩

theorem mapM_send {payloads : List (List UInt8)}
    (hlen : ∀ data ∈ payloads, data.length ≤ MAX_FRAME_LEN) :
    payloads.mapM send = .ok (payloads.map frame) := by
  induction payloads with
  | nil => rfl
  | cons data payloads ih =>
      rw [List.mapM_cons, send_eq_ok (hlen data (.head _)), ih fun d hd => hlen d (.tail _ hd)]
      rfl

/-- Payloads of at most 64 KiB are sent, and however the stream of their frames is cut into
reads, the read task delivers the payloads that are wholly in what it has read, in their
order, and runs on.  When it has read the whole stream, it has delivered all of them and
its buffer is empty.  The encoder accepts a payload exactly if the decoder accepts a frame
of its length. -/
theorem tcp_framing (payloads : List (List UInt8))
    (hlen : ∀ data ∈ payloads, data.length ≤ 64 * 1024) :
    ∃ frames, payloads.mapM send = .ok frames ∧
      (∀ chunks : List (List UInt8), (∀ chunk ∈ chunks, chunk ≠ []) →
        chunks.flatten <+: frames.flatten →
        let reader := (TcpReader.new none).run decoder (chunks.map .read)
        reader.running = true ∧
        (∃ n ≤ payloads.length, reader.delivered = payloads.take n ∧
          chunks.flatten = (frames.take n).flatten ++ reader.buf ∧
          ∀ m ≤ payloads.length, (frames.take m).flatten <+: chunks.flatten → m ≤ n) ∧
        (chunks.flatten = frames.flatten → reader.delivered = payloads ∧ reader.buf = [])) ∧
      ∀ (data : List UInt8) (iov : List (List UInt8)), (∃ iov', encode data iov = .ok iov') ↔
        ∃ buf frame rest, decode buf = .ok (some (frame, rest)) ∧ frame.length = data.length := by
  refine ⟨payloads.map frame, mapM_send hlen, ?_, ?_⟩
  · intro chunks hne hcut reader
    have htracks : TcpReader.Tracks reader (chunks.foldl decoder.feed Decoder.start) :=
      TcpReader.tracks_run hne ⟨rfl, rfl, rfl, rfl⟩
    obtain ⟨hframes, hfailed, hrest⟩ := Decoder.foldl_feed incremental rfl chunks
    obtain ⟨n, hn, htake, hok, hbuf, hmax⟩ := drain_wire hlen hcut
    have hdelivered : reader.delivered = payloads.take n := by
      rw [htracks.delivered, hframes, htake]
    have hleft : chunks.flatten = wire (payloads.take n) ++ reader.buf := by
      rw [htracks.buf, hrest hok]
      exact hbuf
    refine ⟨?_, ⟨n, hn, hdelivered, ?_, ?_⟩, ?_⟩
    · rw [htracks.running, hfailed, hok]
      rfl
    · rw [← List.map_take]
      exact hleft
    · intro m hm hprefix
      rw [← List.map_take] at hprefix
      exact hmax m hm hprefix
    · intro hall
      have hall' : wire (payloads.take payloads.length) <+: chunks.flatten := by
        rw [List.take_length, hall]
        exact List.prefix_refl _
      have hfull : n = payloads.length := Nat.le_antisymm hn (hmax _ (Nat.le_refl _) hall')
      subst hfull
      rw [List.take_length] at hdelivered hleft
      refine ⟨hdelivered, ?_⟩
      exact List.append_cancel_left ((List.append_nil _).trans (hall.symm.trans hleft)).symm
  · exact encode_ok_iff

/-- Three payloads, one of them empty, cut inside headers and between frames. -/
theorem tcp_framing_cut :
    let reader := (TcpReader.new none).run decoder
      [.read [0, 0], .read [0, 1, 7, 0, 0], .read [0, 0, 0, 0, 0, 2, 1], .read [2]]
    reader.delivered = [[7], [], [1, 2]] ∧ reader.buf = [] := by
  obtain ⟨frames, hframes, hcut, -⟩ := tcp_framing [[7], [], [1, 2]] (by decide)
  have hwire : frames = [[0, 0, 0, 1, 7], [0, 0, 0, 0], [0, 0, 0, 2, 1, 2]] :=
    (Except.ok.inj hframes).symm
  subst hwire
  have hread := hcut [[0, 0], [0, 1, 7, 0, 0], [0, 0, 0, 0, 0, 2, 1], [2]] (by decide)
    (List.prefix_refl _)
  exact hread.2.2 rfl

end LengthPrefixedCodec

end RustP2p
