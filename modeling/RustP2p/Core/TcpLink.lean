import RustP2p.Core.TcpWriter
import RustP2p.Core.UdpDispatcher

/-!
# A TCP tunnel from end to end

One direction of a connection: the write half and the write task of the tunnel at one
end, the bytes on their way, and the read task of the tunnel at the other end.

The write task makes one `write_vectored` call in a step (`writeTurn`), so that the
reader may read in the middle of a frame.  The read task delivers what it can decode in
one step; `TcpFlow` takes that step apart.  The socket answers as it likes: it accepts a
part, is interrupted, or fails.  Either task may be shut down, the write half may be
dropped, and the connection may fail at any time.

`Carried` is the invariant: what the reader has read, what is on its way and what the
writer has still to write are the frames of the payloads it took, one after the other.
So whatever happens, the reader delivers what was sent, each payload once and in order
(`tcp_link_delivers`).
-/

namespace RustP2p

open BigEndian Framing Transition

/-! ## The codecs -/

/-- `BytesCodec::decode`. -/
def BytesCodec.decode (buf : List UInt8) : IoResult (Option (List UInt8 × List UInt8)) :=
  if buf = [] then .ok none else .ok (some (buf, []))

/-- The codec as a decoder of the library. -/
def BytesCodec.decoder : Decoder UInt8 (List UInt8) IoError where
  decode := decode
  shrinks := by
    intro buf data rest h
    simp only [decode] at h
    split at h
    next => cases h
    next hne =>
      cases h
      exact List.length_pos_of_ne_nil hne

namespace TcpCodec

/-- The decoder of the codec. -/
def decoder : TcpCodec → Decoder UInt8 (List UInt8) IoError
  | bytes => BytesCodec.decoder
  | lengthPrefixed => LengthPrefixedCodec.decoder

/-- The bytes of a payload on the wire. -/
def frame (codec : TcpCodec) (data : List UInt8) : List UInt8 :=
  match codec.encode data [] with
  | .ok slices => slices.flatten
  | .error _ => []

/-- The frames of some payloads. -/
def wire (codec : TcpCodec) (payloads : List (List UInt8)) : List UInt8 :=
  (payloads.map codec.frame).flatten

variable {codec : TcpCodec} {data : List UInt8} {slices payloads : List (List UInt8)}

theorem frame_of_encode (h : codec.encode data [] = .ok slices) :
    codec.frame data = slices.flatten := by
  simp only [frame, h]

theorem wire_singleton (data : List UInt8) : codec.wire [data] = codec.frame data := by
  simp [wire]

theorem wire_append (ps qs : List (List UInt8)) :
    codec.wire (ps ++ qs) = codec.wire ps ++ codec.wire qs := by
  simp [wire]

theorem wire_bytes (payloads : List (List UInt8)) :
    bytes.wire payloads = payloads.flatten := by
  simp only [wire]
  congr 1
  exact (List.map_congr_left fun data _ => by simp [frame, encode_bytes]).trans (List.map_id _)

theorem length_le_of_encode (h : lengthPrefixed.encode data [] = .ok slices) :
    data.length ≤ MAX_FRAME_LEN := by
  by_contra hmax
  simp only [encode, LengthPrefixedCodec.encode, if_pos (Nat.lt_of_not_le hmax)] at h
  cases h

theorem frame_lengthPrefixed (h : data.length ≤ MAX_FRAME_LEN) :
    lengthPrefixed.frame data = LengthPrefixedCodec.frame data := by
  have hencode : lengthPrefixed.encode data [] = .ok ([] ++ [toBeBytes 4 data.length, data]) :=
    LengthPrefixedCodec.encode_eq_ok h []
  rw [frame_of_encode hencode]
  simp [LengthPrefixedCodec.frame]

theorem wire_lengthPrefixed (h : ∀ data ∈ payloads, data.length ≤ MAX_FRAME_LEN) :
    lengthPrefixed.wire payloads = LengthPrefixedCodec.wire payloads := by
  simp only [wire, LengthPrefixedCodec.wire]
  congr 1
  exact List.map_congr_left fun data hdata => frame_lengthPrefixed (h data hdata)

end TcpCodec

/-! ## One write -/

/-- How `write_all_vectored` goes on after a write. -/
inductive WriteTurn where
  /-- With these slices. -/
  | left (slices : List (List UInt8))
  | ended (ending : WriteEnd)

/-- One turn of the loop of `write_all_vectored`: the bytes the socket accepted by its
answer, and how the loop goes on. -/
def writeTurn (slices : List (List UInt8)) : IoResult Nat → List UInt8 × WriteTurn
  | .ok 0 => ([], .ended (.returned (.error ⟨.writeZero, "failed to write whole frame"⟩)))
  | .ok n =>
      match advanceSlices slices n with
      | some rest => (slices.flatten.take n, .left rest)
      | none => (slices.flatten.take n, .ended .panicked)
  | .error e =>
      if e.kind = .interrupted then ([], .left slices)
      else ([], .ended (.returned (.error e)))

section WriteTurn

variable {slices rest : List (List UInt8)} {answer : IoResult Nat} {accepted : List UInt8}

/-- What is left after some bytes are taken. -/
theorem flatten_of_advanceSlices {n : Nat} (h : advanceSlices slices n = some rest) :
    n ≤ slices.flatten.length ∧ rest.flatten = slices.flatten.drop n := by
  have hle : n ≤ slices.flatten.length := by
    induction slices generalizing n with
    | nil =>
        rw [advanceSlices] at h
        split at h
        next hzero => exact Nat.le_of_eq hzero
        next => cases h
    | cons buf bufs ih =>
        rw [advanceSlices] at h
        rw [List.flatten_cons, List.length_append]
        split at h
        next =>
          have hrest := ih h
          omega
        next => omega
  obtain ⟨rest', hrest, hflatten, -⟩ := advanceSlices_spec hle
  cases h.symm.trans hrest
  exact ⟨hle, hflatten⟩

/-- What was accepted and what is left are the slices. -/
theorem writeTurn_left (h : writeTurn slices answer = (accepted, .left rest)) :
    accepted ++ rest.flatten = slices.flatten ∧
      (slices.flatten ≠ [] → rest = [] ∨ rest.flatten ≠ []) := by
  simp only [writeTurn] at h
  split at h
  next => cases h
  next n hn =>
    split at h
    next rest' hadvance =>
      cases h
      obtain ⟨hle, hflatten⟩ := flatten_of_advanceSlices hadvance
      obtain ⟨rest', hrest, -, hbyte⟩ := advanceSlices_spec hle
      cases hadvance.symm.trans hrest
      refine ⟨?_, fun _ => hbyte⟩
      rw [hflatten, List.take_append_drop]
    next => cases h
  next =>
    split at h
    next =>
      cases h
      exact ⟨rfl, Or.inr⟩
    next => cases h

theorem writeTurn_accepted (slices : List (List UInt8)) (answer : IoResult Nat) :
    (writeTurn slices answer).1 <+: slices.flatten := by
  simp only [writeTurn]
  split
  next => exact List.nil_prefix
  next => split <;> exact List.take_prefix _ _
  next => split <;> exact List.nil_prefix

variable {write : Nat → List (List UInt8) → IoResult Nat} {fuel : Nat} {w : VectoredWrite}

/-- `write_all_vectored` makes such turns, -/
theorem writeAllVectored_left (hne : w.slices ≠ [])
    (hturn : writeTurn w.slices (write w.calls w.slices) = (accepted, .left rest)) :
    writeAllVectored write (fuel + 1) w =
      writeAllVectored write fuel ⟨w.calls + 1, rest, w.accepted ++ accepted⟩ := by
  rw [writeAllVectored, if_neg hne]
  cases hanswer : write w.calls w.slices with
  | error e =>
      simp only [writeTurn, hanswer] at hturn ⊢
      split at hturn
      next hkind =>
        cases hturn
        rw [if_pos hkind, List.append_nil]
      next => cases hturn
  | ok n =>
      rw [hanswer] at hturn
      cases n with
      | zero => cases hturn
      | succ n =>
          simp only [writeTurn] at hturn
          cases hadvance : advanceSlices w.slices (n + 1) with
          | none =>
              rw [hadvance] at hturn
              cases hturn
          | some rest' =>
              rw [hadvance] at hturn
              cases hturn
              simp only [hadvance]

/-- until one of them ends it. -/
theorem writeAllVectored_ended {ending : WriteEnd} (hne : w.slices ≠ [])
    (hturn : writeTurn w.slices (write w.calls w.slices) = (accepted, .ended ending)) :
    writeAllVectored write (fuel + 1) w =
      some (ending, ⟨w.calls + 1, w.slices, w.accepted ++ accepted⟩) := by
  rw [writeAllVectored, if_neg hne]
  cases hanswer : write w.calls w.slices with
  | error e =>
      simp only [writeTurn, hanswer] at hturn ⊢
      split at hturn
      next => cases hturn
      next hkind =>
        cases hturn
        rw [if_neg hkind, List.append_nil]
  | ok n =>
      rw [hanswer] at hturn
      cases n with
      | zero =>
          cases hturn
          simp only [List.append_nil]
      | succ n =>
          simp only [writeTurn] at hturn
          cases hadvance : advanceSlices w.slices (n + 1) with
          | none =>
              rw [hadvance] at hturn
              cases hturn
              simp only [hadvance]
          | some rest' =>
              rw [hadvance] at hturn
              cases hturn

end WriteTurn

/-! ## The link -/

/-- The capacity of the channel of the write task. -/
def TCP_WRITE_CAPACITY : Nat := 64

/-- Where the write task is. -/
inductive WriterPhase where
  /-- In `write_rx.recv`. -/
  | receiving
  /-- In `write_vectored`, with these slices. -/
  | writing (slices : List (List UInt8))
  | stopped
deriving DecidableEq, Repr

namespace WriterPhase

/-- The loop of `write_all_vectored` runs while there are slices. -/
def ofSlices : List (List UInt8) → WriterPhase
  | [] => receiving
  | slices => writing slices

/-- The slices still to be written. -/
def left : WriterPhase → List (List UInt8)
  | writing slices => slices
  | _ => []

@[simp] theorem left_ofSlices (slices : List (List UInt8)) : (ofSlices slices).left = slices := by
  cases slices <;> rfl

end WriterPhase

/-- One direction of a connection. -/
structure TcpLink where
  /-- The channel of the write task. -/
  queue : List (List UInt8)
  /-- A write half is left. -/
  handles : Bool
  writer : WriterPhase
  /-- The bytes the writer's socket has accepted and the reader has not read. -/
  transit : List UInt8
  reader : TcpReader
deriving DecidableEq, Repr

/-- What can happen on a link. -/
inductive TcpLinkEvent where
  /-- `TunnelWriteHalf::try_send`, or a `send` that need not wait. -/
  | send (data : List UInt8)
  /-- The last write half is dropped. -/
  | dropHandles
  /-- The write task receives. -/
  | receive
  /-- The socket answers `write_vectored`. -/
  | write (answer : IoResult Nat)
  /-- The write task is shut down. -/
  | writeShutdown
  | read (event : ReadEvent)
deriving DecidableEq, Repr

/-- `map_send_error`. -/
def mapSendError (closed : String) : TrySendError → IoError
  | .full => ⟨.wouldBlock, "operation would block"⟩
  | .closed => ⟨.other, closed⟩

namespace TcpLink

/-- A new connection.  The reading half is dropped after `takes` more payloads, if at all. -/
def new (takes : Option Nat) : TcpLink := ⟨[], true, .receiving, [], .new takes⟩

/-- What `try_send` says.  The channel is closed when the write task has ended. -/
def trySend (s : TcpLink) : IoResult Unit :=
  if s.writer = .stopped then .error (mapSendError "TCP connection closed" .closed)
  else if s.queue.length < TCP_WRITE_CAPACITY then .ok ()
  else .error (mapSendError "TCP connection closed" .full)

/-- The write task receives a payload, or the end of its channel. -/
def receive (codec : TcpCodec) (s : TcpLink) : Option TcpLink :=
  match s.writer, s.queue with
  | .receiving, data :: rest =>
      match codec.encode data [] with
      | .ok slices => some { s with queue := rest, writer := .ofSlices slices }
      | .error _ => some { s with queue := rest, writer := .stopped }
  | .receiving, [] => if s.handles then none else some { s with writer := .stopped }
  | _, _ => none

/-- The bytes a read takes off the wire, `none` when the read cannot happen.  An empty read
is the end of the stream. -/
def readable (s : TcpLink) : ReadEvent → Option (List UInt8)
  | .read [] => if s.transit = [] ∧ s.writer = .stopped then some [] else none
  | .read chunk => if chunk <+: s.transit then some chunk else none
  | _ => some []

/-- The link after an event, if the event can happen. -/
def step (codec : TcpCodec) (s : TcpLink) : TcpLinkEvent → Option TcpLink
  | .send data =>
      if s.handles then
        match s.trySend with
        | .ok () => some { s with queue := s.queue ++ [data] }
        | .error _ => some s
      else none
  | .dropHandles => if s.handles then some { s with handles := false } else none
  | .receive => s.receive codec
  | .write answer =>
      match s.writer with
      | .writing slices =>
          let (accepted, turn) := writeTurn slices answer
          let writer := match turn with
            | .left rest => .ofSlices rest
            | .ended _ => .stopped
          some { s with writer := writer, transit := s.transit ++ accepted }
      | _ => none
  | .writeShutdown =>
      match s.writer with
      | .receiving => some { s with writer := .stopped }
      | _ => none
  | .read event =>
      if s.reader.running then
        (s.readable event).map fun chunk =>
          { s with
            transit := s.transit.drop chunk.length
            reader := s.reader.step codec.decoder event }
      else none

/-- The payload that enters the channel of the write task. -/
def accepted (s : TcpLink) : TcpLinkEvent → Option (List UInt8)
  | .send data => if s.trySend = .ok () then some data else none
  | _ => none

/-- The payloads that were sent during a run, in order. -/
def sent (codec : TcpCodec) (s : TcpLink) (es : List TcpLinkEvent) : List (List UInt8) :=
  outputs (step codec) accepted s es

/-- Nothing is left to do. -/
def Quiet (s : TcpLink) : Prop := s.queue = [] ∧ s.writer = .receiving ∧ s.transit = []

end TcpLink

/-! ## What the reader makes of the stream -/

section Reads

variable {d : Decoder UInt8 (List UInt8) IoError} {codec : TcpCodec} {r : TcpReader}
  {read chunk : List UInt8}

/-- The inner loop delivers frames of its buffer.  If it comes to wait, it has delivered all of
them. -/
theorem TcpReader.drainLoop_spec (hrunning : r.running = true) :
    (r.drainLoop d).delivered <+: r.delivered ++ (d.drain r.buf).frames ∧
      ((r.drainLoop d).running = true →
        (r.drainLoop d).delivered = r.delivered ++ (d.drain r.buf).frames ∧
        (r.drainLoop d).buf = (d.drain r.buf).rest ∧ (d.drain r.buf).failed = none) := by
  induction r using TcpReader.drainLoop.induct d with
  | case1 r e he =>
      rw [TcpReader.drainLoop, Decoder.drain_of_error he]
      split
      next => simp
      next hnone => cases he.symm.trans hnone
      next hsome => cases he.symm.trans hsome
  | case2 r hnone =>
      rw [TcpReader.drainLoop, Decoder.drain_of_none hnone]
      split
      next he => cases hnone.symm.trans he
      next => simp
      next hsome => cases hnone.symm.trans hsome
  | case3 r data rest hsome hzero =>
      rw [TcpReader.drainLoop]
      split
      next he => cases hsome.symm.trans he
      next hnone => cases hsome.symm.trans hnone
      next hsome' =>
        rw [if_pos hzero]
        exact ⟨List.prefix_append _ _, by simp⟩
  | case4 r data rest hsome hpos ih =>
      rw [TcpReader.drainLoop, Decoder.drain_of_some hsome]
      split
      next he => cases hsome.symm.trans he
      next hnone => cases hsome.symm.trans hnone
      next hsome' =>
        cases hsome.symm.trans hsome'
        rw [if_neg hpos, Drained.prepend_frames, Drained.prepend_rest, Drained.prepend_failed,
          ← List.append_assoc]
        exact ih hrunning

/-- Without framing the buffer is the frame. -/
theorem BytesCodec.drain_eq (buf : List UInt8) :
    (decoder.drain buf).frames.flatten = buf ∧ (decoder.drain buf).rest = [] ∧
      (decoder.drain buf).failed = none := by
  have hnil : decoder.drain [] = ⟨[], [], none⟩ :=
    Decoder.drain_of_none (show decoder.decode [] = .ok none from rfl)
  by_cases hne : buf = []
  · subst hne
    rw [hnil]
    exact ⟨rfl, rfl, rfl⟩
  · have hsome : decoder.decode buf = .ok (some (buf, [])) := by
      simp only [decoder, decode, if_neg hne]
    rw [Decoder.drain_of_some hsome, hnil]
    exact ⟨by simp, rfl, rfl⟩

/-- What the reader has made of the bytes it has read.  While it runs, it has delivered what
there is. -/
def Reads (codec : TcpCodec) (r : TcpReader) (read : List UInt8) : Prop :=
  match codec with
  | .bytes => r.delivered.flatten <+: read ∧
      (r.running = true → r.delivered.flatten = read ∧ r.buf = [])
  | .lengthPrefixed =>
      r.delivered <+: (LengthPrefixedCodec.decoder.drain read).frames ∧
        (r.running = true →
          r.delivered = (LengthPrefixedCodec.decoder.drain read).frames ∧
          r.buf = (LengthPrefixedCodec.decoder.drain read).rest ∧
          (LengthPrefixedCodec.decoder.drain read).failed = none)

theorem reads_new (codec : TcpCodec) (takes : Option Nat) : Reads codec (.new takes) [] := by
  cases codec with
  | bytes => exact ⟨List.nil_prefix, fun _ => ⟨rfl, rfl⟩⟩
  | lengthPrefixed =>
      have hnil : LengthPrefixedCodec.decoder.drain [] = ⟨[], [], none⟩ :=
        Decoder.drain_of_none rfl
      rw [Reads, hnil]
      exact ⟨List.nil_prefix, fun _ => ⟨rfl, rfl, rfl⟩⟩

/-- The reader has stopped. -/
theorem Reads.stop (h : Reads codec r read) : Reads codec { r with running := false } read := by
  cases codec with
  | bytes => exact ⟨h.1, fun hrunning => absurd hrunning Bool.false_ne_true⟩
  | lengthPrefixed => exact ⟨h.1, fun hrunning => absurd hrunning Bool.false_ne_true⟩

/-- The reader reads a chunk. -/
theorem Reads.drain (h : Reads codec r read) (hrunning : r.running = true) :
    Reads codec (({ r with buf := r.buf ++ chunk } : TcpReader).drainLoop codec.decoder)
      (read ++ chunk) := by
  cases codec with
  | bytes =>
      obtain ⟨hflatten, hbuf⟩ := h.2 hrunning
      obtain ⟨hframes, hrest, -⟩ := BytesCodec.drain_eq (r.buf ++ chunk)
      obtain ⟨hdelivered, hall⟩ := TcpReader.drainLoop_spec (d := BytesCodec.decoder)
        (r := { r with buf := r.buf ++ chunk }) hrunning
      have hread : (r.delivered ++ (BytesCodec.decoder.drain (r.buf ++ chunk)).frames).flatten =
          read ++ chunk := by
        rw [List.flatten_append, hflatten, hframes, hbuf, List.nil_append]
      refine ⟨?_, ?_⟩
      · rw [← hread]
        exact hdelivered.flatten
      · intro hafter
        obtain ⟨heq, hleft, -⟩ := hall hafter
        exact ⟨by rw [← hread, ← heq]; rfl, hleft.trans hrest⟩
  | lengthPrefixed =>
      obtain ⟨hframes, hbuf, hok⟩ := h.2 hrunning
      have hdrain := Decoder.drain_append LengthPrefixedCodec.incremental hok chunk
      rw [← hbuf] at hdrain
      obtain ⟨hdelivered, hall⟩ := TcpReader.drainLoop_spec (d := LengthPrefixedCodec.decoder)
        (r := { r with buf := r.buf ++ chunk }) hrunning
      rw [Reads, hdrain, Drained.prepend_frames, ← hframes]
      exact ⟨hdelivered, hall⟩

/-- Any event of the read task. -/
theorem Reads.step (h : Reads codec r read) (hrunning : r.running = true) {event : ReadEvent}
    (hevent : event = .read chunk ∨ chunk = [] ∧ ∀ c, event ≠ .read c) :
    Reads codec (r.step codec.decoder event) (read ++ chunk) := by
  have hstopped : Reads codec { r with running := false } (read ++ []) := by
    rw [List.append_nil]
    exact h.stop
  simp only [TcpReader.step, if_pos hrunning]
  rcases hevent with rfl | ⟨rfl, hother⟩
  · cases chunk with
    | nil => exact hstopped
    | cons byte chunk => exact h.drain hrunning
  · cases event with
    | read c => exact absurd rfl (hother c)
    | readError => exact hstopped
    | globalShutdown => exact hstopped
    | tunnelShutdown => exact hstopped

end Reads

namespace TcpLink

/-! ## The invariant -/

section Carried

variable {codec : TcpCodec} {s t : TcpLink} {sent taken : List (List UInt8)} {read : List UInt8}

/-- What was sent is on its way: the writer has taken `taken` of it, and the reader has read
`read`. -/
structure Carried (codec : TcpCodec) (sent taken : List (List UInt8)) (read : List UInt8)
    (s : TcpLink) : Prop where
  encoded : ∀ data ∈ taken, ∃ slices, codec.encode data [] = .ok slices
  prefix_sent : taken <+: sent
  queued : s.writer ≠ .stopped → taken ++ s.queue = sent
  cut : read ++ s.transit <+: codec.wire taken
  whole : s.writer ≠ .stopped → read ++ s.transit ++ s.writer.left.flatten = codec.wire taken
  reads : Reads codec s.reader read

theorem carried_new (takes : Option Nat) : Carried codec [] [] [] (new takes) where
  encoded _ h := absurd h List.not_mem_nil
  prefix_sent := List.nil_prefix
  queued _ := rfl
  cut := List.nil_prefix
  whole _ := rfl
  reads := reads_new codec takes

/-- The writer stops. -/
theorem Carried.stop (h : Carried codec sent taken read s) (queue : List (List UInt8)) :
    Carried codec sent taken read { s with queue := queue, writer := .stopped } where
  encoded := h.encoded
  prefix_sent := h.prefix_sent
  queued hne := absurd rfl hne
  cut := h.cut
  whole hne := absurd rfl hne
  reads := h.reads

/-- Sending puts a payload into the channel, or changes nothing. -/
theorem Carried.send (h : Carried codec sent taken read s) (data : List UInt8)
    (hstep : step codec s (.send data) = some t) :
    Carried codec (sent ++ (accepted s (.send data)).toList) taken read t := by
  simp only [step] at hstep
  split at hstep
  next =>
    split at hstep <;> cases hstep
    next hok =>
      rw [accepted, if_pos hok]
      refine ⟨h.encoded, h.prefix_sent.trans (List.prefix_append _ _), ?_, h.cut, h.whole, h.reads⟩
      intro hne
      rw [← h.queued hne, ← List.append_assoc]
      rfl
    next e herror =>
      have hrefused : ¬ s.trySend = .ok () := by
        rw [herror]
        exact fun h => by cases h
      rw [accepted, if_neg hrefused, Option.toList_none, List.append_nil]
      exact h
  next => cases hstep

/-- The writer takes the next payload and begins its frame. -/
theorem Carried.receive (h : Carried codec sent taken read s) (hstep : s.receive codec = some t) :
    ∃ taken', Carried codec sent taken' read t := by
  simp only [TcpLink.receive] at hstep
  split at hstep
  next data rest hwriter hqueue =>
    have hrunning : s.writer ≠ .stopped := by
      rw [hwriter]
      exact fun h => by cases h
    have hqueued := h.queued hrunning
    have hwhole := h.whole hrunning
    rw [hwriter] at hwhole
    rw [hqueue] at hqueued
    split at hstep <;> cases hstep
    next slices hencode =>
      have htaken : taken ++ [data] ++ rest = sent := by
        rw [List.append_assoc]
        exact hqueued
      have hwire : codec.wire (taken ++ [data]) = read ++ s.transit ++ slices.flatten := by
        rw [TcpCodec.wire_append, TcpCodec.wire_singleton, TcpCodec.frame_of_encode hencode,
          ← hwhole]
        simp [WriterPhase.left]
      refine ⟨taken ++ [data], ?_, ⟨rest, htaken⟩, fun _ => htaken, ?_, ?_, h.reads⟩
      · intro d hd
        rcases List.mem_append.mp hd with hold | hnew
        · exact h.encoded d hold
        · rw [List.mem_singleton.mp hnew]
          exact ⟨slices, hencode⟩
      · rw [hwire]
        exact List.prefix_append _ _
      · intro _
        rw [WriterPhase.left_ofSlices, hwire]
    next => exact ⟨taken, h.stop rest⟩
  next hwriter hqueue =>
    split at hstep <;> cases hstep
    exact ⟨taken, h.stop s.queue⟩
  next => cases hstep

/-- The writer writes. -/
theorem Carried.write (h : Carried codec sent taken read s) {answer : IoResult Nat}
    (hstep : step codec s (.write answer) = some t) : Carried codec sent taken read t := by
  simp only [step] at hstep
  split at hstep
  next slices hwriter =>
    cases hstep
    have hwhole := h.whole (by rw [hwriter]; exact fun h => by cases h)
    have hqueued := h.queued (by rw [hwriter]; exact fun h => by cases h)
    rw [hwriter] at hwhole
    have haccepted := writeTurn_accepted slices answer
    have hcut : read ++ (s.transit ++ (writeTurn slices answer).1) <+: codec.wire taken := by
      rw [← hwhole, ← List.append_assoc]
      exact (List.prefix_append_right_inj _).mpr haccepted
    cases hturn : writeTurn slices answer with
    | mk accepted turn =>
        rw [hturn] at hcut
        cases turn with
        | left rest =>
            refine ⟨h.encoded, h.prefix_sent, fun _ => hqueued, hcut, ?_, h.reads⟩
            intro _
            rw [WriterPhase.left_ofSlices, ← hwhole, ← List.append_assoc,
              List.append_assoc _ accepted, (writeTurn_left hturn).1]
            rfl
        | ended ending =>
            exact ⟨h.encoded, h.prefix_sent, fun hne => absurd rfl hne, hcut,
              fun hne => absurd rfl hne, h.reads⟩
  next => cases hstep

theorem readable_eq_some {event : ReadEvent} {chunk : List UInt8}
    (h : s.readable event = some chunk) :
    chunk <+: s.transit ∧ (event = .read chunk ∨ chunk = [] ∧ ∀ c, event ≠ .read c) := by
  simp only [readable] at h
  split at h
  next =>
    split at h <;> cases h
    exact ⟨List.nil_prefix, Or.inl rfl⟩
  next chunk' _ =>
    split at h <;> cases h
    next hfront => exact ⟨hfront, Or.inl rfl⟩
  next hother =>
    cases h
    exact ⟨List.nil_prefix, Or.inr ⟨rfl, fun c hc => hother c hc⟩⟩

/-- The reader reads. -/
theorem Carried.reading (h : Carried codec sent taken read s) {event : ReadEvent}
    (hstep : step codec s (.read event) = some t) :
    ∃ read', Carried codec sent taken read' t := by
  simp only [step] at hstep
  split at hstep
  next hrunning =>
    obtain ⟨chunk, hreadable, rfl⟩ := Option.map_eq_some_iff.mp hstep
    obtain ⟨⟨rest, hrest⟩, hevent⟩ := readable_eq_some hreadable
    have hleft : s.transit.drop chunk.length = rest := by
      rw [← hrest]
      exact List.drop_left
    have hstream : read ++ chunk ++ rest = read ++ s.transit := by
      rw [List.append_assoc, hrest]
    refine ⟨read ++ chunk, h.encoded, h.prefix_sent, h.queued, ?_, ?_, h.reads.step hrunning hevent⟩
    · rw [hleft, hstream]
      exact h.cut
    · rw [hleft, hstream]
      exact h.whole
  next => cases hstep

/-- Every step carries on. -/
theorem Carried.step (h : Carried codec sent taken read s) {e : TcpLinkEvent}
    (hstep : step codec s e = some t) :
    ∃ taken' read', Carried codec (sent ++ (accepted s e).toList) taken' read' t := by
  cases e with
  | send data => exact ⟨taken, read, h.send data hstep⟩
  | dropHandles =>
      simp only [TcpLink.step] at hstep
      split at hstep <;> cases hstep
      simp only [accepted, Option.toList_none, List.append_nil]
      exact ⟨taken, read, h.encoded, h.prefix_sent, h.queued, h.cut, h.whole, h.reads⟩
  | receive =>
      obtain ⟨taken', htaken⟩ := h.receive hstep
      simp only [accepted, Option.toList_none, List.append_nil]
      exact ⟨taken', read, htaken⟩
  | write answer =>
      simp only [accepted, Option.toList_none, List.append_nil]
      exact ⟨taken, read, h.write hstep⟩
  | writeShutdown =>
      simp only [TcpLink.step] at hstep
      split at hstep <;> cases hstep
      simp only [accepted, Option.toList_none, List.append_nil]
      exact ⟨taken, read, h.stop s.queue⟩
  | read event =>
      obtain ⟨read', hread⟩ := h.reading hstep
      simp only [accepted, Option.toList_none, List.append_nil]
      exact ⟨taken, read', hread⟩

theorem carried_run {takes : Option Nat} {es : List TcpLinkEvent}
    (hrun : run (TcpLink.step codec) (new takes) es = some s) :
    ∃ taken read, Carried codec (TcpLink.sent codec (new takes) es) taken read s := by
  refine run_history (P := fun es s =>
    ∃ taken read, Carried codec (TcpLink.sent codec (new takes) es) taken read s) ?_ ?_ hrun
  · exact ⟨[], [], carried_new takes⟩
  · rintro es m e u hm ⟨taken, read, h⟩ hstep
    rw [TcpLink.sent, outputs_concat hm]
    exact h.step hstep

/-- Frames of the payloads that the writer took are in the stream, and the reader can read
them. -/
theorem Carried.drain (h : Carried .lengthPrefixed sent taken read s) {buf : List UInt8}
    (hbuf : buf <+: read ++ s.transit) :
    (LengthPrefixedCodec.decoder.drain buf).failed = none ∧
      (LengthPrefixedCodec.decoder.drain buf).frames <+: taken ∧
      (buf = TcpCodec.lengthPrefixed.wire taken →
        (LengthPrefixedCodec.decoder.drain buf).frames = taken) := by
  have hlen : ∀ data ∈ taken, data.length ≤ MAX_FRAME_LEN := by
    intro data hdata
    obtain ⟨slices, hencode⟩ := h.encoded data hdata
    exact TcpCodec.length_le_of_encode hencode
  have hwire := TcpCodec.wire_lengthPrefixed hlen
  have hcut := h.cut
  rw [hwire] at hcut ⊢
  obtain ⟨n, hn, hframes, hfailed, -, hmax⟩ :=
    LengthPrefixedCodec.drain_wire hlen (hbuf.trans hcut)
  rw [hframes]
  refine ⟨hfailed, List.take_prefix _ _, ?_⟩
  intro hall
  have hfull : taken.length ≤ n := by
    refine hmax taken.length (Nat.le_refl _) ?_
    rw [List.take_length, hall]
  exact List.take_of_length_le hfull

/-- The reader has delivered what was sent, as far as it got. -/
theorem Carried.delivered (h : Carried codec sent taken read s) :
    s.reader.delivered.flatten <+: sent.flatten ∧
      (codec = .lengthPrefixed → s.reader.delivered <+: sent) := by
  have hread : read <+: read ++ s.transit := List.prefix_append _ _
  cases codec with
  | bytes =>
      refine ⟨?_, fun hcodec => by cases hcodec⟩
      have hcut := hread.trans h.cut
      rw [TcpCodec.wire_bytes] at hcut
      exact (h.reads.1.trans hcut).trans h.prefix_sent.flatten
  | lengthPrefixed =>
      have hfront := (h.reads.1.trans (h.drain hread).2.1).trans h.prefix_sent
      exact ⟨hfront.flatten, fun _ => hfront⟩

/-- When nothing is left to do, it has delivered everything. -/
theorem Carried.delivered_of_quiet (h : Carried codec sent taken read s) (hquiet : s.Quiet)
    (hrunning : s.reader.running = true) :
    s.reader.delivered.flatten = sent.flatten ∧
      (codec = .lengthPrefixed → s.reader.delivered = sent) := by
  obtain ⟨hqueue, hwriter, htransit⟩ := hquiet
  have hne : s.writer ≠ .stopped := by
    rw [hwriter]
    exact fun h => by cases h
  have htaken : taken = sent := by
    rw [← h.queued hne, hqueue, List.append_nil]
  have hread : read = codec.wire taken := by
    rw [← h.whole hne, hwriter, htransit]
    simp [WriterPhase.left]
  cases codec with
  | bytes =>
      refine ⟨?_, fun hcodec => by cases hcodec⟩
      rw [(h.reads.2 hrunning).1, hread, TcpCodec.wire_bytes, htaken]
  | lengthPrefixed =>
      have hdelivered : s.reader.delivered = sent := by
        rw [(h.reads.2 hrunning).1, (h.drain (List.prefix_append _ _)).2.2 hread, htaken]
      exact ⟨congrArg _ hdelivered, fun _ => hdelivered⟩

end Carried

variable {codec : TcpCodec} {s t : TcpLink} {es : List TcpLinkEvent}

/-- Whatever happens on a connection, the bytes of the payloads that come out are the first
bytes of the payloads that were sent.  With length-prefixed frames the payloads themselves are
the first ones sent, each once and in order.  When nothing is left to do, they are all of
them. -/
theorem tcp_link_delivers (codec : TcpCodec) {takes : Option Nat}
    (hrun : run (step codec) (new takes) es = some s) :
    s.reader.delivered.flatten <+: (sent codec (new takes) es).flatten ∧
      (codec = .lengthPrefixed → s.reader.delivered <+: sent codec (new takes) es) ∧
      (s.Quiet → s.reader.running = true →
        s.reader.delivered.flatten = (sent codec (new takes) es).flatten ∧
        (codec = .lengthPrefixed → s.reader.delivered = sent codec (new takes) es)) := by
  obtain ⟨taken, read, h⟩ := carried_run hrun
  exact ⟨h.delivered.1, h.delivered.2, h.delivered_of_quiet⟩

/-- Two payloads, written in three parts and read in two, the second of them in the middle of
a frame. -/
def interruptedLink : List TcpLinkEvent :=
  [.send [7], .send [8, 9], .receive, .write (.ok 3), .write (.error ⟨.interrupted, ""⟩),
    .write (.ok 2), .receive, .write (.ok 5), .read (.read [0, 0, 0, 1, 7, 0, 0]),
    .write (.ok 1), .read (.read [0, 2, 8])]

/-- The first is delivered, and the second has to wait for its last byte. -/
theorem tcp_link_delivers_interrupted :
    ∃ s, run (step .lengthPrefixed) (new none) interruptedLink = some s ∧
      s.reader.delivered = [[7]] ∧
      s.reader.delivered <+: sent .lengthPrefixed (new none) interruptedLink := by
  obtain ⟨s, hs, hdelivered⟩ :
      ∃ s, run (step .lengthPrefixed) (new none) interruptedLink = some s ∧
        s.reader.delivered = [[7]] := by
    decide +kernel
  exact ⟨s, hs, hdelivered, (tcp_link_delivers .lengthPrefixed hs).2.1 rfl⟩

end TcpLink

end RustP2p
