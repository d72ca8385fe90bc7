import RustP2p.Core.TcpCodec

/-!
# The TCP write task

The write task of a TCP tunnel in `endpoint/pool.rs`.  A codec pushes the slices of a
frame onto a list, and `write_all_vectored` writes the list.  The socket may accept a
part of what it is offered, which ends inside a slice or between two, and it may be
interrupted.  `WriteHalf` is a socket that goes on like this until all is written.

A write that accepts nothing counts as a failure.  A list with a byte in it is never
offered without one (`advanceSlices_spec`), so such a socket takes all of it.  The one
slice of an empty payload without framing has no byte: the task ends, though there is
nothing to write (`vectored_writes_iff`).
-/

namespace RustP2p

open BigEndian

/-! ## The codecs -/

/-- `BytesCodec::encode`. -/
def BytesCodec.encode (data : List UInt8) (iov : List (List UInt8)) :
    IoResult (List (List UInt8)) := .ok (iov ++ [data])

/-- The codecs of `endpoint/codec.rs`. -/
inductive TcpCodec where
  | bytes
  | lengthPrefixed
deriving DecidableEq, Repr

/-- `Encoder::encode`. -/
def TcpCodec.encode : TcpCodec → List UInt8 → List (List UInt8) → IoResult (List (List UInt8))
  | .bytes => BytesCodec.encode
  | .lengthPrefixed => LengthPrefixedCodec.encode

/-! ## Vectored writes -/

/-- `IoSlice::advance_slices`, `none` for its panic. -/
def advanceSlices : List (List UInt8) → Nat → Option (List (List UInt8))
  | [], left => if left = 0 then some [] else none
  | buf :: bufs, left =>
      if buf.length ≤ left then advanceSlices bufs (left - buf.length)
      else some (buf.drop left :: bufs)

/-- How `write_all_vectored` ends. -/
inductive WriteEnd where
  | returned (result : IoResult Unit)
  | panicked
deriving DecidableEq

/-- Where `write_all_vectored` stands: how often the socket was written to, the slices that
are left, and the bytes the socket accepted. -/
structure VectoredWrite where
  calls : Nat
  slices : List (List UInt8)
  accepted : List UInt8
deriving DecidableEq

/-- `write_all_vectored`, `none` when the fuel is used up.  `write` is the answer of the socket
to each call. -/
def writeAllVectored (write : Nat → List (List UInt8) → IoResult Nat) :
    (fuel : Nat) → VectoredWrite → Option (WriteEnd × VectoredWrite)
  | 0, w => if w.slices = [] then some (.returned (.ok ()), w) else none
  | fuel + 1, w =>
      if w.slices = [] then some (.returned (.ok ()), w)
      else
        match write w.calls w.slices with
        | .ok 0 =>
            some (.returned (.error ⟨.writeZero, "failed to write whole frame"⟩),
              { w with calls := w.calls + 1 })
        | .ok n =>
            let accepted := w.accepted ++ w.slices.flatten.take n
            match advanceSlices w.slices n with
            | some slices => writeAllVectored write fuel ⟨w.calls + 1, slices, accepted⟩
            | none => some (.panicked, ⟨w.calls + 1, w.slices, accepted⟩)
        | .error e =>
            if e.kind = .interrupted then
              writeAllVectored write fuel { w with calls := w.calls + 1 }
            else some (.returned (.error e), { w with calls := w.calls + 1 })

/-- A socket that accepts at least one of the bytes it is offered, as long as it is not
interrupted, and is interrupted in its first calls only. -/
structure WriteHalf where
  writeVectored : Nat → List (List UInt8) → IoResult Nat
  /-- From this call on it is not interrupted. -/
  quiet : Nat
  nothing : ∀ n slices, slices.flatten = [] → writeVectored n slices = .ok 0
  progress : ∀ n slices, slices.flatten ≠ [] →
    (∃ k, writeVectored n slices = .ok (k + 1) ∧ k + 1 ≤ slices.flatten.length) ∨
      n < quiet ∧ ∃ e, writeVectored n slices = .error e ∧ e.kind = .interrupted

/-- What is left after an accepted write has a byte in it, unless nothing is left. -/
theorem advanceSlices_spec {slices : List (List UInt8)} {n : Nat}
    (h : n ≤ slices.flatten.length) :
    ∃ rest, advanceSlices slices n = some rest ∧ rest.flatten = slices.flatten.drop n ∧
      (rest = [] ∨ rest.flatten ≠ []) := by
  induction slices generalizing n with
  | nil =>
      obtain rfl : n = 0 := Nat.le_zero.mp h
      exact ⟨[], rfl, rfl, Or.inl rfl⟩
  | cons buf bufs ih =>
      rw [List.flatten_cons, List.length_append] at h
      rw [advanceSlices]
      split
      next hbuf =>
        obtain ⟨rest, hrest, hflatten, hbyte⟩ := ih (n := n - buf.length) (by omega)
        refine ⟨rest, hrest, ?_, hbyte⟩
        rw [hflatten, List.flatten_cons, List.drop_append, List.drop_of_length_le hbuf,
          List.nil_append]
      next hbuf =>
        refine ⟨_, rfl, ?_, Or.inr ?_⟩
        · rw [List.flatten_cons, List.flatten_cons,
            List.drop_append_of_le_length (Nat.le_of_not_le hbuf)]
        · intro hnil
          have hlength := congrArg List.length hnil
          rw [List.flatten_cons, List.length_append, List.length_drop, List.length_nil] at hlength
          omega

/-- The socket takes all slices of a list that has a byte in it, and an empty list.  Each call
writes a byte or is one of the first. -/
theorem writeAllVectored_ok (socket : WriteHalf) {w : VectoredWrite} {fuel : Nat}
    (hbyte : w.slices = [] ∨ w.slices.flatten ≠ [])
    (hfuel : w.slices.flatten.length + (socket.quiet - w.calls) ≤ fuel) :
    ∃ w', writeAllVectored socket.writeVectored fuel w = some (.returned (.ok ()), w') ∧
      w'.accepted = w.accepted ++ w.slices.flatten := by
  induction fuel generalizing w with
  | zero =>
      have hnil : w.slices = [] := by
        rcases hbyte with hnil | hne
        · exact hnil
        · have hpos := List.length_pos_of_ne_nil hne
          omega
      refine ⟨w, ?_, ?_⟩
      · rw [writeAllVectored, if_pos hnil]
      · simp [hnil]
  | succ fuel ih =>
      rw [writeAllVectored]
      split
      next hnil => exact ⟨w, rfl, by simp [hnil]⟩
      next hslices =>
        have hne := hbyte.resolve_left hslices
        rcases socket.progress w.calls w.slices hne with
          ⟨k, hwrite, hk⟩ | ⟨hquiet, e, hwrite, hkind⟩
        · obtain ⟨rest, hrest, hflatten, hbyte'⟩ := advanceSlices_spec hk
          have hlength : rest.flatten.length = w.slices.flatten.length - (k + 1) := by
            rw [hflatten, List.length_drop]
          simp only [hwrite, hrest]
          obtain ⟨w', hw', haccepted⟩ := ih (w := ⟨w.calls + 1, rest,
            w.accepted ++ w.slices.flatten.take (k + 1)⟩) hbyte' (by
              simp only [hlength]
              omega)
          refine ⟨w', hw', ?_⟩
          rw [haccepted, hflatten, List.append_assoc, List.take_append_drop]
        · simp only [hwrite, hkind, if_true]
          exact ih (w := { w with calls := w.calls + 1 }) hbyte (by
            simp only
            omega)

/-- Slices without a byte are not written. -/
theorem writeAllVectored_writeZero (socket : WriteHalf) {w : VectoredWrite} {fuel : Nat}
    (hslices : w.slices ≠ []) (hnone : w.slices.flatten = []) {r : WriteEnd × VectoredWrite}
    (h : writeAllVectored socket.writeVectored fuel w = some r) :
    r.1 = .returned (.error ⟨.writeZero, "failed to write whole frame"⟩) := by
  cases fuel with
  | zero =>
      rw [writeAllVectored, if_neg hslices] at h
      cases h
  | succ fuel =>
      rw [writeAllVectored, if_neg hslices, socket.nothing w.calls w.slices hnone] at h
      cases h
      rfl

/-! ## The write task -/

/-- What the write task of a tunnel waits for.  `none` means that its channel is closed. -/
inductive WriteEvent where
  | received (data : Option (List UInt8))
  | globalShutdown
deriving DecidableEq, Repr

/-- The write task of a tunnel: how often it wrote to the socket, and what was accepted. -/
structure TcpWriter where
  calls : Nat
  written : List UInt8
  running : Bool
deriving DecidableEq, Repr

namespace TcpWriter

/-- A new task. -/
def new : TcpWriter := ⟨0, [], true⟩

/-- One turn of the loop, `none` when a write does not come to an end. -/
def step (encode : List UInt8 → List (List UInt8) → IoResult (List (List UInt8)))
    (write : Nat → List (List UInt8) → IoResult Nat) (fuel : Nat) (t : TcpWriter)
    (event : WriteEvent) : Option TcpWriter :=
  if t.running then
    match event with
    | .received (some data) =>
        match encode data [] with
        | .ok iov => (writeAllVectored write fuel ⟨t.calls, iov, []⟩).map fun (ending, w) =>
            ⟨w.calls, t.written ++ w.accepted, ending = .returned (.ok ())⟩
        | .error _ => some { t with running := false }
    | .received none => some { t with running := false }
    | .globalShutdown => some { t with running := false }
  else some t

/-- The loop. -/
def run (encode : List UInt8 → List (List UInt8) → IoResult (List (List UInt8)))
    (write : Nat → List (List UInt8) → IoResult Nat) (fuel : Nat) (t : TcpWriter)
    (events : List WriteEvent) : Option TcpWriter := events.foldlM (step encode write fuel) t

/-- The events of a task that is sent some payloads. -/
def sends (payloads : List (List UInt8)) : List WriteEvent :=
  payloads.map fun data => .received (some data)

end TcpWriter

/-! ## What the codecs leave to the writer -/

namespace TcpCodec

variable {codec : TcpCodec} {data : List UInt8} {slices : List (List UInt8)}

theorem encode_bytes (data : List UInt8) : bytes.encode data [] = .ok [data] := rfl

/-- A frame has slices, and they have a byte, unless an empty payload is not framed. -/
theorem slices_of_encode (h : codec.encode data [] = .ok slices) :
    slices ≠ [] ∧ (slices.flatten ≠ [] ↔ codec = .lengthPrefixed ∨ data ≠ []) := by
  cases codec with
  | bytes =>
      cases h
      simp
  | lengthPrefixed =>
      have hok : LengthPrefixedCodec.encode data [] = .ok slices := h
      simp only [LengthPrefixedCodec.encode] at hok
      split at hok
      next => cases hok
      next =>
        split at hok
        next => cases hok
        next =>
          cases hok
          simp [toBeBytes]

/-- Whatever the socket does, `write_all_vectored` returns `Ok`, and the socket has accepted
the slices of the payload, if the codec accepts it. -/
def Delivers (codec : TcpCodec) (data : List UInt8) : Prop :=
  ∀ slices, codec.encode data [] = .ok slices → ∀ (socket : WriteHalf) (calls : Nat),
    ∃ enough, ∀ more, ∃ w,
      writeAllVectored socket.writeVectored (enough + more) ⟨calls, slices, []⟩ =
        some (.returned (.ok ()), w) ∧ w.accepted = slices.flatten

/-- Whatever the socket does, the write task runs on after the payloads, and the socket has
accepted their frames, if the codec accepts them. -/
def KeepsWriting (codec : TcpCodec) (payloads : List (List UInt8)) : Prop :=
  ∀ frames, payloads.mapM (fun data => codec.encode data []) = .ok frames →
    ∀ socket : WriteHalf, ∃ enough, ∀ more, ∃ t,
      TcpWriter.new.run codec.encode socket.writeVectored (enough + more)
        (TcpWriter.sends payloads) = some t ∧
      t.running = true ∧ t.written = frames.flatten.flatten

/-- A socket that accepts everything. -/
def eager : WriteHalf where
  writeVectored _ slices := .ok slices.flatten.length
  quiet := 0
  nothing n slices h := by rw [h]; rfl
  progress n slices h := by
    have hpos := List.length_pos_of_ne_nil h
    exact Or.inl ⟨slices.flatten.length - 1, by rw [Nat.sub_add_cancel hpos],
      by rw [Nat.sub_add_cancel hpos]⟩

theorem delivers_iff : codec.Delivers data ↔ codec = .lengthPrefixed ∨ data ≠ [] := by
  constructor
  · intro h
    cases codec with
    | lengthPrefixed => exact Or.inl rfl
    | bytes =>
        refine Or.inr ?_
        rintro rfl
        obtain ⟨enough, hall⟩ := h [[]] rfl eager 0
        obtain ⟨w, hw, -⟩ := hall 0
        have hzero := writeAllVectored_writeZero eager (w := ⟨0, [[]], []⟩) (by simp) rfl hw
        cases hzero
  · intro h slices hencode socket calls
    obtain ⟨-, hbyte⟩ := slices_of_encode hencode
    refine ⟨slices.flatten.length + (socket.quiet - calls), ?_⟩
    intro more
    exact writeAllVectored_ok socket (w := ⟨calls, slices, []⟩) (Or.inr (hbyte.mpr h))
      (Nat.le_add_right _ more)

/-! ## A run of the task -/

section Run

variable {socket : WriteHalf} {fuel : Nat} {t t' : TcpWriter}

/-- The task writes a payload and runs on. -/
theorem step_of_encode (hrunning : t.running = true) (hencode : codec.encode data [] = .ok slices)
    (hbyte : codec = .lengthPrefixed ∨ data ≠ [])
    (hfuel : slices.flatten.length + socket.quiet ≤ fuel) :
    ∃ t', t.step codec.encode socket.writeVectored fuel (.received (some data)) = some t' ∧
      t'.running = true ∧ t'.written = t.written ++ slices.flatten := by
  obtain ⟨-, hslices⟩ := slices_of_encode hencode
  have hcalls : slices.flatten.length + (socket.quiet - t.calls) ≤ fuel := by omega
  obtain ⟨w, hw, haccepted⟩ := writeAllVectored_ok socket (w := ⟨t.calls, slices, []⟩)
    (Or.inr (hslices.mpr hbyte)) hcalls
  refine ⟨⟨w.calls, t.written ++ w.accepted, true⟩, ?_, rfl, ?_⟩
  · simp only [TcpWriter.step, hrunning, if_true, hencode, hw, Option.map_some]
    rfl
  · simp only [haccepted, List.nil_append]

theorem run_of_encode {payloads : List (List UInt8)} {frames : List (List (List UInt8))}
    (hrunning : t.running = true)
    (hencode : payloads.mapM (fun data => codec.encode data []) = .ok frames)
    (hbyte : codec = .lengthPrefixed ∨ [] ∉ payloads)
    (hfuel : frames.flatten.flatten.length + socket.quiet ≤ fuel) :
    ∃ t', t.run codec.encode socket.writeVectored fuel (TcpWriter.sends payloads) = some t' ∧
      t'.running = true ∧ t'.written = t.written ++ frames.flatten.flatten := by
  induction payloads generalizing t frames with
  | nil =>
      cases hencode
      exact ⟨t, rfl, hrunning, by simp⟩
  | cons data payloads ih =>
      rw [List.mapM_cons] at hencode
      obtain ⟨slices, hfirst, hencode⟩ := bind_eq_ok.mp hencode
      obtain ⟨frames', hrest, hencode⟩ := bind_eq_ok.mp hencode
      cases hencode
      rw [List.flatten_cons, List.flatten_append, List.length_append] at hfuel
      have hdata : codec = .lengthPrefixed ∨ data ≠ [] := by
        refine hbyte.imp_right fun hmem hnil => hmem ?_
        rw [hnil]
        exact List.mem_cons_self
      have hpayloads : codec = .lengthPrefixed ∨ [] ∉ payloads :=
        hbyte.imp_right fun hmem htail => hmem (List.mem_cons_of_mem _ htail)
      have hslices : slices.flatten.length + socket.quiet ≤ fuel := by omega
      obtain ⟨m, hm, hrunning', hwritten⟩ := step_of_encode hrunning hfirst hdata hslices
      obtain ⟨t', ht', hend, hall⟩ := ih hrunning' hrest hpayloads (by omega)
      refine ⟨t', ?_, hend, ?_⟩
      · exact Option.bind_eq_some_iff.mpr ⟨m, hm, ht'⟩
      · rw [hall, hwritten, List.flatten_cons, List.flatten_append, List.append_assoc]

/-- A task that runs on after a payload without framing was not sent the empty one. -/
theorem ne_nil_of_step_bytes
    (h : t.step bytes.encode socket.writeVectored fuel (.received (some data)) = some t')
    (hrunning : t'.running = true) : data ≠ [] ∧ t.running = true := by
  simp only [TcpWriter.step] at h
  split at h
  next hbefore =>
    refine ⟨?_, hbefore⟩
    rintro rfl
    rw [encode_bytes] at h
    obtain ⟨⟨ending, w⟩, hw, rfl⟩ := Option.map_eq_some_iff.mp h
    have hzero := writeAllVectored_writeZero socket (w := ⟨t.calls, [[]], []⟩) (by simp) rfl hw
    simp only at hzero
    rw [hzero] at hrunning
    cases hrunning
  next hstopped =>
    cases h
    exact absurd hrunning hstopped

theorem nil_notMem_of_run_bytes {payloads : List (List UInt8)}
    (h : t.run bytes.encode socket.writeVectored fuel (TcpWriter.sends payloads) = some t')
    (hrunning : t'.running = true) : [] ∉ payloads ∧ t.running = true := by
  induction payloads generalizing t with
  | nil =>
      cases h
      exact ⟨List.not_mem_nil, hrunning⟩
  | cons data payloads ih =>
      simp only [TcpWriter.run, TcpWriter.sends, List.map_cons, List.foldlM_cons] at h
      obtain ⟨m, hm, hrest⟩ := Option.bind_eq_some_iff.mp h
      obtain ⟨hmem, hmiddle⟩ := ih hrest
      obtain ⟨hne, hbefore⟩ := ne_nil_of_step_bytes hm hmiddle
      refine ⟨?_, hbefore⟩
      intro hnil
      rcases List.mem_cons.mp hnil with heq | htail
      · exact hne heq.symm
      · exact hmem htail

end Run

theorem mapM_encode_bytes (payloads : List (List UInt8)) :
    payloads.mapM (fun data => bytes.encode data []) = .ok (payloads.map fun data => [data]) := by
  induction payloads with
  | nil => rfl
  | cons data payloads ih =>
      rw [List.mapM_cons, encode_bytes, ih]
      rfl

theorem keepsWriting_iff {payloads : List (List UInt8)} :
    codec.KeepsWriting payloads ↔ codec = .lengthPrefixed ∨ [] ∉ payloads := by
  constructor
  · intro h
    cases codec with
    | lengthPrefixed => exact Or.inl rfl
    | bytes =>
        obtain ⟨enough, hall⟩ := h _ (mapM_encode_bytes payloads) eager
        obtain ⟨t, ht, hrunning, -⟩ := hall 0
        exact Or.inr (nil_notMem_of_run_bytes ht hrunning).1
  · intro h frames hencode socket
    refine ⟨frames.flatten.flatten.length + socket.quiet, ?_⟩
    intro more
    obtain ⟨t, ht, hrunning, hwritten⟩ := run_of_encode (t := TcpWriter.new) rfl hencode h
      (Nat.le_add_right (frames.flatten.flatten.length + socket.quiet) more)
    exact ⟨t, ht, hrunning, hwritten⟩

/-- A payload is delivered exactly if it is framed or not empty, and the write task runs on
after some payloads exactly if all of them are. -/
theorem vectored_writes_iff (codec : TcpCodec) :
    (∀ data, codec.Delivers data ↔ codec = .lengthPrefixed ∨ data ≠ []) ∧
      ∀ payloads, codec.KeepsWriting payloads ↔ codec = .lengthPrefixed ∨ [] ∉ payloads :=
  ⟨fun _ => delivers_iff, fun _ => keepsWriting_iff⟩

/-- The empty payload without framing is not delivered, and it ends the task. -/
theorem empty_payload_not_delivered :
    ¬ ∀ (codec : TcpCodec) (data : List UInt8),
      codec.Delivers data ∧ codec.KeepsWriting [data] := by
  intro h
  rcases keepsWriting_iff.mp (h .bytes []).2 with hcodec | hmem
  · cases hcodec
  · exact hmem (.head _)

end TcpCodec

end RustP2p
