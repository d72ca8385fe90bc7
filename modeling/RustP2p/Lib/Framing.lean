import Mathlib.Data.List.Basic

/-!
# Decoding a stream that arrives in chunks

A decoder takes one frame off the front of a buffer, or waits for more, or fails.
`drain` takes frames until the decoder waits or fails, and `feed` appends a chunk to
what was left over and drains again.

`Decoder.Incremental` says that a decoder which has decided does not change its mind
when more arrives.  Then the chunks do not matter: feeding them one after the other
gives what draining the whole stream gives (`foldl_feed`).
-/

namespace Framing

variable {σ φ ε : Type}

/-! ## Decoders -/

/-- A decoder of frames from the front of a buffer, `none` for waiting.  A frame takes
something off. -/
structure Decoder (σ φ ε : Type) where
  decode : List σ → Except ε (Option (φ × List σ))
  shrinks : ∀ {buf frame rest}, decode buf = .ok (some (frame, rest)) → rest.length < buf.length

/-- The decoder stays with a frame or a failure when more arrives. -/
structure Decoder.Incremental (d : Decoder σ φ ε) : Prop where
  frame_append : ∀ {buf frame rest} (more : List σ), d.decode buf = .ok (some (frame, rest)) →
    d.decode (buf ++ more) = .ok (some (frame, rest ++ more))
  error_append : ∀ {buf e} (more : List σ), d.decode buf = .error e →
    d.decode (buf ++ more) = .error e

/-- The frames taken so far, what is left in the buffer, and the failure if there was one. -/
structure Drained (σ φ ε : Type) where
  frames : List φ
  rest : List σ
  failed : Option ε

namespace Drained

/-- The same with frames that were taken before. -/
def prepend (frames : List φ) (r : Drained σ φ ε) : Drained σ φ ε :=
  { r with frames := frames ++ r.frames }

@[simp] theorem prepend_frames (frames : List φ) (r : Drained σ φ ε) :
    (r.prepend frames).frames = frames ++ r.frames := rfl

@[simp] theorem prepend_rest (frames : List φ) (r : Drained σ φ ε) :
    (r.prepend frames).rest = r.rest := rfl

@[simp] theorem prepend_failed (frames : List φ) (r : Drained σ φ ε) :
    (r.prepend frames).failed = r.failed := rfl

theorem prepend_prepend (frames frames' : List φ) (r : Drained σ φ ε) :
    (r.prepend frames').prepend frames = r.prepend (frames ++ frames') := by
  simp only [prepend, List.append_assoc]

end Drained

namespace Decoder

variable (d : Decoder σ φ ε)

/-! ## Draining a buffer -/

/-- Take frames until the decoder waits or fails. -/
def drain (buf : List σ) : Drained σ φ ε :=
  match _h : d.decode buf with
  | .error e => ⟨[], buf, some e⟩
  | .ok none => ⟨[], buf, none⟩
  | .ok (some (frame, rest)) => (drain rest).prepend [frame]
termination_by buf.length
decreasing_by exact d.shrinks _h

variable {d}

theorem drain_of_error {buf : List σ} {e : ε} (h : d.decode buf = .error e) :
    d.drain buf = ⟨[], buf, some e⟩ := by
  rw [drain]
  split
  next he =>
    cases h.symm.trans he
    rfl
  next hnone => cases h.symm.trans hnone
  next hsome => cases h.symm.trans hsome

theorem drain_of_none {buf : List σ} (h : d.decode buf = .ok none) :
    d.drain buf = ⟨[], buf, none⟩ := by
  rw [drain]
  split
  next he => cases h.symm.trans he
  next => rfl
  next hsome => cases h.symm.trans hsome

theorem drain_of_some {buf rest : List σ} {frame : φ}
    (h : d.decode buf = .ok (some (frame, rest))) :
    d.drain buf = (d.drain rest).prepend [frame] := by
  rw [drain]
  split
  next he => cases h.symm.trans he
  next hnone => cases h.symm.trans hnone
  next hsome =>
    cases h.symm.trans hsome
    rfl

/-- Draining again what was left over takes nothing. -/
theorem drain_rest (buf : List σ) (h : (d.drain buf).failed = none) :
    d.decode (d.drain buf).rest = .ok none := by
  induction buf using drain.induct d with
  | case1 buf e he =>
      rw [drain_of_error he] at h
      cases h
  | case2 buf hnone =>
      rw [drain_of_none hnone]
      exact hnone
  | case3 buf frame rest hsome ih =>
      rw [drain_of_some hsome] at h ⊢
      exact ih h

/-- A failure does not go away when more arrives, and the frames before it stay. -/
theorem drain_append_of_failed (hd : d.Incremental) {buf : List σ} {e : ε}
    (h : (d.drain buf).failed = some e) (more : List σ) :
    (d.drain (buf ++ more)).frames = (d.drain buf).frames ∧
      (d.drain (buf ++ more)).failed = some e := by
  induction buf using drain.induct d with
  | case1 buf e' he =>
      rw [drain_of_error he] at h ⊢
      cases h
      rw [drain_of_error (hd.error_append more he)]
      exact ⟨rfl, rfl⟩
  | case2 buf hnone =>
      rw [drain_of_none hnone] at h
      cases h
  | case3 buf frame rest hsome ih =>
      rw [drain_of_some hsome] at h ⊢
      rw [drain_of_some (hd.frame_append more hsome)]
      obtain ⟨hframes, hfailed⟩ := ih h
      refine ⟨?_, hfailed⟩
      rw [Drained.prepend_frames, Drained.prepend_frames, hframes]

/-- Without a failure, what arrives later is drained after what was left over. -/
theorem drain_append (hd : d.Incremental) {buf : List σ} (h : (d.drain buf).failed = none)
    (more : List σ) :
    d.drain (buf ++ more) =
      (d.drain ((d.drain buf).rest ++ more)).prepend (d.drain buf).frames := by
  induction buf using drain.induct d with
  | case1 buf e he =>
      rw [drain_of_error he] at h
      cases h
  | case2 buf hnone =>
      rw [drain_of_none hnone]
      rfl
  | case3 buf frame rest hsome ih =>
      rw [drain_of_some hsome] at h ⊢
      rw [drain_of_some (hd.frame_append more hsome), ih h, Drained.prepend_prepend]
      rfl

/-! ## Feeding chunks -/

variable (d)

/-- Append a chunk to what was left over and drain.  After a failure nothing is read. -/
def feed (s : Drained σ φ ε) (chunk : List σ) : Drained σ φ ε :=
  match s.failed with
  | some _ => s
  | none => (d.drain (s.rest ++ chunk)).prepend s.frames

/-- Nothing read yet. -/
def start : Drained σ φ ε := ⟨[], [], none⟩

variable {d}

theorem feed_of_none {s : Drained σ φ ε} (h : s.failed = none) (chunk : List σ) :
    d.feed s chunk = (d.drain (s.rest ++ chunk)).prepend s.frames := by
  simp only [feed, h]

theorem foldl_feed_of_failed {s : Drained σ φ ε} {e : ε} (h : s.failed = some e)
    (chunks : List (List σ)) : chunks.foldl d.feed s = s := by
  induction chunks with
  | nil => rfl
  | cons chunk chunks ih =>
      have hstep : d.feed s chunk = s := by simp only [feed, h]
      rw [List.foldl_cons, hstep, ih]

/-- Feeding chunks from a buffer the decoder waits on gives the frames and the failure of
draining the whole stream, and what is left over if nothing failed. -/
theorem foldl_feed_from (hd : d.Incremental) (chunks : List (List σ)) {s : Drained σ φ ε}
    (hnone : s.failed = none) (hwait : d.decode s.rest = .ok none) :
    let r := chunks.foldl d.feed s
    let whole := (d.drain (s.rest ++ chunks.flatten)).prepend s.frames
    r.frames = whole.frames ∧ r.failed = whole.failed ∧
      (whole.failed = none → r.rest = whole.rest) := by
  induction chunks generalizing s with
  | nil =>
      have hdrain : d.drain (s.rest ++ List.flatten []) = ⟨[], s.rest, none⟩ := by
        rw [List.flatten_nil, List.append_nil]
        exact drain_of_none hwait
      rw [List.foldl_nil, hdrain]
      exact ⟨(List.append_nil _).symm, hnone, fun _ => rfl⟩
  | cons chunk chunks ih =>
      have hassoc : s.rest ++ (chunk :: chunks).flatten = s.rest ++ chunk ++ chunks.flatten := by
        rw [List.flatten_cons, List.append_assoc]
      rw [List.foldl_cons, feed_of_none hnone, hassoc]
      cases hfailed : (d.drain (s.rest ++ chunk)).failed with
      | some e =>
          -- the loop stops here, and the rest of the stream does not undo the failure
          obtain ⟨hframes, hfail⟩ := drain_append_of_failed hd hfailed chunks.flatten
          have hstop : ((d.drain (s.rest ++ chunk)).prepend s.frames).failed = some e := hfailed
          rw [foldl_feed_of_failed hstop]
          refine ⟨?_, ?_, ?_⟩
          · rw [Drained.prepend_frames, Drained.prepend_frames, hframes]
          · rw [Drained.prepend_failed, Drained.prepend_failed, hfail, hfailed]
          · intro hok
            rw [Drained.prepend_failed, hfail] at hok
            cases hok
      | none =>
          rw [drain_append hd hfailed, Drained.prepend_prepend]
          exact ih hfailed (drain_rest _ hfailed)

/-- The chunks a stream is cut into do not matter. -/
theorem foldl_feed (hd : d.Incremental) (hempty : d.decode [] = .ok none)
    (chunks : List (List σ)) :
    let r := chunks.foldl d.feed start
    let whole := d.drain chunks.flatten
    r.frames = whole.frames ∧ r.failed = whole.failed ∧
      (whole.failed = none → r.rest = whole.rest) :=
  foldl_feed_from hd chunks rfl hempty

end Decoder

end Framing
