import RustP2p.Core.TcpLink

/-!
# A TCP tunnel and its receiver

The read task of a tunnel hands each payload to a channel of 64 and waits while the channel
is full: the receiver has to take something before the task decodes or reads on.  A
`TcpFlow` is a connection in which this is spelled out.  To decode, to hand a payload on
and to receive it are steps of their own.

While the reading half is there, a flow is a `TcpLink` that puts these steps off or does
them at once (`run_toLink`), so that `Carried` holds of it.  It never wedges: whatever is
half written, half decoded or waiting, and however little the connection between the two
sockets holds, the tasks and the receiver can always go on, and however they take turns,
everything that was sent is received after a bounded number of turns (`tcp_flow_drains`).
-/

namespace RustP2p

open Framing Transition

/-! ## The flow -/

/-- The capacity of the channel to the receiver. -/
def TCP_READ_CAPACITY : Nat := 64

/-- Where the read task is. -/
inductive ReaderPhase where
  /-- In `select!`. -/
  | waiting
  /-- In the inner loop, before `decode`. -/
  | decoding
  /-- In `data_tx.send`. -/
  | sending (data : List UInt8)
  | stopped
deriving DecidableEq, Repr

/-- One direction of a connection, up to the receiver. -/
structure TcpFlow where
  /-- The channel of the write task. -/
  queue : List (List UInt8)
  /-- A write half is left. -/
  handles : Bool
  writer : WriterPhase
  /-- The bytes the writer's socket has accepted and the reader has not read. -/
  transit : List UInt8
  reader : ReaderPhase
  /-- The buffer of the read task. -/
  buf : List UInt8
  /-- The channel to the receiver. -/
  channel : List (List UInt8)
  received : List (List UInt8)
  /-- The reading half is left. -/
  attached : Bool
deriving DecidableEq, Repr

/-- What can happen. -/
inductive TcpFlowEvent where
  /-- The sending side, or what the read task waits for. -/
  | link (e : TcpLinkEvent)
  /-- The read task decodes. -/
  | decode
  /-- Its `send` to the receiver returns. -/
  | deliver
  /-- The receiver takes a payload. -/
  | recv
  /-- The reading half is dropped. -/
  | dropReader
deriving DecidableEq, Repr

namespace TcpFlow

/-- A new connection. -/
def new : TcpFlow := ⟨[], true, .receiving, [], .waiting, [], [], [], true⟩

/-- The sending side. -/
def sender (s : TcpFlow) : TcpLink := ⟨s.queue, s.handles, s.writer, s.transit, .new none⟩

/-- The sending side has moved on. -/
def withSender (s : TcpFlow) (t : TcpLink) : TcpFlow :=
  { s with queue := t.queue, handles := t.handles, writer := t.writer, transit := t.transit }

/-- The read task, waiting in `select!`, has come to an event.  It is shut down with the tunnel
when the reading half is dropped. -/
def onRead (s : TcpFlow) : ReadEvent → Option TcpFlow
  | .read [] => some { s with reader := .stopped }
  | .read chunk =>
      some { s with
        transit := s.transit.drop chunk.length, buf := s.buf ++ chunk, reader := .decoding }
  | .tunnelShutdown => if s.attached then none else some { s with reader := .stopped }
  | .readError => some { s with reader := .stopped }
  | .globalShutdown => some { s with reader := .stopped }

/-- The flow after an event, if the event can happen. -/
def step (codec : TcpCodec) (s : TcpFlow) : TcpFlowEvent → Option TcpFlow
  | .link (.read event) =>
      match s.reader with
      | .waiting => (s.sender.readable event).bind fun _ => s.onRead event
      | _ => none
  | .link e => (s.sender.step codec e).map s.withSender
  | .decode =>
      match s.reader with
      | .decoding =>
          match codec.decoder.decode s.buf with
          | .error _ => some { s with reader := .stopped }
          | .ok none => some { s with reader := .waiting }
          | .ok (some (data, rest)) => some { s with buf := rest, reader := .sending data }
      | _ => none
  | .deliver =>
      match s.reader with
      | .sending data =>
          if s.attached then
            if s.channel.length < TCP_READ_CAPACITY then
              some { s with channel := s.channel ++ [data], reader := .decoding }
            else none
          else some { s with reader := .stopped }
      | _ => none
  | .recv =>
      if s.attached then
        match s.channel with
        | data :: rest => some { s with channel := rest, received := s.received ++ [data] }
        | [] => none
      else none
  | .dropReader => if s.attached then some { s with attached := false } else none

/-- The payload that enters the channel of the write task. -/
def accepted (s : TcpFlow) : TcpFlowEvent → Option (List UInt8)
  | .link e => s.sender.accepted e
  | _ => none

/-- The payloads that were sent during a run, in order. -/
def sent (codec : TcpCodec) (s : TcpFlow) (es : List TcpFlowEvent) : List (List UInt8) :=
  outputs (step codec) accepted s es

/-- Nothing is left to do, for the tasks or for the receiver. -/
def Quiet (s : TcpFlow) : Prop :=
  s.queue = [] ∧ s.writer = .receiving ∧ s.transit = [] ∧ s.reader = .waiting ∧ s.channel = []

/-! ## The flow as a link -/

/-- What the read task has made of its bytes when its inner loop is through. -/
def settled (codec : TcpCodec) (s : TcpFlow) : TcpReader :=
  match s.reader with
  | .waiting => ⟨s.buf, s.received ++ s.channel, none, true⟩
  | .decoding => TcpReader.drainLoop codec.decoder ⟨s.buf, s.received ++ s.channel, none, true⟩
  | .sending data =>
      TcpReader.drainLoop codec.decoder ⟨s.buf, s.received ++ s.channel ++ [data], none, true⟩
  | .stopped => ⟨s.buf, s.received ++ s.channel, none, false⟩

/-- The link that delivers at once what the flow has still to decode and to hand on. -/
def toLink (codec : TcpCodec) (s : TcpFlow) : TcpLink :=
  { s.sender with reader := s.settled codec }

/-- What an event is on the link. -/
def onLink : TcpFlowEvent → Option TcpLinkEvent
  | .link e => some e
  | _ => none

variable {codec : TcpCodec} {s t : TcpFlow} {es : List TcpFlowEvent}

/-- The sending side does not look at the reader. -/
theorem step_withReader (l : TcpLink) (r : TcpReader) {e : TcpLinkEvent}
    (he : ∀ event, e ≠ .read event) :
    TcpLink.step codec { l with reader := r } e =
      (TcpLink.step codec l e).map fun t => { t with reader := r } := by
  cases e with
  | send data =>
      have htry : ({ l with reader := r } : TcpLink).trySend = l.trySend := rfl
      simp only [TcpLink.step, htry]
      split
      next => cases l.trySend <;> rfl
      next => rfl
  | dropHandles =>
      simp only [TcpLink.step]
      split <;> rfl
  | receive =>
      simp only [TcpLink.step, TcpLink.receive]
      split
      next => split <;> rfl
      next => split <;> rfl
      next => rfl
  | write answer =>
      simp only [TcpLink.step]
      split <;> rfl
  | writeShutdown =>
      simp only [TcpLink.step]
      split <;> rfl
  | read event => exact absurd rfl (he event)

theorem step_sender {e : TcpLinkEvent} (he : ∀ event, e ≠ .read event) :
    step codec s (.link e) = (s.sender.step codec e).map s.withSender := by
  cases e with
  | read event => exact absurd rfl (he event)
  | send data => rfl
  | dropHandles => rfl
  | receive => rfl
  | write answer => rfl
  | writeShutdown => rfl

/-- The inner loop ends where it would end after one more turn. -/
theorem settled_decode (h : step codec s .decode = some t) :
    t.settled codec = s.settled codec := by
  simp only [step] at h
  split at h
  next hreader =>
    have hsettled : s.settled codec =
        TcpReader.drainLoop codec.decoder ⟨s.buf, s.received ++ s.channel, none, true⟩ := by
      simp only [settled, hreader]
    rw [hsettled, TcpReader.drainLoop]
    split at h
    next e he =>
      cases h
      split
      next => rfl
      next hnone => cases he.symm.trans hnone
      next hsome => cases he.symm.trans hsome
    next hnone =>
      cases h
      split
      next he => cases hnone.symm.trans he
      next => rfl
      next hsome => cases hnone.symm.trans hsome
    next data rest hsome =>
      cases h
      split
      next he => cases hsome.symm.trans he
      next hnone => cases hsome.symm.trans hnone
      next hsome' =>
        cases hsome.symm.trans hsome'
        rfl
  next => cases h

theorem settled_deliver (hattached : s.attached = true) (h : step codec s .deliver = some t) :
    t.settled codec = s.settled codec := by
  simp only [step, hattached, if_true] at h
  split at h
  next data hreader =>
    split at h
    next =>
      cases h
      simp only [settled, hreader, List.append_assoc]
    next => cases h
  next => cases h

theorem settled_recv (h : step codec s .recv = some t) : t.settled codec = s.settled codec := by
  simp only [step] at h
  split at h
  next =>
    split at h
    next data rest hchannel =>
      cases h
      simp only [settled, hchannel, List.append_assoc, List.cons_append, List.nil_append]
    next => cases h
  next => cases h

/-- The read task goes on with what it has read. -/
theorem step_read {event : ReadEvent} (h : step codec s (.link (.read event)) = some t) :
    s.reader = .waiting ∧ ∃ chunk, s.sender.readable event = some chunk ∧
      s.onRead event = some t := by
  simp only [step] at h
  split at h
  next hreader =>
    obtain ⟨chunk, hreadable, h⟩ := Option.bind_eq_some_iff.mp h
    exact ⟨hreader, chunk, hreadable, h⟩
  next => cases h

theorem toLink_read {event : ReadEvent} (h : step codec s (.link (.read event)) = some t) :
    TcpLink.step codec (s.toLink codec) (.read event) = some (t.toLink codec) := by
  obtain ⟨hreader, chunk, hreadable, hread⟩ := step_read h
  have hsettled : s.settled codec = ⟨s.buf, s.received ++ s.channel, none, true⟩ := by
    simp only [settled, hreader]
  have hrunning : (s.toLink codec).reader.running = true := by
    simp only [toLink, hsettled]
  have hlink : (s.toLink codec).readable event = some chunk := hreadable
  simp only [TcpLink.step, hrunning, if_true, hlink, Option.map_some]
  have hreads : (s.toLink codec).reader.step codec.decoder event = t.settled codec ∧
      s.transit.drop chunk.length = t.transit ∧ t.queue = s.queue ∧ t.handles = s.handles ∧
      t.writer = s.writer := by
    simp only [toLink, hsettled, TcpReader.step, if_true]
    cases event with
    | read bytes =>
        cases bytes with
        | nil =>
            cases hread
            simp only [TcpLink.readable] at hreadable
            split at hreadable <;> cases hreadable
            exact ⟨rfl, rfl, rfl, rfl, rfl⟩
        | cons byte bytes =>
            cases hread
            simp only [TcpLink.readable] at hreadable
            split at hreadable <;> cases hreadable
            exact ⟨rfl, rfl, rfl, rfl, rfl⟩
    | readError =>
        cases hread
        cases hreadable
        exact ⟨rfl, rfl, rfl, rfl, rfl⟩
    | globalShutdown =>
        cases hread
        cases hreadable
        exact ⟨rfl, rfl, rfl, rfl, rfl⟩
    | tunnelShutdown =>
        simp only [onRead] at hread
        split at hread <;> cases hread
        cases hreadable
        exact ⟨rfl, rfl, rfl, rfl, rfl⟩
  obtain ⟨hstep, htransit, hqueue, hhandles, hwriter⟩ := hreads
  rw [hstep]
  simp only [toLink, sender, htransit, hqueue, hhandles, hwriter]

/-- While the reading half is there, each step is one of the link, or it changes nothing
there. -/
theorem step_toLink {e : TcpFlowEvent} (hattached : t.attached = true)
    (h : step codec s e = some t) :
    s.attached = true ∧ run (TcpLink.step codec) (s.toLink codec) (onLink e).toList =
      some (t.toLink codec) := by
  have hstays {u : TcpFlow} (hsettled : u.settled codec = s.settled codec)
      (hsender : u.sender = s.sender) :
      run (TcpLink.step codec) (s.toLink codec) [] = some (u.toLink codec) := by
    rw [run_nil, toLink, toLink, hsettled, hsender]
  cases e with
  | link e =>
      by_cases hread : ∃ event, e = .read event
      · obtain ⟨event, rfl⟩ := hread
        have hbefore : s.attached = true := by
          obtain ⟨-, chunk, -, hon⟩ := step_read h
          simp only [onRead] at hon
          split at hon
          next => cases hon; exact hattached
          next => cases hon; exact hattached
          next => split at hon <;> cases hon; exact hattached
          next => cases hon; exact hattached
          next => cases hon; exact hattached
        refine ⟨hbefore, ?_⟩
        simp only [onLink, Option.toList_some, run_cons, toLink_read h]
        rfl
      · have he : ∀ event, e ≠ .read event := fun event heq => hread ⟨event, heq⟩
        rw [step_sender he] at h
        obtain ⟨u, hu, rfl⟩ := Option.map_eq_some_iff.mp h
        have hlink : TcpLink.step codec (s.toLink codec) e =
            (TcpLink.step codec s.sender e).map fun t => { t with reader := s.settled codec } :=
          step_withReader s.sender (s.settled codec) he
        rw [hu] at hlink
        refine ⟨hattached, ?_⟩
        simp only [onLink, Option.toList_some, run_cons, hlink]
        rfl
  | decode =>
      have hkeeps : t.attached = s.attached ∧ t.sender = s.sender := by
        simp only [step] at h
        split at h
        next => split at h <;> cases h <;> exact ⟨rfl, rfl⟩
        next => cases h
      exact ⟨hkeeps.1 ▸ hattached, hstays (settled_decode h) hkeeps.2⟩
  | deliver =>
      have hkeeps : t.attached = s.attached ∧ t.sender = s.sender := by
        simp only [step] at h
        split at h
        next => (repeat' split at h) <;> cases h <;> exact ⟨rfl, rfl⟩
        next => cases h
      have hbefore : s.attached = true := hkeeps.1 ▸ hattached
      exact ⟨hbefore, hstays (settled_deliver hbefore h) hkeeps.2⟩
  | recv =>
      have hkeeps : t.attached = s.attached ∧ t.sender = s.sender := by
        simp only [step] at h
        split at h
        next => split at h <;> cases h; exact ⟨rfl, rfl⟩
        next => cases h
      exact ⟨hkeeps.1 ▸ hattached, hstays (settled_recv h) hkeeps.2⟩
  | dropReader =>
      simp only [step] at h
      split at h <;> cases h
      cases hattached

/-- The payload enters the same channel. -/
theorem accepted_toLink (codec : TcpCodec) (s : TcpFlow) (e : TcpFlowEvent) :
    (accepted s e).toList =
      outputs (TcpLink.step codec) TcpLink.accepted (s.toLink codec) (onLink e).toList := by
  cases e with
  | link e =>
      simp only [accepted, onLink, Option.toList_some, outputs]
      cases TcpLink.step codec (s.toLink codec) e <;> exact (List.append_nil _).symm
  | decode => rfl
  | deliver => rfl
  | recv => rfl
  | dropReader => rfl

/-- While the reading half is there, a run is a run of the link with the same payloads sent. -/
theorem run_toLink (hrun : run (step codec) new es = some s) (hattached : s.attached = true) :
    run (TcpLink.step codec) (.new none) (es.filterMap onLink) = some (s.toLink codec) ∧
      TcpLink.sent codec (.new none) (es.filterMap onLink) = sent codec new es := by
  refine run_history (P := fun es s => s.attached = true →
    run (TcpLink.step codec) (.new none) (es.filterMap onLink) = some (s.toLink codec) ∧
      TcpLink.sent codec (.new none) (es.filterMap onLink) = sent codec new es) ?_ ?_ hrun hattached
  · intro _
    exact ⟨rfl, rfl⟩
  · intro es m e u hm ih hstep hu
    obtain ⟨hbefore, hlink⟩ := step_toLink hu hstep
    obtain ⟨hlinks, hsent⟩ := ih hbefore
    have hlast : [e].filterMap onLink = (onLink e).toList := by
      rw [List.filterMap_cons]
      cases onLink e <;> rfl
    rw [List.filterMap_append, hlast]
    refine ⟨?_, ?_⟩
    · rw [run_append, hlinks]
      exact hlink
    · rw [TcpLink.sent] at hsent ⊢
      rw [outputs_append hlinks, hsent, sent, sent, outputs_concat hm, accepted_toLink codec]

theorem carried_run (hrun : run (step codec) new es = some s) (hattached : s.attached = true) :
    ∃ taken read, TcpLink.Carried codec (sent codec new es) taken read (s.toLink codec) := by
  obtain ⟨hlink, hsent⟩ := run_toLink hrun hattached
  rw [← hsent]
  exact TcpLink.carried_run hlink

/-- What the receiver has taken and can take has been delivered by the inner loop. -/
theorem handed_prefix_settled (codec : TcpCodec) (s : TcpFlow) :
    s.received ++ s.channel <+: (s.settled codec).delivered := by
  simp only [settled]
  split
  next => exact List.prefix_refl _
  next =>
    rw [TcpReader.drainLoop_eq rfl rfl]
    exact List.prefix_append _ _
  next data _ =>
    rw [TcpReader.drainLoop_eq rfl rfl]
    exact (List.prefix_append _ [data]).trans (List.prefix_append _ _)
  next => exact List.prefix_refl _

/-- Without the reading half nothing is received. -/
theorem received_of_detached {e : TcpFlowEvent} (h : step codec s e = some t)
    (hdetached : t.attached = false) : t.received = s.received := by
  cases e with
  | link e =>
      by_cases hread : ∃ event, e = .read event
      · obtain ⟨event, rfl⟩ := hread
        obtain ⟨-, chunk, -, hon⟩ := step_read h
        simp only [onRead] at hon
        split at hon
        next => cases hon; rfl
        next => cases hon; rfl
        next => split at hon <;> cases hon; rfl
        next => cases hon; rfl
        next => cases hon; rfl
      · rw [step_sender fun event heq => hread ⟨event, heq⟩] at h
        obtain ⟨u, -, rfl⟩ := Option.map_eq_some_iff.mp h
        rfl
  | decode =>
      simp only [step] at h
      split at h
      next => split at h <;> cases h <;> rfl
      next => cases h
  | deliver =>
      simp only [step] at h
      split at h
      next => (repeat' split at h) <;> cases h <;> rfl
      next => cases h
  | recv =>
      cases hbefore : s.attached with
      | true =>
          simp only [step, hbefore, if_true] at h
          split at h <;> cases h
          cases hdetached
      | false => simp [step, hbefore] at h
  | dropReader =>
      simp only [step] at h
      split at h <;> cases h
      rfl

/-- What the receiver has taken is a beginning of what was sent, even if the reading half was
dropped later. -/
theorem received_prefix (hrun : run (step codec) new es = some s) :
    s.received.flatten <+: (sent codec new es).flatten ∧
      (codec = .lengthPrefixed → s.received <+: sent codec new es) := by
  refine run_history (P := fun es s => s.received.flatten <+: (sent codec new es).flatten ∧
    (codec = .lengthPrefixed → s.received <+: sent codec new es)) ?_ ?_ hrun
  · exact ⟨List.prefix_refl _, fun _ => List.prefix_refl _⟩
  · rintro es m e u hm ⟨hflatten, hwhole⟩ hstep
    cases hattached : u.attached with
    | true =>
        obtain ⟨taken, read, h⟩ := carried_run (run_snoc hm hstep) hattached
        have hreceived : u.received <+: (u.settled codec).delivered :=
          (List.prefix_append _ _).trans (handed_prefix_settled codec u)
        exact ⟨hreceived.flatten.trans h.delivered.1, fun hc => hreceived.trans (h.delivered.2 hc)⟩
    | false =>
        rw [received_of_detached hstep hattached]
        have hgrows : sent codec new es <+: sent codec new (es ++ [e]) := by
          rw [sent, sent, outputs_concat hm]
          exact List.prefix_append _ _
        exact ⟨hflatten.trans hgrows.flatten, fun hc => (hwhole hc).trans hgrows⟩

end TcpFlow

/-! ## What can be sent -/

/-- The codec makes a frame of the payload that has a byte. -/
def TcpCodec.Sendable (codec : TcpCodec) (data : List UInt8) : Prop :=
  ∃ slices, codec.encode data [] = .ok slices ∧ slices.flatten ≠ []

/-- Without framing that is any payload but the empty one, and with it any that is not too
long. -/
theorem TcpCodec.sendable_iff {codec : TcpCodec} {data : List UInt8} : codec.Sendable data ↔
    (codec = .bytes → data ≠ []) ∧ (codec = .lengthPrefixed → data.length ≤ MAX_FRAME_LEN) := by
  cases codec with
  | bytes => simp [Sendable, encode_bytes]
  | lengthPrefixed =>
      constructor
      · rintro ⟨slices, hencode, -⟩
        exact ⟨fun hcodec => (by cases hcodec), fun _ => length_le_of_encode hencode⟩
      · rintro ⟨-, hlen⟩
        have hencode : lengthPrefixed.encode data [] =
            .ok ([] ++ [BigEndian.toBeBytes 4 data.length, data]) :=
          LengthPrefixedCodec.encode_eq_ok (hlen rfl) []
        exact ⟨_, hencode, (slices_of_encode hencode).2.mpr (.inl rfl)⟩

namespace TcpLink

variable {codec : TcpCodec} {s : TcpLink} {es : List TcpLinkEvent}

/-- What the writer has begun to write has a byte in it. -/
def HasByte (s : TcpLink) : Prop := ∀ slices, s.writer = .writing slices → slices.flatten ≠ []

theorem hasByte_ofSlices {slices : List (List UInt8)} (hwriter : s.writer = .ofSlices slices)
    (h : slices = [] ∨ slices.flatten ≠ []) : HasByte s := by
  intro left hleft
  rw [hwriter] at hleft
  cases slices with
  | nil => cases hleft
  | cons slice slices =>
      cases hleft
      exact h.resolve_left (List.cons_ne_nil _ _)

/-- If all payloads have bytes on the wire, the writer always has one to write. -/
theorem hasByte_run (hrun : run (step codec) (new none) es = some s)
    (hsent : ∀ data ∈ sent codec (new none) es, codec.Sendable data) : HasByte s := by
  refine run_history (P := fun es s =>
    (∀ data ∈ sent codec (new none) es, codec.Sendable data) → HasByte s) ?_ ?_ hrun hsent
  · intro _ slices hwriter
    cases hwriter
  · intro es m e u hm ih hstep hall
    have hbefore : ∀ data ∈ sent codec (new none) es, codec.Sendable data := by
      intro data hdata
      refine hall data ?_
      rw [sent, outputs_concat hm]
      exact List.mem_append_left _ hdata
    have hbyte := ih hbefore
    cases e with
    | send data =>
        simp only [step] at hstep
        split at hstep
        next => split at hstep <;> (cases hstep; exact hbyte)
        next => cases hstep
    | dropHandles =>
        simp only [step] at hstep
        split at hstep <;> cases hstep
        exact hbyte
    | receive =>
        simp only [step, receive] at hstep
        split at hstep
        next data rest hwriter hqueue =>
          obtain ⟨taken, read, h⟩ := carried_run hm
          have hmem : data ∈ sent codec (new none) es := by
            rw [← h.queued (by rw [hwriter]; exact fun h => by cases h), hqueue]
            exact List.mem_append_right _ List.mem_cons_self
          obtain ⟨frame, hencode, hframe⟩ := hbefore data hmem
          rw [hencode] at hstep
          cases hstep
          exact hasByte_ofSlices rfl (.inr hframe)
        next =>
          split at hstep <;> cases hstep
          exact fun slices hslices => by cases hslices
        next => cases hstep
    | write answer =>
        simp only [step] at hstep
        split at hstep
        next before hwriter =>
          cases hstep
          cases hturn : writeTurn before answer with
          | mk accepted turn =>
              cases turn with
              | left rest =>
                  exact hasByte_ofSlices rfl ((writeTurn_left hturn).2 (hbyte before hwriter))
              | ended ending => exact fun slices hslices => by cases hslices
        next => cases hstep
    | writeShutdown =>
        simp only [step] at hstep
        split at hstep <;> cases hstep
        exact fun slices hslices => by cases hslices
    | read event =>
        simp only [step] at hstep
        split at hstep
        next =>
          obtain ⟨chunk, -, rfl⟩ := Option.map_eq_some_iff.mp hstep
          exact hbyte
        next => cases hstep

/-- The decoder does not fail on what is on the wire. -/
theorem Carried.failed_drain {sent taken : List (List UInt8)} {read : List UInt8}
    (h : Carried codec sent taken read s) (hrunning : s.reader.running = true) :
    (codec.decoder.drain (s.reader.buf ++ s.transit)).failed = none := by
  cases codec with
  | bytes => exact (BytesCodec.drain_eq _).2.2
  | lengthPrefixed =>
      obtain ⟨-, hbuf, hok⟩ := h.reads.2 hrunning
      have hdrain := Decoder.drain_append LengthPrefixedCodec.incremental hok s.transit
      have hfailed := (h.drain (List.prefix_refl _)).1
      rw [hdrain, Drained.prepend_failed, ← hbuf] at hfailed
      exact hfailed

end TcpLink

namespace TcpFlow

variable {codec : TcpCodec} {s t : TcpFlow} {es : List TcpFlowEvent}

/-! ## What the reader decodes -/

/-- The decoder does not fail on a beginning of what it does not fail on. -/
theorem failed_of_append {buf more : List UInt8}
    (h : (codec.decoder.drain (buf ++ more)).failed = none) :
    (codec.decoder.drain buf).failed = none := by
  cases codec with
  | bytes => exact (BytesCodec.drain_eq buf).2.2
  | lengthPrefixed =>
      cases hfailed : (LengthPrefixedCodec.decoder.drain buf).failed with
      | none => exact hfailed
      | some e =>
          have hlater :=
            (Decoder.drain_append_of_failed LengthPrefixedCodec.incremental hfailed more).2
          exact absurd (h.symm.trans hlater) (by simp)

/-- A reader that has not stopped can decode all it has. -/
theorem failed_drain_run (hrun : run (step codec) new es = some s) (hattached : s.attached = true)
    (hreader : s.reader ≠ .stopped) : (codec.decoder.drain s.buf).failed = none := by
  refine run_history (P := fun _ s => s.attached = true → s.reader ≠ .stopped →
    (codec.decoder.drain s.buf).failed = none) ?_ ?_ hrun hattached hreader
  · intro _ _
    have hnone : codec.decoder.decode [] = .ok none := by cases codec <;> rfl
    rw [show new.buf = [] from rfl, Decoder.drain_of_none hnone]
  · intro es m e u hm ih hstep hu hrunning
    obtain ⟨hbefore, -⟩ := step_toLink hu hstep
    cases e with
    | link e =>
        by_cases hread : ∃ event, e = .read event
        · obtain ⟨event, rfl⟩ := hread
          obtain ⟨hwaiting, chunk, hreadable, hon⟩ := step_read hstep
          -- Only a read of some bytes does not stop the task.
          obtain ⟨rest, hrest⟩ := (TcpLink.readable_eq_some hreadable).1
          obtain ⟨taken, read, h⟩ := carried_run hm hbefore
          have hsettled : m.settled codec = ⟨m.buf, m.received ++ m.channel, none, true⟩ := by
            simp only [settled, hwaiting]
          have hdrain := h.failed_drain (by simp only [toLink, hsettled])
          simp only [toLink, hsettled] at hdrain
          rw [← hrest, ← List.append_assoc] at hdrain
          simp only [onRead] at hon
          split at hon
          next => cases hon; exact absurd rfl hrunning
          next =>
            cases hon
            simp only [TcpLink.readable] at hreadable
            split at hreadable <;> cases hreadable
            exact failed_of_append hdrain
          next =>
            rw [if_pos hbefore] at hon
            cases hon
          next => cases hon; exact absurd rfl hrunning
          next => cases hon; exact absurd rfl hrunning
        · rw [step_sender fun event heq => hread ⟨event, heq⟩] at hstep
          obtain ⟨v, -, rfl⟩ := Option.map_eq_some_iff.mp hstep
          exact ih hbefore hrunning
    | decode =>
        simp only [step] at hstep
        split at hstep
        next hdecoding =>
          have hok := ih hbefore (by rw [hdecoding]; exact fun h => by cases h)
          split at hstep
          next => cases hstep; exact absurd rfl hrunning
          next => cases hstep; exact hok
          next data rest hsome =>
            cases hstep
            rw [Decoder.drain_of_some hsome] at hok
            exact hok
        next => cases hstep
    | deliver =>
        simp only [step, hbefore, if_true] at hstep
        split at hstep
        next data hsending =>
          split at hstep <;> cases hstep
          exact ih hbefore (by rw [hsending]; exact fun h => by cases h)
        next => cases hstep
    | recv =>
        simp only [step, hbefore, if_true] at hstep
        split at hstep
        next => cases hstep; exact ih hbefore hrunning
        next => cases hstep
    | dropReader =>
        simp only [step, hbefore, if_true] at hstep
        cases hstep
        cases hu

/-! ## Turns -/

/-- The tasks and the receiver do their work over a connection that holds so many bytes: the
writer takes a payload, the socket takes some bytes of it for which there is room, the reader
reads some, decodes and hands on, and the receiver receives. -/
def works (room : Nat) (s : TcpFlow) : TcpFlowEvent → Bool
  | .link .receive => !s.queue.isEmpty
  | .link (.write (.ok n)) =>
      decide (0 < n ∧ n ≤ s.writer.left.flatten.length ∧ s.transit.length + n ≤ room)
  | .link (.read (.read (_ :: _))) => true
  | .decode => true
  | .deliver => true
  | .recv => true
  | _ => false

/-- What the place of the read task adds to the work. -/
def phaseWork : ReaderPhase → Nat
  | .waiting => 0
  | .decoding => 1
  | .sending _ => 3
  | .stopped => 0

/-- A bound on the turns that are left.  A byte moves from the writer to the wire, to the buffer
and into a payload, and each of these places is cheaper than the one before. -/
def work (codec : TcpCodec) (s : TcpFlow) : Nat :=
  (s.queue.map fun data => 1 + 6 * (codec.frame data).length).sum +
    6 * s.writer.left.flatten.length + 5 * s.transit.length + 3 * s.buf.length +
    s.channel.length + phaseWork s.reader

/-- The flow is where a run has led in which these payloads were sent, its tasks run, and the
reading half is left. -/
structure Live (codec : TcpCodec) (payloads : List (List UInt8)) (s : TcpFlow) : Prop where
  run : ∃ es, Transition.run (step codec) new es = some s ∧ sent codec new es = payloads
  writer : s.writer ≠ .stopped
  reader : s.reader ≠ .stopped
  attached : s.attached = true

variable {room : Nat} {payloads : List (List UInt8)}

/-- What has to be written and is not stopped can be written. -/
theorem Live.queue (h : Live codec payloads s)
    (hpayloads : ∀ data ∈ payloads, codec.Sendable data) :
    ∀ data ∈ s.queue, codec.Sendable data := by
  obtain ⟨es, hrun, rfl⟩ := h.run
  obtain ⟨taken, read, hcarried⟩ := carried_run hrun h.attached
  intro data hdata
  refine hpayloads data ?_
  rw [← hcarried.queued h.writer]
  exact List.mem_append_right _ hdata

theorem Live.hasByte (h : Live codec payloads s)
    (hpayloads : ∀ data ∈ payloads, codec.Sendable data) :
    ∀ slices, s.writer = .writing slices → slices.flatten ≠ [] := by
  obtain ⟨es, hrun, rfl⟩ := h.run
  obtain ⟨hlink, hsent⟩ := run_toLink hrun h.attached
  exact TcpLink.hasByte_run hlink (hsent ▸ hpayloads)

/-- A write that takes some of the bytes that are left. -/
theorem writeTurn_of_le {slices : List (List UInt8)} {n : Nat} (hpos : 0 < n)
    (hle : n ≤ slices.flatten.length) : ∃ rest,
      writeTurn slices (.ok n) = (slices.flatten.take n, .left rest) ∧
        rest.flatten = slices.flatten.drop n := by
  obtain ⟨rest, hadvance, hflatten, -⟩ := advanceSlices_spec hle
  obtain ⟨m, rfl⟩ := Nat.exists_eq_succ_of_ne_zero hpos.ne'
  refine ⟨rest, ?_, hflatten⟩
  simp only [writeTurn, hadvance]

theorem ofSlices_ne_stopped (slices : List (List UInt8)) :
    WriterPhase.ofSlices slices ≠ .stopped := by
  cases slices <;> simp [WriterPhase.ofSlices]

/-- A turn that leaves less to do, and stops nobody. -/
structure Turned (codec : TcpCodec) (s t : TcpFlow) : Prop where
  writer : t.writer ≠ .stopped
  reader : t.reader ≠ .stopped
  attached : t.attached = true
  work : t.work codec < s.work codec

/-- The writer takes a payload. -/
theorem turned_receive (hlive : Live codec payloads s)
    (hpayloads : ∀ data ∈ payloads, codec.Sendable data) (hqueue : s.queue ≠ [])
    (h : step codec s (.link .receive) = some t) : Turned codec s t := by
  rw [step_sender (fun _ heq => by cases heq)] at h
  obtain ⟨u, hu, rfl⟩ := Option.map_eq_some_iff.mp h
  simp only [TcpLink.step, TcpLink.receive, sender] at hu
  split at hu
  next data rest hwriter hsplit =>
    obtain ⟨slices, hencode, -⟩ := hlive.queue hpayloads data (by simp [hsplit])
    rw [hencode] at hu
    cases hu
    refine ⟨ofSlices_ne_stopped slices, hlive.reader, hlive.attached, ?_⟩
    have hframe := TcpCodec.frame_of_encode hencode
    simp only [TcpFlow.work, withSender, hsplit, WriterPhase.left_ofSlices, List.map_cons,
      List.sum_cons, hframe]
    omega
  next hsplit => exact absurd hsplit hqueue
  next => cases hu

/-- The socket takes some bytes. -/
theorem turned_write (hlive : Live codec payloads s) {n : Nat} (hpos : 0 < n)
    (hle : n ≤ s.writer.left.flatten.length)
    (h : step codec s (.link (.write (.ok n))) = some t) : Turned codec s t := by
  rw [step_sender (fun _ heq => by cases heq)] at h
  obtain ⟨u, hu, rfl⟩ := Option.map_eq_some_iff.mp h
  simp only [TcpLink.step, sender] at hu
  split at hu
  next slices hwriter =>
    have hslices : s.writer.left = slices := by rw [hwriter]; rfl
    rw [hslices] at hle
    obtain ⟨rest, hturn, hrest⟩ := writeTurn_of_le hpos hle
    simp only [hturn] at hu
    cases hu
    refine ⟨ofSlices_ne_stopped rest, hlive.reader, hlive.attached, ?_⟩
    simp only [TcpFlow.work, withSender, WriterPhase.left_ofSlices, hslices, hrest,
      List.length_append, List.length_take, List.length_drop]
    omega
  next => cases hu

/-- The reader reads some bytes. -/
theorem turned_read (hlive : Live codec payloads s) {byte : UInt8} {chunk : List UInt8}
    (h : step codec s (.link (.read (.read (byte :: chunk)))) = some t) : Turned codec s t := by
  obtain ⟨hwaiting, bytes, hreadable, hon⟩ := step_read h
  obtain ⟨hbegins, -⟩ := TcpLink.readable_eq_some hreadable
  simp only [TcpLink.readable] at hreadable
  split at hreadable <;> cases hreadable
  cases hon
  refine ⟨hlive.writer, fun heq => (by cases heq), hlive.attached, ?_⟩
  have hlen : (byte :: chunk).length ≤ s.transit.length := hbegins.length_le
  rw [List.length_cons] at hlen
  simp only [TcpFlow.work, hwaiting, phaseWork, List.length_append, List.length_drop,
    List.length_cons]
  omega

/-- The reader decodes, and does not fail. -/
theorem turned_decode (hlive : Live codec payloads s) (h : step codec s .decode = some t) :
    Turned codec s t := by
  obtain ⟨es, hrun, -⟩ := hlive.run
  have hok := failed_drain_run hrun hlive.attached hlive.reader
  simp only [step] at h
  split at h
  next hdecoding =>
    split at h
    next e he =>
      rw [Decoder.drain_of_error he] at hok
      cases hok
    next =>
      cases h
      refine ⟨hlive.writer, fun heq => (by cases heq), hlive.attached, ?_⟩
      simp only [TcpFlow.work, hdecoding, phaseWork]
      omega
    next data rest hsome =>
      cases h
      refine ⟨hlive.writer, fun heq => (by cases heq), hlive.attached, ?_⟩
      have hshrinks := codec.decoder.shrinks hsome
      simp only [TcpFlow.work, hdecoding, phaseWork]
      omega
  next => cases h

/-- A payload is handed on. -/
theorem turned_deliver (hlive : Live codec payloads s) (h : step codec s .deliver = some t) :
    Turned codec s t := by
  simp only [step, hlive.attached, if_true] at h
  split at h
  next data hsending =>
    split at h <;> cases h
    refine ⟨hlive.writer, fun heq => (by cases heq), rfl, ?_⟩
    simp only [TcpFlow.work, hsending, phaseWork, List.length_append, List.length_singleton]
    omega
  next => cases h

/-- A payload is received. -/
theorem turned_recv (hlive : Live codec payloads s) (h : step codec s .recv = some t) :
    Turned codec s t := by
  simp only [step, hlive.attached, if_true] at h
  split at h
  next data rest hchannel =>
    cases h
    refine ⟨hlive.writer, hlive.reader, rfl, ?_⟩
    simp only [TcpFlow.work, hchannel, List.length_cons]
    omega
  next => cases h

theorem turned_of_works (hpayloads : ∀ data ∈ payloads, codec.Sendable data) {e : TcpFlowEvent}
    (hworks : s.works room e = true) (h : step codec s e = some t) (hlive : Live codec payloads s) :
    accepted s e = none ∧ Turned codec s t := by
  simp only [works] at hworks
  split at hworks
  next => exact ⟨rfl, turned_receive hlive hpayloads (by simpa using hworks) h⟩
  next =>
    rw [decide_eq_true_eq] at hworks
    exact ⟨rfl, turned_write hlive hworks.1 hworks.2.1 h⟩
  next => exact ⟨rfl, turned_read hlive h⟩
  next => exact ⟨rfl, turned_decode hlive h⟩
  next => exact ⟨rfl, turned_deliver hlive h⟩
  next => exact ⟨rfl, turned_recv hlive h⟩
  next => cases hworks

/-- A flow stays where such runs lead. -/
theorem live_step (hpayloads : ∀ data ∈ payloads, codec.Sendable data) {e : TcpFlowEvent}
    (hworks : s.works room e = true) (h : step codec s e = some t) (hlive : Live codec payloads s) :
    Live codec payloads t ∧ t.work codec < s.work codec := by
  obtain ⟨hnone, hturned⟩ := turned_of_works hpayloads hworks h hlive
  obtain ⟨es, hrun, hsent⟩ := hlive.run
  refine ⟨⟨⟨es ++ [e], run_snoc hrun h, ?_⟩, hturned.writer, hturned.reader, hturned.attached⟩,
    hturned.work⟩
  rw [sent, outputs_concat hrun, hnone, Option.toList_none, List.append_nil]
  exact hsent

theorem exists_works {e : TcpFlowEvent} (hworks : s.works room e = true)
    (h : (step codec s e).isSome = true) :
    ∃ e t, s.works room e = true ∧ step codec s e = some t := by
  obtain ⟨t, ht⟩ := Option.isSome_iff_exists.mp h
  exact ⟨e, t, hworks, ht⟩

/-- When nothing is under way, the sending side can go on, unless it has nothing to do. -/
theorem sender_works (hroom : 0 < room) (hpayloads : ∀ data ∈ payloads, codec.Sendable data)
    (hlive : Live codec payloads s) (htransit : s.transit = []) :
    s.queue = [] ∧ s.writer = .receiving ∨
      ∃ e t, s.works room e = true ∧ step codec s e = some t := by
  cases hwriter : s.writer with
  | stopped => exact absurd hwriter hlive.writer
  | writing slices =>
      have hpos := List.length_pos_of_ne_nil (hlive.hasByte hpayloads slices hwriter)
      refine .inr (exists_works (e := .link (.write (.ok (min room slices.flatten.length)))) ?_ ?_)
      · simp only [works, hwriter, WriterPhase.left, htransit, List.length_nil, Nat.zero_add,
          decide_eq_true_eq]
        exact ⟨Nat.lt_min.mpr ⟨hroom, hpos⟩, Nat.min_le_right _ _, Nat.min_le_left _ _⟩
      · simp only [step, sender, TcpLink.step, hwriter, Option.map_some, Option.isSome_some]
  | receiving =>
      cases hqueue : s.queue with
      | nil => exact .inl ⟨rfl, rfl⟩
      | cons data rest =>
          obtain ⟨slices, hencode, -⟩ := hlive.queue hpayloads data (by simp [hqueue])
          refine .inr (exists_works (e := .link .receive) (by simp [works, hqueue]) ?_)
          simp only [step, sender, TcpLink.step, TcpLink.receive, hwriter, hqueue, hencode,
            Option.map_some, Option.isSome_some]

/-- If there is something left to do, somebody can do something. -/
theorem quiet_or_works (hroom : 0 < room) (hpayloads : ∀ data ∈ payloads, codec.Sendable data)
    (hlive : Live codec payloads s) :
    s.Quiet ∨ ∃ e t, s.works room e = true ∧ step codec s e = some t := by
  cases hchannel : s.channel with
  | cons data rest =>
      refine .inr (exists_works (e := .recv) rfl ?_)
      simp only [step, hlive.attached, if_true, hchannel, Option.isSome_some]
  | nil =>
      cases hreader : s.reader with
      | stopped => exact absurd hreader hlive.reader
      | decoding =>
          refine .inr (exists_works (e := .decode) rfl ?_)
          simp only [step, hreader]
          split <;> rfl
      | sending data =>
          -- The channel is empty, so there is room in it.
          refine .inr (exists_works (e := .deliver) rfl ?_)
          simp only [step, hreader, hlive.attached, if_true, hchannel, List.length_nil]
          rfl
      | waiting =>
          cases htransit : s.transit with
          | cons byte chunk =>
              refine .inr (exists_works (e := .link (.read (.read (byte :: chunk)))) rfl ?_)
              simp only [step, hreader, TcpLink.readable, sender, htransit, List.prefix_refl,
                if_true, Option.bind_some]
              rfl
          | nil =>
              refine (sender_works hroom hpayloads hlive htransit).imp_left ?_
              rintro ⟨hqueue, hwriter⟩
              exact ⟨hqueue, hwriter, htransit, hreader, hchannel⟩

/-- Nothing is left to do, and the receiver has everything that was sent: the bytes, and with
framing the payloads one by one. -/
structure Complete (codec : TcpCodec) (payloads : List (List UInt8)) (s : TcpFlow) : Prop where
  quiet : s.Quiet
  bytes : s.received.flatten = payloads.flatten
  whole : codec = .lengthPrefixed → s.received = payloads

theorem Live.complete (h : Live codec payloads s) (hquiet : s.Quiet) :
    Complete codec payloads s := by
  obtain ⟨es, hrun, rfl⟩ := h.run
  obtain ⟨taken, read, hcarried⟩ := carried_run hrun h.attached
  have ⟨hqueue, hwriter, htransit, hreader, hchannel⟩ := hquiet
  have hsettled : s.settled codec = ⟨s.buf, s.received, none, true⟩ := by
    simp only [settled, hreader, hchannel, List.append_nil]
  have hlink : (s.toLink codec).Quiet := ⟨hqueue, hwriter, htransit⟩
  have hdelivered := hcarried.delivered_of_quiet hlink (by simp only [toLink, hsettled])
  simp only [toLink, hsettled] at hdelivered
  exact ⟨hquiet, hdelivered.1, hdelivered.2⟩

/-- A tunnel does not wedge, however little the connection holds.  Take any state in which both
tasks run and the reading half is left, after any payloads that the codec makes frames with
bytes of.  The tasks and the receiver can bring everything that was sent to the receiver.  And
in whatever order they take their turns, there are at most `work` of these, and when nobody can
go on, everything was received. -/
theorem tcp_flow_drains (codec : TcpCodec) (hroom : 0 < room)
    (hrun : run (step codec) new es = some s) (hwriter : s.writer ≠ .stopped)
    (hreader : s.reader ≠ .stopped) (hattached : s.attached = true)
    (hsent : ∀ data ∈ sent codec new es, codec.Sendable data) :
    (∃ fs t, run (step codec) s fs = some t ∧
      Along (step codec) (fun s e => s.works room e = true) s fs ∧
      Complete codec (sent codec new es) t) ∧
    ∀ fs t, run (step codec) s fs = some t →
      Along (step codec) (fun s e => s.works room e = true) s fs →
      fs.length + t.work codec ≤ s.work codec ∧
        (Complete codec (sent codec new es) t ∨
          ∃ e u, t.works room e = true ∧ step codec t e = some u) := by
  have hlive : Live codec (sent codec new es) s := ⟨⟨es, hrun, rfl⟩, hwriter, hreader, hattached⟩
  have hkeep : ∀ s e t, s.works room e = true → step codec s e = some t →
      Live codec (sent codec new es) s →
      Live codec (sent codec new es) t ∧ t.work codec < s.work codec :=
    fun s e t hworks h => live_step hsent hworks h
  have hprogress : ∀ t, Live codec (sent codec new es) t →
      Complete codec (sent codec new es) t ∨
        ∃ e u, t.works room e = true ∧ step codec t e = some u :=
    fun t ht => (quiet_or_works hroom hsent ht).imp_left ht.complete
  refine ⟨exists_run_of_measure hkeep hprogress hlive, fun fs t hfs halong => ?_⟩
  obtain ⟨ht, hlen⟩ := length_le_of_measure hkeep hfs halong hlive
  exact ⟨hlen, hprogress t ht⟩

/-- Two payloads, written in parts.  The first has been decoded and waits for the receiver, and
the reader has a part of the second. -/
def interruptedFlow : List TcpFlowEvent :=
  [.link (.send [7]), .link (.send [8, 9]), .link .receive, .link (.write (.ok 3)),
    .link (.write (.error ⟨.interrupted, ""⟩)), .link (.write (.ok 2)), .link .receive,
    .link (.write (.ok 5)), .link (.read (.read [0, 0, 0, 1, 7, 0, 0])), .decode, .deliver, .decode]

/-- Both are received in the end, even if the connection holds one byte only. -/
theorem tcp_flow_drains_interrupted :
    ∃ s, run (step .lengthPrefixed) new interruptedFlow = some s ∧ s.received = [] ∧
      ∃ fs t, run (step .lengthPrefixed) s fs = some t ∧ t.received = [[7], [8, 9]] := by
  obtain ⟨s, hs, hwriter, hreader, hattached, hreceived⟩ :
      ∃ s, run (step .lengthPrefixed) new interruptedFlow = some s ∧
        s.writer ≠ .stopped ∧ s.reader ≠ .stopped ∧ s.attached = true ∧ s.received = [] := by
    decide +kernel
  have hroom : 0 < 1 := by decide
  have hsent : sent .lengthPrefixed new interruptedFlow = [[7], [8, 9]] := by
    decide +kernel
  have hsendable : ∀ data ∈ sent .lengthPrefixed new interruptedFlow,
      TcpCodec.lengthPrefixed.Sendable data := by
    rw [hsent]
    intro data hdata
    rcases List.mem_cons.mp hdata with rfl | hdata
    · exact ⟨[[0, 0, 0, 1], [7]], by decide, by decide⟩
    · rw [List.mem_singleton.mp hdata]
      exact ⟨[[0, 0, 0, 2], [8, 9]], by decide, by decide⟩
  obtain ⟨⟨fs, t, hfs, -, hcomplete⟩, -⟩ :=
    tcp_flow_drains .lengthPrefixed hroom hs hwriter hreader hattached hsendable
  exact ⟨s, hs, hreceived, fs, t, hfs, (hcomplete.whole rfl).trans hsent⟩

end TcpFlow

end RustP2p
