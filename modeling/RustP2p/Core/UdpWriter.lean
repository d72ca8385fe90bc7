import RustP2p.Core.Addr
import RustP2p.Lib.Transition

/-!
# The UDP write task

The task of `endpoint/pool.rs` that sends the queued datagrams of a socket.  There are
two versions.  `run_udp_writer_single` sends one message after the other, and
`run_udp_writer_mmsg` takes up to 16 from the queue and sends them with `sendmmsg`.

A batch has several ways on.  The kernel may accept only a part of it.  When it
accepts nothing, the first message is sent alone, and so is the last one that is left.
`sent` counts the messages of the batch that have their outcome.

What becomes of the messages does not tell the versions apart: each run of the second
is a run of the first (`Follows`, `udp_writer_refines`).  `MmsgPhase.left` bounds what
is left to do for a batch.
-/

namespace RustP2p

/-! ## Messages and their outcomes -/

/-- `UDP_BATCH_SIZE`. -/
def UDP_BATCH_SIZE : Nat := 16

/-- The data and the address it is for. -/
abbrev UdpMessage := List UInt8 × SocketAddr

/-- What became of a message. -/
inductive UdpOutcome where
  /-- Accepted by `sendmmsg`. -/
  | batched
  /-- The result of its `send_to`. -/
  | single (result : IoResult Nat)
deriving DecidableEq

/-- The result that `send_to` has when it does the same. -/
def UdpOutcome.result (data : List UInt8) : UdpOutcome → IoResult Nat
  | batched => .ok data.length
  | single result => result

/-- What `libc::sendmmsg` returns: how many messages it accepted, or the error. -/
inductive SendmmsgAnswer where
  | accepted (count : Nat)
  | error (e : IoError)
deriving DecidableEq

/-- The kernel accepts no more messages than it is offered. -/
def SendmmsgAnswer.Fits (offered : Nat) : SendmmsgAnswer → Prop
  | accepted count => count ≤ offered
  | error _ => True

instance (offered : Nat) (answer : SendmmsgAnswer) : Decidable (answer.Fits offered) :=
  match answer with
  | .accepted count => inferInstanceAs (Decidable (count ≤ offered))
  | .error _ => isTrue trivial

/-- One turn of the loop of `send_mmsg`, with the answer of the kernel.  It goes on when there
is no result. -/
def sendMmsg (buffers : List UdpMessage) : SendmmsgAnswer → Option (IoResult Nat)
  | answer =>
      if min buffers.length UDP_BATCH_SIZE = 0 then
        some (.error ⟨.invalidInput, "sendmmsg requires at least one message"⟩)
      else
        match answer with
        | .accepted 0 => some (.error ⟨.writeZero, "write zero"⟩)
        | .accepted count => some (.ok count)
        | .error e => if e.kind = .interrupted then none else some (.error e)

/-! ## The tasks -/

/-- What can happen to the write task. -/
inductive UdpWriterEvent where
  /-- A message enters the queue. -/
  | queued (message : UdpMessage)
  /-- All senders are gone. -/
  | closed
  | shutdown
  /-- `recv` comes to its end. -/
  | recv
  | tryRecv
  /-- The kernel answers `sendmmsg`. -/
  | sendmmsg (answer : SendmmsgAnswer)
  /-- `send_to` comes to its end. -/
  | sendTo (result : IoResult Nat)
deriving DecidableEq

namespace UdpWriterEvent

/-- The message that enters the queue. -/
def message : UdpWriterEvent → Option UdpMessage
  | queued message => some message
  | _ => none

/-- The event, if it is no step of the task. -/
def outside : UdpWriterEvent → Option UdpWriterEvent
  | queued message => some (queued message)
  | closed => some closed
  | shutdown => some shutdown
  | _ => none

/-- The event is a step of the task, and not one after which the task asks the kernel again. -/
def isProgress : UdpWriterEvent → Bool
  | recv => true
  | tryRecv => true
  | sendmmsg (.accepted _) => true
  | sendmmsg (.error e) => e.kind ≠ .interrupted ∧ e.kind ≠ .wouldBlock
  | sendTo _ => true
  | _ => false

theorem message_outside (es : List UdpWriterEvent) :
    (es.filterMap outside).filterMap message = es.filterMap message := by
  rw [List.filterMap_filterMap]
  congr 1
  funext e
  cases e <;> rfl

end UdpWriterEvent

/-- A write task: its queue, where it stands, and the messages it is done with, each with its
outcome. -/
structure UdpWriter (Phase Outcome : Type) where
  queue : List UdpMessage
  closed : Bool
  phase : Phase
  outcomes : List (UdpMessage × Outcome)
deriving DecidableEq

namespace UdpWriter

variable {Phase Outcome : Type}

/-- A message enters the queue, while there are senders. -/
def push (w : UdpWriter Phase Outcome) (message : UdpMessage) : Option (UdpWriter Phase Outcome) :=
  if w.closed then none else some { w with queue := w.queue ++ [message] }

/-- The task goes on after the outcome of a message. -/
def finish (w : UdpWriter Phase Outcome) (message : UdpMessage) (outcome : Outcome)
    (phase : Phase) : UdpWriter Phase Outcome :=
  { w with phase := phase, outcomes := w.outcomes ++ [(message, outcome)] }

end UdpWriter

/-- Where `run_udp_writer_single` stands. -/
inductive SinglePhase where
  | receiving
  | sending (message : UdpMessage)
  | stopped
deriving DecidableEq

/-- The task of `run_udp_writer_single`. -/
abbrev SingleWriter := UdpWriter SinglePhase (IoResult Nat)

namespace SingleWriter

/-- A new task. -/
def new : SingleWriter := ⟨[], false, .receiving, []⟩

/-- A step of `run_udp_writer_single`.  Its `send_to` is not interrupted by a shutdown. -/
def step (w : SingleWriter) : UdpWriterEvent → Option SingleWriter
  | .queued message => w.push message
  | .closed => some { w with closed := true }
  | .shutdown =>
      match w.phase with
      | .receiving => some { w with phase := .stopped }
      | _ => none
  | .recv =>
      match w.phase, w.queue with
      | .receiving, message :: rest => some { w with queue := rest, phase := .sending message }
      | .receiving, [] => if w.closed then some { w with phase := .stopped } else none
      | _, _ => none
  | .sendTo result =>
      match w.phase with
      | .sending message => some (w.finish message result .receiving)
      | _ => none
  | _ => none

end SingleWriter

/-- Where `run_udp_writer_mmsg` stands. -/
inductive MmsgPhase where
  /-- It waits for the first message of a batch. -/
  | receiving
  /-- In the loop that calls `try_recv`. -/
  | filling (batch : List UdpMessage)
  /-- At the top of the inner loop. -/
  | sending (batch : List UdpMessage) (sent : Nat)
  /-- `sendmmsg` failed, and the first message is sent alone. -/
  | retrying (batch : List UdpMessage) (sent : Nat)
  | stopped
deriving DecidableEq

namespace MmsgPhase

/-- The top of the inner loop or, after its end, that of the outer loop. -/
def resume (batch : List UdpMessage) (sent : Nat) : MmsgPhase :=
  if sent < batch.length then sending batch sent else receiving

/-- The messages that were taken from the queue and have no outcome yet. -/
def held : MmsgPhase → List UdpMessage
  | filling batch => batch
  | sending batch sent => batch.drop sent
  | retrying batch sent => batch.drop sent
  | _ => []

/-- Between the first message of a batch and the end of the inner loop. -/
def Busy : MmsgPhase → Prop
  | receiving => False
  | stopped => False
  | _ => True

/-- How many steps a batch takes at most. -/
def left : MmsgPhase → Nat
  | filling batch => 2 * UDP_BATCH_SIZE + 1 + (UDP_BATCH_SIZE - batch.length)
  | sending batch sent => 2 * (batch.length - sent)
  | retrying batch sent => 2 * (batch.length - sent) - 1
  | _ => 0

end MmsgPhase

/-- The task of `run_udp_writer_mmsg`. -/
abbrev MmsgWriter := UdpWriter MmsgPhase UdpOutcome

namespace MmsgWriter

/-- A new task. -/
def new : MmsgWriter := ⟨[], false, .receiving, []⟩

/-- The messages without an outcome, in their order. -/
def pending (w : MmsgWriter) : List UdpMessage := w.phase.held ++ w.queue

/-- The message at index `sent` was sent alone.  Indexing panics outside the batch. -/
def sentAlone (w : MmsgWriter) (batch : List UdpMessage) (sent : Nat) (result : IoResult Nat) :
    Option MmsgWriter :=
  batch[sent]?.map fun message =>
    w.finish message (.single result) (.resume batch (sent + 1))

/-- The inner loop after an answer of the kernel to `sendmmsg`.  `async_io` waits and asks
again when the socket would block. -/
def answered (w : MmsgWriter) (batch : List UdpMessage) (sent : Nat) (answer : SendmmsgAnswer) :
    MmsgWriter :=
  match sendMmsg (batch.drop sent) answer with
  | none => w
  | some (.ok count) =>
      { w with
        phase := .resume batch (sent + count)
        outcomes := w.outcomes ++ ((batch.drop sent).take count).map fun m => (m, .batched) }
  | some (.error e) =>
      if e.kind = .wouldBlock then w else { w with phase := .retrying batch sent }

/-- A step of `run_udp_writer_mmsg`. -/
def step (w : MmsgWriter) : UdpWriterEvent → Option MmsgWriter
  | .queued message => w.push message
  | .closed => some { w with closed := true }
  | .shutdown =>
      match w.phase with
      | .filling _ => none
      | .stopped => none
      | _ => some { w with phase := .stopped }
  | .recv =>
      match w.phase, w.queue with
      | .receiving, first :: rest => some { w with queue := rest, phase := .filling [first] }
      | .receiving, [] => if w.closed then some { w with phase := .stopped } else none
      | _, _ => none
  | .tryRecv =>
      match w.phase with
      | .filling batch =>
          if batch.length < UDP_BATCH_SIZE then
            match w.queue with
            | message :: rest =>
                some { w with queue := rest, phase := .filling (batch ++ [message]) }
            | [] => some { w with phase := .resume batch 0 }
          else some { w with phase := .resume batch 0 }
      | _ => none
  | .sendmmsg answer =>
      match w.phase with
      | .sending batch sent =>
          if batch.length - sent = 1 then none
          else if answer.Fits (min (batch.drop sent).length UDP_BATCH_SIZE) then
            some (w.answered batch sent answer)
          else none
      | _ => none
  | .sendTo result =>
      match w.phase with
      | .sending batch sent =>
          if batch.length - sent = 1 then w.sentAlone batch sent result else none
      | .retrying batch sent => w.sentAlone batch sent result
      | _ => none

end MmsgWriter

/-! ## The plain writer -/

namespace SingleWriter

open Transition

/-- The message in `send_to`. -/
def held (w : SingleWriter) : List UdpMessage :=
  match w.phase with
  | .sending message => [message]
  | _ => []

/-- The messages that were queued are those with an outcome and, behind them, the others. -/
theorem accounted_run {es : List UdpWriterEvent} {w : SingleWriter}
    (hrun : run step new es = some w) :
    es.filterMap UdpWriterEvent.message = w.outcomes.map Prod.fst ++ (w.held ++ w.queue) := by
  refine run_history (P := fun es w => es.filterMap UdpWriterEvent.message =
    w.outcomes.map Prod.fst ++ (w.held ++ w.queue)) rfl ?_ hrun
  intro es w e w' _ ih hstep
  rw [List.filterMap_append, ih]
  cases e with
  | queued message =>
      simp only [step, UdpWriter.push] at hstep
      split at hstep
      next => cases hstep
      next =>
        cases hstep
        simp [held, UdpWriterEvent.message]
  | closed =>
      cases hstep
      simp [held, UdpWriterEvent.message]
  | shutdown =>
      simp only [step] at hstep
      split at hstep
      next hphase =>
        cases hstep
        simp [held, hphase, UdpWriterEvent.message]
      next => cases hstep
  | recv =>
      simp only [step] at hstep
      split at hstep
      next hphase hqueue =>
        cases hstep
        simp [held, hphase, hqueue, UdpWriterEvent.message]
      next hphase hqueue =>
        split at hstep
        next =>
          cases hstep
          simp [held, hphase, UdpWriterEvent.message]
        next => cases hstep
      next => cases hstep
  | tryRecv => cases hstep
  | sendmmsg answer => cases hstep
  | sendTo result =>
      simp only [step] at hstep
      split at hstep
      next hphase =>
        cases hstep
        simp [held, hphase, UdpWriter.finish, UdpWriterEvent.message]
      next => cases hstep

/-- The steps that give messages these results. -/
def sends (done : List (UdpMessage × IoResult Nat)) : List UdpWriterEvent :=
  done.flatMap fun d => [.recv, .sendTo d.2]

theorem outside_sends (done : List (UdpMessage × IoResult Nat)) :
    (sends done).filterMap UdpWriterEvent.outside = [] := by
  induction done with
  | nil => rfl
  | cons d done ih => exact ih

theorem run_sends {w : SingleWriter} {done : List (UdpMessage × IoResult Nat)}
    {rest : List UdpMessage} (hphase : w.phase = .receiving)
    (hqueue : w.queue = done.map Prod.fst ++ rest) :
    run step w (sends done) =
      some { w with queue := rest, outcomes := w.outcomes ++ done } := by
  induction done generalizing w with
  | nil =>
      obtain ⟨queue, closed, phase, outcomes⟩ := w
      cases hqueue
      rw [List.append_nil]
      rfl
  | cons d done ih =>
      obtain ⟨queue, closed, phase, outcomes⟩ := w
      cases hphase
      cases hqueue
      have hnext :=
        ih (w := ⟨done.map Prod.fst ++ rest, closed, .receiving, outcomes ++ [d]⟩) rfl rfl
      rw [List.append_assoc] at hnext
      exact hnext

end SingleWriter

/-! ## What a step of the batched writer does -/

namespace MmsgPhase

/-- A batch has at most 16 messages, and some of them have no outcome yet. -/
def Valid : MmsgPhase → Prop
  | filling batch => 0 < batch.length ∧ batch.length ≤ UDP_BATCH_SIZE
  | sending batch sent => sent < batch.length ∧ batch.length ≤ UDP_BATCH_SIZE
  | retrying batch sent => sent < batch.length ∧ batch.length ≤ UDP_BATCH_SIZE
  | _ => True

variable {batch : List UdpMessage} {sent : Nat}

theorem Busy.ne_stopped {phase : MmsgPhase} (h : phase.Busy) : phase ≠ stopped := by
  rintro rfl
  exact h

theorem valid_resume (h : batch.length ≤ UDP_BATCH_SIZE) : (resume batch sent).Valid := by
  simp only [resume]
  split
  next hsent => exact ⟨hsent, h⟩
  next => trivial

theorem held_resume : (resume batch sent).held = batch.drop sent := by
  simp only [resume]
  split
  next => rfl
  next hsent => exact (List.drop_eq_nil_of_le (Nat.le_of_not_lt hsent)).symm

theorem left_resume : (resume batch sent).left = 2 * (batch.length - sent) := by
  simp only [resume]
  split
  next => rfl
  next hsent =>
    simp only [left]
    omega

theorem resume_ne_stopped : resume batch sent ≠ stopped := by
  simp only [resume]
  split <;> (intro h; cases h)

end MmsgPhase

namespace MmsgWriter

open Transition MmsgPhase

/-- The steps of the batched writer, by what they do to the messages. -/
inductive Move (w : MmsgWriter) : UdpWriterEvent → MmsgWriter → Prop where
  | queued {message : UdpMessage} (opened : w.closed = false) :
      Move w (.queued message) { w with queue := w.queue ++ [message] }
  | closed : Move w .closed { w with closed := true }
  | shutdown : Move w .shutdown { w with phase := .stopped }
  | stopped (phase : w.phase = .receiving) (queue : w.queue = []) (closed : w.closed = true) :
      Move w .recv { w with phase := .stopped }
  /-- A message goes from the queue into the batch, or the batch is complete. -/
  | taken {e : UdpWriterEvent} {queue : List UdpMessage} {phase : MmsgPhase}
      (outside : e.outside = none) (running : w.phase ≠ .stopped)
      (same : phase.held ++ queue = w.pending) (valid : phase.Valid) (going : phase ≠ .stopped)
      (less : w.phase.Busy → phase.left < w.phase.left) :
      Move w e { w with queue := queue, phase := phase }
  /-- The kernel is asked again, or the first message is to be sent alone. -/
  | asked {answer : SendmmsgAnswer} {phase : MmsgPhase} (running : w.phase ≠ .stopped)
      (same : phase.held = w.phase.held) (valid : phase.Valid) (going : phase ≠ .stopped)
      (less : phase.left ≤ w.phase.left)
      (progress : UdpWriterEvent.isProgress (.sendmmsg answer) = true →
        phase.left < w.phase.left) :
      Move w (.sendmmsg answer) { w with phase := phase }
  /-- Some messages get their outcome. -/
  | done {e : UdpWriterEvent} {phase : MmsgPhase} {done : List (UdpMessage × UdpOutcome)}
      (outside : e.outside = none) (same : done.map Prod.fst ++ phase.held = w.phase.held)
      (valid : phase.Valid) (going : phase ≠ .stopped) (less : phase.left < w.phase.left) :
      Move w e { w with phase := phase, outcomes := w.outcomes ++ done }

variable {w w' : MmsgWriter} {e : UdpWriterEvent} {batch : List UdpMessage} {sent : Nat}

theorem move_answered {answer : SendmmsgAnswer} (hphase : w.phase = .sending batch sent)
    (hvalid : sent < batch.length ∧ batch.length ≤ UDP_BATCH_SIZE)
    (hfits : answer.Fits (min (batch.drop sent).length UDP_BATCH_SIZE)) :
    Move w (.sendmmsg answer) (w.answered batch sent answer) := by
  have hsize : UDP_BATCH_SIZE = 16 := rfl
  have hoffered : ¬ min (batch.drop sent).length UDP_BATCH_SIZE = 0 := by
    rw [List.length_drop]
    omega
  have hrunning : w.phase ≠ .stopped := Busy.ne_stopped (hphase ▸ trivial)
  have hretry : Move w (.sendmmsg answer) { w with phase := .retrying batch sent } := by
    have hleft : (retrying batch sent).left < w.phase.left := by
      simp only [hphase, left]
      omega
    refine .asked hrunning ?_ hvalid (fun h => by cases h) (Nat.le_of_lt hleft) fun _ => hleft
    rw [hphase]
    rfl
  have hagain (h : UdpWriterEvent.isProgress (.sendmmsg answer) = false) :
      Move w (.sendmmsg answer) w := by
    refine @Move.asked w answer w.phase hrunning rfl ?_ hrunning (Nat.le_refl _) ?_
    · rw [hphase]
      exact hvalid
    · rw [h]
      intro h
      cases h
  cases answer with
  | accepted count =>
      cases count with
      | zero =>
          simp only [answered, sendMmsg, if_neg hoffered]
          exact hretry
      | succ count =>
          simp only [SendmmsgAnswer.Fits] at hfits
          simp only [answered, sendMmsg, if_neg hoffered]
          refine .done rfl ?_ (valid_resume hvalid.2) resume_ne_stopped ?_
          · rw [held_resume, hphase, List.map_map, ← List.drop_drop]
            simp only [Function.comp_def, List.map_id', List.take_append_drop]
            rfl
          · rw [left_resume, hphase]
            simp only [left]
            omega
  | error e =>
      simp only [answered, sendMmsg, if_neg hoffered]
      by_cases hinterrupted : e.kind = .interrupted
      · rw [if_pos hinterrupted]
        exact hagain (by simp [UdpWriterEvent.isProgress, hinterrupted])
      · rw [if_neg hinterrupted]
        by_cases hblock : e.kind = .wouldBlock
        · simp only [hblock, if_true]
          exact hagain (by simp [UdpWriterEvent.isProgress, hblock])
        · simp only [hblock, if_false]
          exact hretry

theorem move_sentAlone {result : IoResult Nat} (hheld : w.phase.held = batch.drop sent)
    (hleft : 2 * (batch.length - sent) ≤ w.phase.left + 1)
    (hvalid : sent < batch.length ∧ batch.length ≤ UDP_BATCH_SIZE)
    (h : w.sentAlone batch sent result = some w') : Move w (.sendTo result) w' := by
  obtain ⟨message, hmessage, rfl⟩ := Option.map_eq_some_iff.mp h
  refine .done rfl ?_ (valid_resume hvalid.2) resume_ne_stopped ?_
  · have hdrop : batch.drop sent = message :: batch.drop (sent + 1) := by
      rw [List.drop_eq_getElem_cons hvalid.1]
      rw [List.getElem?_eq_getElem hvalid.1] at hmessage
      rw [Option.some.inj hmessage]
    rw [held_resume, hheld, hdrop]
    rfl
  · rw [left_resume]
    omega

theorem move_tryRecv (hphase : w.phase = .filling batch)
    (hbatch : 0 < batch.length ∧ batch.length ≤ UDP_BATCH_SIZE)
    (h : step w .tryRecv = some w') : Move w .tryRecv w' := by
  have hsize : UDP_BATCH_SIZE = 16 := rfl
  have hrunning : w.phase ≠ .stopped := Busy.ne_stopped (hphase ▸ trivial)
  have hcomplete : Move w .tryRecv { w with phase := resume batch 0 } := by
    refine @Move.taken w .tryRecv w.queue _ rfl hrunning ?_ (valid_resume hbatch.2)
      resume_ne_stopped ?_
    · rw [held_resume, pending, hphase]
      rfl
    · intro _
      rw [left_resume, hphase]
      simp only [left]
      omega
  simp only [step, hphase] at h
  split at h
  next hroom =>
    split at h
    next message rest hqueue =>
      cases h
      refine .taken rfl hrunning ?_ ?_ (fun h => by cases h) ?_
      · rw [pending, hphase, hqueue]
        exact List.append_assoc batch [message] rest
      · simp only [Valid, List.length_append, List.length_cons, List.length_nil]
        omega
      · intro _
        rw [hphase]
        simp only [left, List.length_append, List.length_cons, List.length_nil]
        omega
    next => cases h; exact hcomplete
  next => cases h; exact hcomplete

/-- The batched writer takes no other steps. -/
theorem Move.of_step (hvalid : w.phase.Valid) (h : step w e = some w') : Move w e w' := by
  have hsize : UDP_BATCH_SIZE = 16 := rfl
  cases e with
  | queued message =>
      simp only [step, UdpWriter.push] at h
      split at h
      next => cases h
      next hopened =>
        cases h
        exact .queued (Bool.eq_false_iff.mpr hopened)
  | closed => cases h; exact .closed
  | shutdown =>
      simp only [step] at h
      split at h
      next => cases h
      next => cases h
      next => cases h; exact .shutdown
  | recv =>
      simp only [step] at h
      split at h
      next first rest hphase hqueue =>
        cases h
        refine .taken rfl (by rw [hphase]; intro h; cases h) ?_ ⟨Nat.one_pos, ?_⟩
          (fun h => by cases h) ?_
        · rw [pending, hphase, hqueue]
          rfl
        · rw [hsize]
          exact Nat.le_add_left 1 15
        · rw [hphase]
          exact False.elim
      next hphase hqueue =>
        split at h
        next hclosed =>
          cases h
          exact .stopped hphase hqueue hclosed
        next => cases h
      next => cases h
  | tryRecv =>
      cases hphase : w.phase with
      | filling batch =>
          rw [hphase] at hvalid
          exact move_tryRecv hphase hvalid h
      | receiving => simp only [step, hphase] at h; cases h
      | sending batch sent => simp only [step, hphase] at h; cases h
      | retrying batch sent => simp only [step, hphase] at h; cases h
      | stopped => simp only [step, hphase] at h; cases h
  | sendmmsg answer =>
      simp only [step] at h
      split at h
      next batch sent hphase =>
        rw [hphase] at hvalid
        split at h
        next => cases h
        next =>
          split at h
          next hfits =>
            cases h
            exact move_answered hphase hvalid hfits
          next => cases h
      next => cases h
  | sendTo result =>
      simp only [step] at h
      split at h
      next batch sent hphase =>
        rw [hphase] at hvalid
        split at h
        next =>
          refine move_sentAlone (by rw [hphase]; rfl) ?_ hvalid h
          rw [hphase]
          exact Nat.le_succ _
        next => cases h
      next batch sent hphase =>
        rw [hphase] at hvalid
        refine move_sentAlone (by rw [hphase]; rfl) ?_ hvalid h
        rw [hphase]
        simp only [left]
        omega
      next => cases h

theorem Move.valid (hvalid : w.phase.Valid) (h : Move w e w') : w'.phase.Valid := by
  cases h with
  | queued => exact hvalid
  | closed => exact hvalid
  | shutdown => trivial
  | stopped => trivial
  | taken outside running same valid => exact valid
  | asked running same valid => exact valid
  | done outside same valid => exact valid

theorem valid_run {s : MmsgWriter} {es : List UdpWriterEvent} (hs : s.phase.Valid)
    (h : run step s es = some w) : w.phase.Valid :=
  run_invariant (I := fun w => w.phase.Valid)
    (fun _ _ _ hstep hvalid => (Move.of_step hvalid hstep).valid hvalid) h hs

/-! ## The batched writer follows the plain one -/

/-- The message with the result that `send_to` has. -/
def asSingle (d : UdpMessage × UdpOutcome) : UdpMessage × IoResult Nat :=
  (d.1, d.2.result d.1.1)

/-- The plain writer has the same outcomes and has not begun with the messages that have
none. -/
structure Follows (w : MmsgWriter) (s : SingleWriter) : Prop where
  valid : w.phase.Valid
  queue : s.queue = w.pending
  closed : s.closed = w.closed
  outcomes : s.outcomes = w.outcomes.map asSingle
  stopped : w.phase = .stopped → s.phase = .stopped ∧ w.pending = [] ∧ w.closed = true
  running : w.phase ≠ .stopped → s.phase = .receiving

theorem follows_new : Follows new SingleWriter.new where
  valid := trivial
  queue := rfl
  closed := rfl
  outcomes := rfl
  stopped h := by cases h
  running _ := rfl

/-- Each step is matched by the plain writer, with as many messages as got an outcome. -/
theorem follows_step {s : SingleWriter} (he : e ≠ .shutdown) (h : Follows w s)
    (hstep : step w e = some w') :
    ∃ fs s', run SingleWriter.step s fs = some s' ∧
      fs.filterMap UdpWriterEvent.outside = e.outside.toList ∧ Follows w' s' := by
  cases Move.of_step h.valid hstep with
  | @queued message opened =>
      have hopened : ¬ s.closed = true := by
        rw [h.closed, opened]
        exact Bool.false_ne_true
      refine ⟨[.queued message], { s with queue := s.queue ++ [message] }, ?_, rfl, ?_⟩
      · simp only [run_cons, SingleWriter.step, UdpWriter.push, if_neg hopened]
        rfl
      · refine ⟨h.valid, ?_, h.closed, h.outcomes, ?_, h.running⟩
        · simp only [h.queue, pending, List.append_assoc]
        · intro hstopped
          have hclosed := (h.stopped hstopped).2.2
          rw [opened] at hclosed
          cases hclosed
  | closed =>
      refine ⟨[.closed], { s with closed := true }, rfl, rfl, ?_⟩
      refine ⟨h.valid, h.queue, rfl, h.outcomes, ?_, h.running⟩
      intro hstopped
      exact ⟨(h.stopped hstopped).1, (h.stopped hstopped).2.1, rfl⟩
  | shutdown => exact absurd rfl he
  | stopped phase queue closed =>
      have hreceiving : s.phase = .receiving := h.running (by rw [phase]; intro h; cases h)
      have hempty : w.pending = [] := by
        rw [pending, phase, queue]
        rfl
      have hqueue : s.queue = [] := h.queue.trans hempty
      have hclosed : s.closed = true := h.closed.trans closed
      refine ⟨[.recv], { s with phase := .stopped }, ?_, rfl, ?_⟩
      · simp only [run_cons, SingleWriter.step, hreceiving, hqueue, hclosed, if_true]
        rfl
      · refine ⟨trivial, ?_, h.closed, h.outcomes, ?_, fun h => absurd rfl h⟩
        · simp only [hqueue, pending, MmsgPhase.held, queue, List.append_nil]
        · intro _
          exact ⟨rfl, by simp only [pending, MmsgPhase.held, queue, List.append_nil], closed⟩
  | taken outside running same valid going less =>
      refine ⟨[], s, rfl, by rw [outside]; rfl, ?_⟩
      exact ⟨valid, h.queue.trans same.symm, h.closed, h.outcomes, fun h => absurd h going,
        fun _ => h.running running⟩
  | asked running same valid going less progress =>
      refine ⟨[], s, rfl, rfl, ?_⟩
      refine ⟨valid, ?_, h.closed, h.outcomes, fun h => absurd h going,
        fun _ => h.running running⟩
      simp only [h.queue, pending, same]
  | @done _ phase done outside same valid going less =>
      have hreceiving : s.phase = .receiving := by
        refine h.running fun hstopped => ?_
        rw [hstopped] at less
        exact absurd less (Nat.not_lt_zero _)
      have hqueue : s.queue = (done.map asSingle).map Prod.fst ++ (phase.held ++ w.queue) := by
        rw [h.queue, pending, ← same, List.map_map, List.append_assoc]
        rfl
      refine ⟨_, _, SingleWriter.run_sends hreceiving hqueue, ?_, ?_⟩
      · rw [SingleWriter.outside_sends, outside]
        rfl
      · refine ⟨valid, rfl, h.closed, ?_, fun h => absurd h going, fun _ => hreceiving⟩
        simp only [h.outcomes, List.map_append]

theorem exists_run_single {es : List UdpWriterEvent} (hrun : run step new es = some w)
    (hshutdown : .shutdown ∉ es) :
    ∃ fs s, run SingleWriter.step .new fs = some s ∧
      fs.filterMap UdpWriterEvent.outside = es.filterMap UdpWriterEvent.outside ∧
      Follows w s := by
  refine run_simulates (R := Follows) ?_ hrun follows_new
  intro w s e w' he hfollows hstep
  refine follows_step ?_ hfollows hstep
  rintro rfl
  exact hshutdown he

/-! ## A batch comes to its end -/

/-- A step of the task brings a batch nearer to its end. -/
theorem Move.left_le (h : Move w e w') (hbusy : w.phase.Busy) :
    [e].countP UdpWriterEvent.isProgress + w'.phase.left ≤ w.phase.left := by
  have hone : [e].countP UdpWriterEvent.isProgress ≤ 1 := List.countP_le_length
  cases h with
  | queued => exact Nat.le_of_eq (Nat.zero_add _)
  | closed => exact Nat.le_of_eq (Nat.zero_add _)
  | shutdown => exact Nat.zero_le _
  | stopped phase =>
      rw [phase] at hbusy
      exact hbusy.elim
  | taken outside running same valid going less =>
      have hless := less hbusy
      simp only
      omega
  | @asked answer phase running same valid going less progress =>
      cases hprogress : UdpWriterEvent.isProgress (.sendmmsg answer) with
      | false =>
          rw [List.countP_singleton, hprogress]
          simp only [Bool.false_eq_true, if_false]
          omega
      | true =>
          have hless := progress hprogress
          simp only
          omega
  | done outside same valid going less =>
      simp only
      omega

theorem left_run {fs : List UdpWriterEvent} (hvalid : w.phase.Valid)
    (hrun : run step w fs = some w') (hbusy : Along step (fun m _ => m.phase.Busy) w fs) :
    fs.countP UdpWriterEvent.isProgress + w'.phase.left ≤ w.phase.left := by
  refine run_history_along (P := fun fs m =>
    fs.countP UdpWriterEvent.isProgress + m.phase.left ≤ w.phase.left) ?_ ?_ hrun hbusy
  · exact Nat.le_of_eq (Nat.zero_add _)
  · intro fs m e m' hm hbusy ih hstep
    have hless := (Move.of_step (valid_run hvalid hm) hstep).left_le hbusy
    rw [List.countP_append]
    omega

theorem left_le (hvalid : w.phase.Valid) : w.phase.left ≤ 3 * UDP_BATCH_SIZE := by
  have hsize : UDP_BATCH_SIZE = 16 := rfl
  cases hphase : w.phase with
  | receiving => exact Nat.zero_le _
  | stopped => exact Nat.zero_le _
  | filling batch =>
      rw [hphase] at hvalid
      simp only [left]
      simp only [Valid] at hvalid
      omega
  | sending batch sent =>
      rw [hphase] at hvalid
      simp only [left]
      simp only [Valid] at hvalid
      omega
  | retrying batch sent =>
      rw [hphase] at hvalid
      simp only [left]
      simp only [Valid] at hvalid
      omega

/-- The task can go on: it receives a message, or whatever the kernel answers to its call is
a step. -/
def GoesOn (w : MmsgWriter) : Prop :=
  (step w .recv).isSome = true ∨ (step w .tryRecv).isSome = true ∨
    (∀ result, (step w (.sendTo result)).isSome = true) ∨
    ∀ answer : SendmmsgAnswer, answer.Fits (min w.phase.held.length UDP_BATCH_SIZE) →
      (step w (.sendmmsg answer)).isSome = true

theorem isSome_sentAlone {result : IoResult Nat} (h : sent < batch.length) :
    (w.sentAlone batch sent result).isSome = true := by
  rw [sentAlone, List.getElem?_eq_getElem h]
  rfl

theorem goesOn (hvalid : w.phase.Valid) (hrunning : w.phase ≠ .stopped)
    (hpending : w.pending ≠ []) : w.GoesOn := by
  cases hphase : w.phase with
  | receiving =>
      left
      cases hqueue : w.queue with
      | nil =>
          refine absurd ?_ hpending
          rw [pending, hphase, hqueue]
          rfl
      | cons first rest =>
          simp only [step, hphase, hqueue]
          rfl
  | stopped => exact absurd hphase hrunning
  | filling batch =>
      right; left
      simp only [step, hphase]
      split
      next => split <;> rfl
      next => rfl
  | sending batch sent =>
      rw [hphase] at hvalid
      right; right
      by_cases hlast : batch.length - sent = 1
      · left
        intro result
        simp only [step, hphase, if_pos hlast]
        exact isSome_sentAlone hvalid.1
      · right
        intro answer hfits
        rw [hphase] at hfits
        have hfits' : answer.Fits (min (batch.drop sent).length UDP_BATCH_SIZE) := hfits
        simp only [step, hphase, if_neg hlast, if_pos hfits']
        rfl
  | retrying batch sent =>
      rw [hphase] at hvalid
      right; right; left
      intro result
      simp only [step, hphase]
      exact isSome_sentAlone hvalid.1

/-- Without a shutdown each run of the batched writer is one of the plain writer, with the
same messages queued and the same outcomes.  The messages that were queued are those with an
outcome, in their order, and behind them the others: these are none when the task ends.
While there are some, the task goes on, and it is at the end of a batch after at most 48
steps in which the kernel was not asked again. -/
theorem udp_writer_refines {es : List UdpWriterEvent} {w : MmsgWriter}
    (hrun : run step new es = some w) (hshutdown : .shutdown ∉ es) :
    (∃ fs s, run SingleWriter.step .new fs = some s ∧
      fs.filterMap UdpWriterEvent.outside = es.filterMap UdpWriterEvent.outside ∧
      s.outcomes = w.outcomes.map asSingle ∧ s.queue = w.pending) ∧
    es.filterMap UdpWriterEvent.message = w.outcomes.map Prod.fst ++ w.pending ∧
    (w.phase = .stopped → w.pending = []) ∧
    (w.pending ≠ [] → w.GoesOn) ∧
    ∀ fs w', run step w fs = some w' → Along step (fun m _ => m.phase.Busy) w fs →
      fs.countP UdpWriterEvent.isProgress ≤ 3 * UDP_BATCH_SIZE := by
  obtain ⟨fs, s, hfs, houtside, hfollows⟩ := exists_run_single hrun hshutdown
  have hvalid := hfollows.valid
  refine ⟨⟨fs, s, hfs, houtside, hfollows.outcomes, hfollows.queue⟩, ?_, ?_, ?_, ?_⟩
  · have hheld : s.held = [] := by
      by_cases hstopped : w.phase = .stopped
      · simp only [SingleWriter.held, (hfollows.stopped hstopped).1]
      · simp only [SingleWriter.held, hfollows.running hstopped]
    calc es.filterMap UdpWriterEvent.message
        = fs.filterMap UdpWriterEvent.message := by
          rw [← UdpWriterEvent.message_outside, ← houtside, UdpWriterEvent.message_outside]
      _ = s.outcomes.map Prod.fst ++ (s.held ++ s.queue) := SingleWriter.accounted_run hfs
      _ = w.outcomes.map Prod.fst ++ w.pending := by
          rw [hheld, hfollows.outcomes, hfollows.queue, List.map_map]
          rfl
  · intro hstopped
    exact (hfollows.stopped hstopped).2.1
  · intro hpending
    refine goesOn hvalid (fun hstopped => ?_) hpending
    exact hpending (hfollows.stopped hstopped).2.1
  · intro gs w' hgs hbusy
    have hleft := left_run hvalid hgs hbusy
    have hbound := left_le hvalid
    omega

/-- A message for port 4000, told from others by its data. -/
def message (byte : UInt8) : UdpMessage := ([byte], .v4 ⟨10, 0, 0, 2⟩ 4000)

/-- A socket that refuses a datagram. -/
def refusal : IoError := ⟨.other, "message too long"⟩

/-- Three messages are a batch.  The kernel accepts one of them, the next one is refused in
both ways, and the last one is sent alone. -/
def batchRun : List UdpWriterEvent :=
  [.queued (message 1), .queued (message 2), .recv, .queued (message 3), .tryRecv, .tryRecv,
    .tryRecv, .sendmmsg (.accepted 1), .sendmmsg (.error refusal), .sendTo (.error refusal),
    .closed, .sendTo (.ok 1), .recv]

theorem udp_writer_refines_batch :
    ∃ w, run step new batchRun = some w ∧
      w.outcomes = [(message 1, .batched), (message 2, .single (.error refusal)),
        (message 3, .single (.ok 1))] ∧
      ∃ fs s, run SingleWriter.step .new fs = some s ∧
        s.outcomes = [(message 1, .ok 1), (message 2, .error refusal), (message 3, .ok 1)] ∧
        s.queue = [] := by
  refine ⟨_, rfl, rfl, ?_⟩
  obtain ⟨⟨fs, s, hfs, -, houtcomes, hqueue⟩, -, hstopped, -, -⟩ :=
    @udp_writer_refines batchRun _ rfl (by decide)
  exact ⟨fs, s, hfs, houtcomes, hqueue.trans (hstopped rfl)⟩

end MmsgWriter

end RustP2p
