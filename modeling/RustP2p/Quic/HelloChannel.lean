import RustP2p.Quic.Node

/-!
# The `hello` channel

Every HelloReply puts an item into one bounded channel, and only bootstrap calls
take items out.  Over a run the channel is a queue: what was handled is what was
received and what is still in flight, in this order (`replies_eq`).  Two results
follow by counting.

* The dispatcher waits on the full channel when it has handled one reply more
  than the channel holds.  If no call is left to receive, it waits for ever, and
  with it all of the node (`not_wedged_iff`).
* The calls share the channel, and a call drops what is not for it.  The reply a
  call waits for reaches it only when the calls receive in the order in which
  their replies were handled (`not_stolen_iff`).
-/

namespace RustP2p

open ProtocolLayer

namespace Node

variable {c : Codec} {n m : Node} {e : Event} {es : List Event}

/-! ## Counting replies -/

/-- The replies handled in a run, in order. -/
def replies (c : Codec) (n : Node) (es : List Event) : List HelloItem :=
  Transition.outputs (step c) (replied c) n es

/-- The items received in a run, in order. -/
def receipts (c : Codec) (n : Node) (es : List Event) : List HelloItem :=
  Transition.outputs (step c) taken n es

/-- Nothing is in flight when a node starts, so the replies handled are those
received and those in flight. -/
theorem replies_eq (s : Startup) (hrun : Transition.run (step c) s.node es = some n) :
    replies c s.node es = receipts c s.node es ++ n.inFlight := by
  have hfifo : s.node.inFlight ++ replies c s.node es = receipts c s.node es ++ n.inFlight :=
    Transition.outputs_fifo (fun _ _ _ h => inFlight_step h) hrun
  exact hfifo

/-- The channel of a reached node holds at most its capacity. -/
theorem length_helloQueue_le (s : Startup) (hrun : Transition.run (step c) s.node es = some n) :
    n.helloQueue.length ≤ HELLO_CAPACITY :=
  Transition.run_invariant (I := fun n => n.helloQueue.length ≤ HELLO_CAPACITY)
    (fun _ _ _ h => length_helloQueue_step h) hrun (Nat.zero_le _)

/-! ## The wedged dispatcher -/

/-- The dispatcher waits for room in the `hello` channel. -/
def blocked (n : Node) : Bool := n.dispatcher.item.isSome ∧ n.helloQueue.length = HELLO_CAPACITY

/-- No call of `add_bootstrap` is outstanding. -/
def noCall (n : Node) : Bool := n.calls.all fun call => !call.outstanding

/-- The dispatcher is blocked, and nobody is there to receive. -/
def wedged (n : Node) : Bool := n.blocked ∧ n.noCall

theorem length_inFlight (n : Node) :
    n.inFlight.length = n.helloQueue.length + if n.dispatcher.item.isSome then 1 else 0 := by
  rw [inFlight, List.length_append]
  cases n.dispatcher.item <;> rfl

/-- The dispatcher is blocked when it is one reply past the capacity. -/
theorem blocked_iff (s : Startup) (hrun : Transition.run (step c) s.node es = some n) :
    n.blocked = true ↔
      (receipts c s.node es).length + HELLO_CAPACITY < (replies c s.node es).length := by
  have hlen := congrArg List.length (replies_eq s hrun)
  have hcap := length_helloQueue_le s hrun
  rw [List.length_append, length_inFlight] at hlen
  simp only [blocked]
  cases hitem : n.dispatcher.item.isSome with
  | false =>
      rw [hitem] at hlen
      simp only [Bool.false_eq_true, if_false, false_and, decide_false, false_iff] at hlen ⊢
      omega
  | true =>
      rw [hitem] at hlen
      simp only [if_true, true_and, decide_eq_true_eq] at hlen ⊢
      omega

/-- A run never wedges the dispatcher exactly if, whenever no call is
outstanding, it has handled at most as many replies as calls have received and
the channel can hold. -/
theorem not_wedged_iff (c : Codec) (s : Startup) (es : List Event) :
    (∀ pre post m, es = pre ++ post → Transition.run (step c) s.node pre = some m →
        m.wedged = false) ↔
      ∀ pre post m, es = pre ++ post → Transition.run (step c) s.node pre = some m →
        m.noCall = true →
        (replies c s.node pre).length ≤ (receipts c s.node pre).length + HELLO_CAPACITY := by
  have hwedged {pre : List Event} {m : Node} (hm : Transition.run (step c) s.node pre = some m) :
      m.wedged = false ↔ (m.noCall = true →
        (replies c s.node pre).length ≤ (receipts c s.node pre).length + HELLO_CAPACITY) := by
    rw [← Bool.not_eq_true, wedged, decide_eq_true_eq, blocked_iff s hm, not_and', Nat.not_lt]
  constructor
  · intro h pre post m hes hm
    exact (hwedged hm).mp (h pre post m hes hm)
  · intro h pre post m hes hm
    exact (hwedged hm).mpr (h pre post m hes hm)

/-- The key of `b` at the node `a`. -/
def helloKey : RouteKey := ⟨.udp, .v4 ⟨0, 0, 0, 0⟩ 5000, .v4 ⟨10, 0, 0, 2⟩ 5000⟩

/-- The protobuf bytes of a hello that names `b` and nothing else. -/
def helloBytes : List UInt8 := [10, 3, 10, 1, 98]

/-- A codec that knows this hello. -/
def helloCodec : Codec :=
  { Codec.empty with
    hello := .ofTable [(⟨some ⟨"b", [], "", 0, false, none⟩, [], none⟩, helloBytes)] }

/-- The HelloReply of `b` to `a`. -/
def helloReply : List UInt8 :=
  [142, 3, 0, 3, 3, 0, 0, 0, 20, 0, 1, 0, 1, 98, 97] ++ helloBytes

/-- The reply is handled, and its item enters the channel. -/
def helloRound (key : RouteKey) : List Event :=
  [.packet (Env.atMillis 1) helloReply key, .helloSent (Env.atMillis 1)]

/-- After 128 replies nobody asked for, the next one blocks the dispatcher. -/
theorem dispatcher_wedged :
    ¬ ∀ (c : Codec) (s : Startup) (es : List Event) (n : Node),
      Transition.run (step c) s.node es = some n → n.wedged = false := by
  intro h
  obtain ⟨n, hn, hwedged⟩ :
      ∃ n, Transition.run (step helloCodec) Startup.nodeA.node
          ((List.replicate 128 (helloRound helloKey)).flatten ++
            [.packet (Env.atMillis 1) helloReply helloKey]) = some n ∧
        n.wedged = true := by
    decide +kernel
  rw [h helloCodec .nodeA _ n hn] at hwedged
  cases hwedged

/-! ## Replies that another call takes -/

/-- A call for the address is waiting. -/
def awaited (n : Node) (addr : SocketAddr) : Bool :=
  n.calls.any fun call => call.addr = addr ∧ call.phase = .waiting

/-- Where the handled reply came from, and whether a call was waiting for it. -/
def awaitedReply (c : Codec) (n : Node) (e : Event) : Option (SocketAddr × Bool) :=
  (replied c n e).map fun item => (item.1, n.awaited item.1)

/-- The address of the call that receives. -/
def receiver (n : Node) : Event → Option SocketAddr
  | .call index .receive => n.calls[index]?.map Call.addr
  | _ => none

/-- The replies handled in a run, in order, with whether each was awaited. -/
def awaitedReplies (c : Codec) (n : Node) (es : List Event) : List (SocketAddr × Bool) :=
  Transition.outputs (step c) (awaitedReply c) n es

/-- The addresses of the calls that received in a run, in order. -/
def receivers (c : Codec) (n : Node) (es : List Event) : List SocketAddr :=
  Transition.outputs (step c) receiver n es

/-- A node with a note on each reply in flight: where it came from, and whether
a call was waiting for it when it was handled. -/
structure Watched where
  node : Node
  notes : List (SocketAddr × Bool)

/-- The node takes its step, and the notes follow its queue. -/
def watch (c : Codec) (w : Watched) (e : Event) : Option Watched :=
  (step c w.node e).map fun node =>
    ⟨node, (if (receiver w.node e).isSome then w.notes.tail else w.notes) ++
      (awaitedReply c w.node e).toList⟩

/-- A call receives a reply that a call for another address was waiting for when
it was handled.  The receiving call discards it. -/
def Steals (w : Watched) (e : Event) : Prop :=
  ∃ item addr, w.node.helloQueue.head? = some item ∧ receiver w.node e = some addr ∧
    w.notes.head?.map Prod.snd = some true ∧ item.1 ≠ addr

/-- The run of a node, watched. -/
theorem exists_run_watch {w : Watched} (hrun : Transition.run (step c) w.node es = some n) :
    ∃ notes, Transition.run (watch c) w es = some ⟨n, notes⟩ := by
  induction es generalizing w with
  | nil => cases hrun; exact ⟨w.notes, rfl⟩
  | cons e es ih =>
      rw [Transition.run_cons] at hrun
      cases he : step c w.node e with
      | none => rw [he] at hrun; cases hrun
      | some m =>
          rw [he] at hrun
          rw [Transition.run_cons, watch, he]
          exact ih hrun

/-- A call that receives takes the head of a queue that is not empty. -/
theorem receiver_eq_some {addr : SocketAddr} (hstep : step c n e = some m)
    (h : receiver n e = some addr) : ∃ item, taken n e = some item := by
  simp only [receiver] at h
  split at h
  next index =>
    cases Move.of_step hstep with
    | call running move =>
        cases move with
        | received phase head => exact ⟨_, by rw [taken, takenBy, head, List.head?_cons]⟩
        | discarded phase head => exact ⟨_, by rw [taken, takenBy, head, List.head?_cons]⟩
  next => cases h

/-- In a run, too, a call that receives finds an item. -/
theorem head_of_receiver {n₀ : Node} {pre post : List Event} {addr : SocketAddr}
    (hpre : Transition.run (step c) n₀ pre = some m)
    (hrun : Transition.run (step c) n₀ (pre ++ e :: post) = some n)
    (h : receiver m e = some addr) : ∃ item, m.helloQueue.head? = some item := by
  rw [Transition.run_append, hpre, Option.bind_some, Transition.run_cons] at hrun
  obtain ⟨m', hstep, -⟩ := Option.bind_eq_some_iff.mp hrun
  obtain ⟨item, htaken⟩ := receiver_eq_some hstep h
  simp only [receiver] at h
  split at h
  next => exact ⟨item, htaken⟩
  next => cases h

/-- Only a receiving call takes an item. -/
theorem receiver_eq_none (h : receiver n e = none) (hstep : step c n e = some m) :
    taken n e = none := by
  cases e with
  | call index s =>
      cases s with
      | receive =>
          simp only [receiver, Option.map_eq_none_iff] at h
          cases Move.of_step hstep with
          | call running move => cases h.symm.trans running
      | _ => rfl
  | _ => rfl

/-- The invariant of a watched run: the notes are those of the replies not yet
received, and they are about the items in flight. -/
structure NotesAligned (c : Codec) (n₀ : Node) (es : List Event) (w : Watched) : Prop where
  length_le : (receivers c n₀ es).length ≤ (awaitedReplies c n₀ es).length
  notes : w.notes = (awaitedReplies c n₀ es).drop (receivers c n₀ es).length
  addrs : w.notes.map Prod.fst = w.node.inFlight.map Prod.fst

theorem replied_of_receiver {addr : SocketAddr} (h : receiver n e = some addr) :
    replied c n e = none := by
  simp only [receiver] at h
  split at h
  next => rfl
  next => cases h

/-- One step keeps the notes aligned.  A receive drops the first note with the
first item, and a reply adds one of each. -/
theorem NotesAligned.step {n₀ : Node} {w w' : Watched} (h : NotesAligned c n₀ es w)
    (hrun : Transition.run (Node.step c) n₀ es = some w.node) (hw : watch c w e = some w') :
    NotesAligned c n₀ (es ++ [e]) w' := by
  obtain ⟨m, hstep, rfl⟩ := Option.map_eq_some_iff.mp hw
  obtain ⟨hle, hnotes, haddrs⟩ := h
  have hqueue := inFlight_step hstep
  have hreplies : awaitedReplies c n₀ (es ++ [e]) =
      awaitedReplies c n₀ es ++ (awaitedReply c w.node e).toList := Transition.outputs_concat hrun
  have hreceivers : receivers c n₀ (es ++ [e]) =
      receivers c n₀ es ++ (receiver w.node e).toList := Transition.outputs_concat hrun
  cases hreceiver : receiver w.node e with
  | some addr =>
      obtain ⟨item, htaken⟩ := receiver_eq_some hstep hreceiver
      have hreplied : awaitedReply c w.node e = none := by
        rw [awaitedReply, replied_of_receiver hreceiver]
        rfl
      rw [htaken, replied_of_receiver hreceiver] at hqueue
      simp only [Option.toList_none, List.append_nil, Option.toList_some,
        List.singleton_append] at hqueue
      rw [hqueue, List.map_cons] at haddrs
      obtain ⟨note, rest, hcons, -, hrest⟩ := List.map_eq_cons_iff.mp haddrs
      have hlen : w.notes.length = rest.length + 1 := by rw [hcons, List.length_cons]
      rw [hnotes, List.length_drop] at hlen
      rw [hreceiver] at hreceivers
      rw [hreplied] at hreplies
      refine ⟨?_, ?_, ?_⟩
      · rw [hreplies, hreceivers]
        simp only [Option.toList_some, List.length_append, List.length_singleton,
          Option.toList_none, List.append_nil]
        omega
      · rw [hreplies, hreceivers]
        simp [hnotes, hreplied]
      · simp [hreplied, hcons, hrest]
  | none =>
      rw [receiver_eq_none hreceiver hstep] at hqueue
      simp only [Option.toList_none, List.nil_append] at hqueue
      rw [hreceiver, Option.toList_none, List.append_nil] at hreceivers
      refine ⟨?_, ?_, ?_⟩
      · rw [hreplies, hreceivers, List.length_append]
        omega
      · rw [hreplies, hreceivers, List.drop_append_of_le_length hle, ← hnotes]
        rfl
      · simp only [Option.isSome_none, Bool.false_eq_true, if_false, ← hqueue, List.map_append,
          haddrs]
        cases hreplied : replied c w.node e <;> simp [awaitedReply, hreplied]

/-- By induction on the run. -/
theorem notesAligned_run {n₀ : Node} {w : Watched} (hempty : n₀.inFlight = [])
    (hrun : Transition.run (watch c) ⟨n₀, []⟩ es = some w) :
    Transition.run (step c) n₀ es = some w.node ∧ NotesAligned c n₀ es w := by
  refine Transition.run_history (P := fun es w => Transition.run (step c) n₀ es = some w.node ∧
    NotesAligned c n₀ es w) ⟨rfl, ?_⟩ ?_ hrun
  · exact ⟨Nat.le_refl _, rfl, by simp [hempty]⟩
  · rintro es w e w' - ⟨hnode, haligned⟩ hw
    refine ⟨?_, haligned.step hnode hw⟩
    obtain ⟨m, hstep, rfl⟩ := Option.map_eq_some_iff.mp hw
    exact Transition.run_snoc hnode hstep

/-- The first note is about the first item, and it is the note of the reply with
the number of the next receive. -/
theorem NotesAligned.head {n₀ : Node} {w : Watched} {item : HelloItem}
    (h : NotesAligned c n₀ es w) (hitem : w.node.helloQueue.head? = some item) :
    ∃ flag, w.notes.head? = some (item.1, flag) ∧
      (awaitedReplies c n₀ es)[(receivers c n₀ es).length]? = some (item.1, flag) := by
  obtain ⟨rest, hqueue⟩ := List.head?_eq_some_iff.mp hitem
  have haddrs := h.addrs
  rw [inFlight, hqueue, List.cons_append, List.map_cons] at haddrs
  obtain ⟨⟨addr, flag⟩, notes, hnotes, rfl, -⟩ := List.map_eq_cons_iff.mp haddrs
  refine ⟨flag, by rw [hnotes]; rfl, ?_⟩
  rw [← List.head?_drop, ← h.notes, hnotes]
  rfl

/-- A reply that was handled keeps its number in longer runs. -/
theorem awaitedReplies_append {n₀ : Node} {pre : List Event} (post : List Event) {i : Nat}
    {note : SocketAddr × Bool} (hpre : Transition.run (step c) n₀ pre = some m)
    (h : (awaitedReplies c n₀ pre)[i]? = some note) :
    (awaitedReplies c n₀ (pre ++ post))[i]? = some note := by
  have happend : awaitedReplies c n₀ (pre ++ post) =
      awaitedReplies c n₀ pre ++ awaitedReplies c m post := Transition.outputs_append hpre
  rw [happend, List.getElem?_append_left (List.getElem?_eq_some_iff.mp h).1, h]

/-- No call takes a reply that a call for another address waits for, exactly if
the calls receive in the order of the replies: when somebody was waiting for the
reply with number `i`, the receive with number `i` is made by a call for its
address. -/
theorem not_stolen_iff (c : Codec) (s : Startup) {es : List Event} {n : Node}
    (hrun : Transition.run (step c) s.node es = some n) :
    Transition.Along (watch c) (fun w e => ¬ Steals w e) ⟨s.node, []⟩ es ↔
      ∀ (i : Nat) (a b : SocketAddr), (awaitedReplies c s.node es)[i]? = some (a, true) →
        (receivers c s.node es)[i]? = some b → b = a := by
  obtain ⟨notes, hwatch⟩ := exists_run_watch (w := ⟨s.node, []⟩) hrun
  rw [Transition.along_iff hwatch]
  constructor
  · intro hkeep i a b hreply hreceive
    obtain ⟨pre, e, post, m, rfl, hpre, hout, rfl⟩ := Transition.exists_step_of_outputs hreceive
    obtain ⟨notes, hwpre⟩ := exists_run_watch (w := ⟨s.node, []⟩) hpre
    obtain ⟨-, haligned⟩ := notesAligned_run rfl hwpre
    obtain ⟨item, hitem⟩ := head_of_receiver hpre hrun hout
    obtain ⟨flag, hhead, hnote⟩ := haligned.head hitem
    have hsame := awaitedReplies_append (e :: post) hpre hnote
    cases hsame.symm.trans hreply
    by_contra hne
    exact hkeep pre e post ⟨m, notes⟩ rfl hwpre
      ⟨item, b, hitem, hout, by rw [hhead]; rfl, fun h => hne h.symm⟩
  · intro horder pre e post w hes hwpre h
    obtain ⟨item, addr, hitem, hreceiver, hflag, hne⟩ := h
    obtain ⟨hpre, haligned⟩ := notesAligned_run rfl hwpre
    obtain ⟨flag, hhead, hnote⟩ := haligned.head hitem
    rw [hhead] at hflag
    cases hflag
    subst hes
    exact hne (horder _ item.1 addr (awaitedReplies_append (e :: post) hpre hnote)
      (Transition.outputs_getElem?_length hpre hreceiver)).symm

/-- Another address to bootstrap from. -/
def otherAddr : SocketAddr := .v4 ⟨10, 0, 0, 3⟩ 5000

/-- Calls for two addresses wait, and `b` answers the first of them. -/
def twoCalls : List Event :=
  [.bootstrap helloKey.peerAddr, .bootstrap otherAddr,
    .call 0 (.hello (Env.atMillis 1)), .call 0 .register,
    .call 1 (.hello (Env.atMillis 1)), .call 1 .register] ++ helloRound helloKey

/-- The call for the address of `b` receives first, and nothing is stolen. -/
theorem not_stolen_in_order :
    Transition.Along (watch helloCodec) (fun w e => ¬ Steals w e) ⟨Startup.nodeA.node, []⟩
      (twoCalls ++ [.call 0 .receive]) := by
  have hrun : (Transition.run (step helloCodec) Startup.nodeA.node
      (twoCalls ++ [.call 0 .receive])).isSome = true := by
    decide +kernel
  obtain ⟨n, hn⟩ := Option.isSome_iff_exists.mp hrun
  have hreplies : awaitedReplies helloCodec Startup.nodeA.node (twoCalls ++ [.call 0 .receive]) =
      [(helloKey.peerAddr, true)] := by
    decide +kernel
  have hreceivers : receivers helloCodec Startup.nodeA.node (twoCalls ++ [.call 0 .receive]) =
      [helloKey.peerAddr] := by
    decide +kernel
  refine (not_stolen_iff helloCodec .nodeA hn).mpr fun i a b hreply hreceive => ?_
  rw [hreplies] at hreply
  rw [hreceivers] at hreceive
  cases i with
  | zero =>
      cases hreply
      cases hreceive
      rfl
  | succ i => cases hreply

/-- The call for the other address receives first, and it discards the reply. -/
theorem reply_stolen :
    ¬ ∀ (c : Codec) (s : Startup) (es : List Event) (n : Node),
      Transition.run (step c) s.node es = some n → (n.calls.map Call.addr).Nodup →
        Transition.Along (watch c) (fun w e => ¬ Steals w e) ⟨s.node, []⟩ es := by
  intro h
  obtain ⟨n, hn, hnodup⟩ :
      ∃ n, Transition.run (step helloCodec) Startup.nodeA.node
          (twoCalls ++ [.call 1 .receive]) = some n ∧
        (n.calls.map Call.addr).Nodup := by
    decide +kernel
  obtain ⟨w, hw, hhead, hreceiver, hnote⟩ :
      ∃ w, Transition.run (watch helloCodec) ⟨Startup.nodeA.node, []⟩ twoCalls = some w ∧
        w.node.helloQueue.head? = some (helloKey.peerAddr, ⟨"b"⟩) ∧
        receiver w.node (.call 1 .receive) = some otherAddr ∧
        w.notes.head?.map Prod.snd = some true := by
    decide +kernel
  have hkeep := h helloCodec .nodeA _ n hn hnodup
  exact (Transition.along_concat hw hkeep).2
    ⟨_, otherAddr, hhead, hreceiver, hnote, by decide⟩

end Node

end RustP2p
