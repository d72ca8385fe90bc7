import RustP2p.Core.RouteOps
import RustP2p.Quic.Incoming

/-!
# Datagrams that are sent more than once

`send_to` sends five copies of a datagram, and they may arrive on several
connections.  `handle_incoming_datagram` marks a datagram as seen, looks up a
route of its source, and puts the message in the inbox.  The calls of different
connections run at the same time, so these are three steps of a call
(`DatagramCall`), between which anything else can happen.

Whoever marks a datagram is the only one to deliver it.  `Owned` says so: the
keys that were delivered and the keys that a call still holds are distinct, and
all of them are marked.  So no message is delivered twice.

The mark is set before the lookup.  A call that finds no route returns an error,
and its mark stays.  `MarksAccounted` is what fails then, and with it the copies
that arrive later are dropped (`datagram_once_iff`).
-/

namespace RustP2p

/-! ## The calls -/

/-- The capacity of the inbox. -/
def INBOX_CAPACITY : Nat := 512

/-- The key of a datagram in `seen_datagrams`. -/
def DatagramFrame.key (frame : DatagramFrame) : PeerId × UInt64 := (frame.src, frame.id)

/-- Where a call of `handle_incoming_datagram` stands. -/
inductive DatagramCall where
  | started (remoteAddr : SocketAddr) (data : List UInt8)
  /-- The datagram is marked as seen by this call. -/
  | marked (frame : DatagramFrame)
  /-- The message waits for room in the inbox. -/
  | sending (frame : DatagramFrame) (message : ReceivedMessage)
  | returned (result : IoResult Unit)

/-- The key a call has marked and not delivered yet. -/
def DatagramCall.held : DatagramCall → Option (PeerId × UInt64)
  | marked frame => some frame.key
  | sending frame _ => some frame.key
  | _ => none

/-- The endpoint with the calls that run on it. -/
structure Datagrams where
  endpoint : Incoming
  calls : List DatagramCall
  /-- The keys of the messages that were put in the inbox, in order. -/
  delivered : List (PeerId × UInt64)

/-- What can happen while datagrams are handled. -/
inductive DatagramEvent where
  /-- A datagram arrives on the connection with this address. -/
  | arrive (remoteAddr : SocketAddr) (data : List UInt8)
  /-- A call goes on to the mark. -/
  | mark (index : Nat)
  /-- A call looks up a route of the source. -/
  | lookup (index : Nat)
  /-- A call puts its message in the inbox. -/
  | send (index : Nat)
  /-- The application takes a message from the inbox. -/
  | receive
  /-- The protocol layer changes, in any way. -/
  | protocol (layer : ProtocolLayer)
  /-- The virtual addresses change, in any way. -/
  | socket (socket : QuicPeerSocket)

namespace Incoming

/-- A new endpoint, as far as datagrams are concerned. -/
def fresh (peerId : PeerId) (socket : QuicPeerSocket) (protocol : ProtocolLayer) : Incoming :=
  ⟨peerId, socket, protocol, ∅, [], []⟩

/-- `handle_incoming_datagram`, up to the mark. -/
def markDatagram (c : FrameCodec) (ep : Incoming) (remoteAddr : SocketAddr) (data : List UInt8) :
    DatagramCall × Incoming :=
  match ep.socket.peerForVirtualAddr remoteAddr with
  | none =>
      (.returned (.error ⟨.permissionDenied, "datagram arrived from unknown synthetic peer"⟩), ep)
  | some _ =>
      match decodeDatagramFrame c data with
      | .error e => (.returned (.error e), ep)
      | .ok frame =>
          if frame.dest ≠ ep.peerId then (.returned (.ok ()), ep)
          else
            let marked := { ep with seenDatagrams := ep.seenDatagrams.insert frame.key () }
            match ep.seenDatagrams.get frame.key with
            | some _ => (.returned (.ok ()), marked)
            | none => (.marked frame, marked)

/-- The lookup of a route of the source, and the message. -/
def lookupDatagram (ep : Incoming) (frame : DatagramFrame) : DatagramCall × Incoming :=
  match ep.protocol.routeMetricFor frame.src with
  | (.error e, protocol) => (.returned (.error e), { ep with protocol := protocol })
  | (.ok (route, metric), protocol) =>
      (.sending frame {
        payload := frame.payload
        src := frame.src
        dest := frame.dest
        route := route
        ttl := saturatingSub ep.protocol.maxTtl metric
        maxTtl := ep.protocol.maxTtl
        isRelay := metric > 0
        isBroadcast := false }, { ep with protocol := protocol })

end Incoming

namespace ProtocolLayer

/-- The peer has a route or a candidate. -/
def Reaches (l : ProtocolLayer) (p : PeerId) : Prop :=
  l.transport.routesOf p ≠ [] ∨ l.routeCandidates.get p ≠ none

instance (l : ProtocolLayer) (p : PeerId) : Decidable (l.Reaches p) :=
  inferInstanceAs (Decidable (_ ∨ _))

/-- The lookup succeeds exactly then. -/
theorem routeMetricFor_isOk_iff {l : ProtocolLayer} {p : PeerId} :
    (∃ routeMetric, (l.routeMetricFor p).1 = .ok routeMetric) ↔ l.Reaches p := by
  have hlookup : (∃ r, (l.transport.routeFor p).1 = .ok r) ↔ l.transport.routesOf p ≠ [] :=
    RouteTable.getRouteById_isOk_iff
  simp only [Reaches, ← hlookup, routeMetricFor]
  split
  next route t heq => simp [heq]
  next e t heq =>
    simp only [heq, reduceCtorEq, exists_false, false_or]
    cases l.routeCandidates.get p with
    | none => simp
    | some key => simp

end ProtocolLayer

namespace Datagrams

/-- The endpoint before the first datagram. -/
def start (ep : Incoming) : Datagrams := ⟨ep, [], []⟩

/-- The state after an event, if it can happen. -/
def step (c : FrameCodec) (s : Datagrams) : DatagramEvent → Option Datagrams
  | .arrive remoteAddr data => some { s with calls := s.calls ++ [.started remoteAddr data] }
  | .mark index =>
      match s.calls[index]? with
      | some (.started remoteAddr data) =>
          let (call, ep) := s.endpoint.markDatagram c remoteAddr data
          some { s with endpoint := ep, calls := s.calls.set index call }
      | _ => none
  | .lookup index =>
      match s.calls[index]? with
      | some (.marked frame) =>
          let (call, ep) := s.endpoint.lookupDatagram frame
          some { s with endpoint := ep, calls := s.calls.set index call }
      | _ => none
  | .send index =>
      match s.calls[index]? with
      | some (.sending frame message) =>
          if s.endpoint.inbox.length < INBOX_CAPACITY then
            some {
              endpoint := { s.endpoint with inbox := s.endpoint.inbox ++ [message] }
              calls := s.calls.set index (.returned (.ok ()))
              delivered := s.delivered ++ [frame.key] }
          else none
      | _ => none
  | .receive =>
      match s.endpoint.inbox with
      | [] => none
      | _ :: rest => some { s with endpoint := { s.endpoint with inbox := rest } }
  | .protocol layer => some { s with endpoint := { s.endpoint with protocol := layer } }
  | .socket socket => some { s with endpoint := { s.endpoint with socket := socket } }

/-- The keys that calls hold. -/
def held (s : Datagrams) : List (PeerId × UInt64) := s.calls.filterMap DatagramCall.held

/-- The keys that were delivered or will be. -/
def owned (s : Datagrams) : List (PeerId × UInt64) := s.delivered ++ s.held

/-- A datagram with the key was marked. -/
def Seen (s : Datagrams) (key : PeerId × UInt64) : Prop :=
  s.endpoint.seenDatagrams.get key = some ()

instance (s : Datagrams) (key : PeerId × UInt64) : Decidable (s.Seen key) :=
  inferInstanceAs (Decidable (_ = _))

/-- The lookup finds a route or a candidate of the source. -/
def FindsRoute (s : Datagrams) : DatagramEvent → Prop
  | .lookup index =>
      match s.calls[index]? with
      | some (.marked frame) => s.endpoint.protocol.Reaches frame.src
      | _ => True
  | _ => True

instance (s : Datagrams) (e : DatagramEvent) : Decidable (s.FindsRoute e) :=
  match e with
  | .lookup index =>
      match h : s.calls[index]? with
      | some (.marked frame) =>
          decidable_of_iff (s.endpoint.protocol.Reaches frame.src) (by simp only [FindsRoute, h])
      | some (.started ..) => isTrue (by simp only [FindsRoute, h])
      | some (.sending ..) => isTrue (by simp only [FindsRoute, h])
      | some (.returned ..) => isTrue (by simp only [FindsRoute, h])
      | none => isTrue (by simp only [FindsRoute, h])
  | .arrive .. | .mark _ | .send _ | .receive | .protocol _ | .socket _ => isTrue trivial

/-! ## What a step does to the keys -/

/-- A list at an index, and with another item there. -/
theorem exists_split {α : Type} {l : List α} {i : Nat} {a : α} (h : l[i]? = some a) :
    ∃ pre post, l = pre ++ a :: post ∧ ∀ b, l.set i b = pre ++ b :: post := by
  obtain ⟨hi, rfl⟩ := List.getElem?_eq_some_iff.mp h
  refine ⟨l.take i, l.drop (i + 1), ?_, ?_⟩
  · rw [List.getElem_cons_drop hi, List.take_append_drop]
  · intro b
    rw [List.set_eq_take_append_cons_drop, if_pos hi]

/-- The keys that calls hold after one of them moved on. -/
theorem held_set {calls : List DatagramCall} {index : Nat} {call : DatagramCall}
    (h : calls[index]? = some call) (call' : DatagramCall) :
    ((calls.set index call').filterMap DatagramCall.held ++ call.held.toList).Perm
      (calls.filterMap DatagramCall.held ++ call'.held.toList) := by
  obtain ⟨pre, post, rfl, hset⟩ := exists_split h
  have hcons (call : DatagramCall) : (call :: post).filterMap DatagramCall.held =
      call.held.toList ++ post.filterMap DatagramCall.held := by
    rw [List.filterMap_cons]
    cases call.held <;> rfl
  rw [hset, List.filterMap_append, List.filterMap_append, hcons, hcons, List.perm_iff_count]
  intro key
  simp only [List.count_append]
  omega

/-- What a step does to the keys that are owned and seen. -/
inductive Move (s : Datagrams) : DatagramEvent → Datagrams → Prop where
  /-- Nothing.  A delivered key was held before. -/
  | quiet {e : DatagramEvent} {s' : Datagrams} (found : s.FindsRoute e)
      (owned : s'.owned.Perm s.owned) (seen : ∀ key, s'.Seen key ↔ s.Seen key) : Move s e s'
  /-- A call marks a key that was not seen before. -/
  | marked {e : DatagramEvent} {s' : Datagrams} {key : PeerId × UInt64} (found : s.FindsRoute e)
      (unseen : ¬ s.Seen key) (owned : s'.owned.Perm (key :: s.owned))
      (seen : ∀ k, s'.Seen k ↔ s.Seen k ∨ k = key) : Move s e s'
  /-- A call finds no route and gives up its key. -/
  | lost {e : DatagramEvent} {s' : Datagrams} {key : PeerId × UInt64} (missed : ¬ s.FindsRoute e)
      (owned : s.owned.Perm (key :: s'.owned)) (seen : ∀ k, s'.Seen k ↔ s.Seen k) : Move s e s'

variable {c : FrameCodec} {s s' : Datagrams} {e : DatagramEvent}

/-- A call that holds the same key afterwards, or none before and after. -/
theorem owned_perm_of_eq {index : Nat} {call call' : DatagramCall}
    (h : s.calls[index]? = some call) (hheld : call'.held = call.held) :
    (s.delivered ++ (s.calls.set index call').filterMap DatagramCall.held).Perm s.owned := by
  have hperm := held_set h call'
  rw [hheld] at hperm
  exact ((List.perm_append_right_iff _).mp hperm).append_left _

/-- A call that comes to hold a key. -/
theorem owned_perm_of_gain {index : Nat} {call call' : DatagramCall} {key : PeerId × UInt64}
    (h : s.calls[index]? = some call) (hbefore : call.held = none)
    (hafter : call'.held = some key) :
    (s.delivered ++ (s.calls.set index call').filterMap DatagramCall.held).Perm
      (key :: s.owned) := by
  have hperm := held_set h call'
  rw [hbefore, hafter, Option.toList_none, List.append_nil] at hperm
  exact ((hperm.trans List.perm_append_comm).append_left _).trans List.perm_middle

/-- A call that gives its key away. -/
theorem owned_perm_of_loss {index : Nat} {call : DatagramCall} {key : PeerId × UInt64}
    (h : s.calls[index]? = some call) (hbefore : call.held = some key) (call' : DatagramCall)
    (hafter : call'.held = none) :
    s.owned.Perm
      (key :: (s.delivered ++ (s.calls.set index call').filterMap DatagramCall.held)) := by
  have hperm := held_set h call'
  rw [hbefore, hafter, Option.toList_none, List.append_nil] at hperm
  exact ((hperm.symm.trans List.perm_append_comm).append_left _).trans List.perm_middle

/-- What the mark does. -/
theorem Move.of_mark {index : Nat} {addr : SocketAddr} {data : List UInt8}
    (h : s.calls[index]? = some (.started addr data)) :
    Move s (.mark index) { s with
      endpoint := (s.endpoint.markDatagram c addr data).2
      calls := s.calls.set index (s.endpoint.markDatagram c addr data).1 } := by
  have returned (result : IoResult Unit) : (s.delivered ++
      (s.calls.set index (.returned result)).filterMap DatagramCall.held).Perm s.owned :=
    owned_perm_of_eq h rfl
  simp only [Incoming.markDatagram]
  split
  next => exact .quiet trivial (returned _) fun _ => Iff.rfl
  next =>
    split
    next => exact .quiet trivial (returned _) fun _ => Iff.rfl
    next frame hframe =>
      split
      next => exact .quiet trivial (returned _) fun _ => Iff.rfl
      next =>
        have hinsert (k : PeerId × UInt64) :
            (s.endpoint.seenDatagrams.insert frame.key ()).get k = some () ↔
              s.Seen k ∨ k = frame.key := by
          rw [DashMap.get_insert, Seen]
          split
          next heq => simp [heq]
          next hne => simp [hne]
        split
        next hseen =>
          -- The mark was there, so nothing is new.
          refine .quiet trivial (returned _) ?_
          intro k
          refine (hinsert k).trans ?_
          constructor
          · rintro (hk | rfl)
            · exact hk
            · exact hseen
          · exact Or.inl
        next hseen =>
          have hunseen : ¬ s.Seen frame.key := by
            rw [Seen, hseen]
            intro h
            cases h
          exact .marked trivial hunseen (owned_perm_of_gain h rfl rfl) hinsert

/-- What the lookup does. -/
theorem Move.of_lookup {index : Nat} {frame : DatagramFrame}
    (h : s.calls[index]? = some (.marked frame)) :
    Move s (.lookup index) { s with
      endpoint := (s.endpoint.lookupDatagram frame).2
      calls := s.calls.set index (s.endpoint.lookupDatagram frame).1 } := by
  have hfinds : s.FindsRoute (.lookup index) ↔
      ∃ routeMetric, (s.endpoint.protocol.routeMetricFor frame.src).1 = .ok routeMetric := by
    simp only [FindsRoute, h, ProtocolLayer.routeMetricFor_isOk_iff]
  simp only [Incoming.lookupDatagram]
  split
  next heq =>
    refine .lost ?_ (owned_perm_of_loss h rfl _ rfl) fun _ => Iff.rfl
    rw [hfinds, heq]
    simp
  next heq =>
    refine .quiet ?_ (owned_perm_of_eq h rfl) fun _ => Iff.rfl
    rw [hfinds, heq]
    exact ⟨_, rfl⟩

/-- A step does nothing else. -/
theorem Move.of_step (h : step c s e = some s') : Move s e s' := by
  cases e with
  | arrive addr data =>
      cases h
      have hheld : [DatagramCall.started addr data].filterMap DatagramCall.held = [] := rfl
      refine .quiet trivial ?_ fun _ => Iff.rfl
      rw [owned, owned, held, List.filterMap_append, hheld, List.append_nil]
      rfl
  | mark index =>
      simp only [step] at h
      split at h
      next hcall => cases h; exact .of_mark hcall
      next => cases h
  | lookup index =>
      simp only [step] at h
      split at h
      next hcall => cases h; exact .of_lookup hcall
      next => cases h
  | send index =>
      simp only [step] at h
      split at h
      next hcall =>
        split at h
        next =>
          cases h
          refine .quiet trivial ?_ fun _ => Iff.rfl
          refine List.Perm.trans ?_ (owned_perm_of_loss hcall rfl (.returned (.ok ())) rfl).symm
          rw [owned, List.append_assoc]
          exact List.perm_middle
        next => cases h
      next => cases h
  | receive =>
      simp only [step] at h
      split at h
      next => cases h
      next => cases h; exact .quiet trivial (List.Perm.refl _) fun _ => Iff.rfl
  | protocol layer => cases h; exact .quiet trivial (List.Perm.refl _) fun _ => Iff.rfl
  | socket socket => cases h; exact .quiet trivial (List.Perm.refl _) fun _ => Iff.rfl

/-! ## Whole runs -/

/-- The keys that are owned are owned once, and are marked. -/
structure Owned (s : Datagrams) : Prop where
  nodup : s.owned.Nodup
  seen : ∀ key ∈ s.owned, s.Seen key

/-- Every mark is of a datagram that was delivered or that a call is about to deliver. -/
def MarksAccounted (s : Datagrams) : Prop := ∀ key, s.Seen key → key ∈ s.delivered ∨ key ∈ s.held

theorem marksAccounted_iff : s.MarksAccounted ↔ ∀ key, s.Seen key → key ∈ s.owned := by
  simp only [MarksAccounted, owned, List.mem_append]

theorem Owned.step (h : s.Owned) (hstep : step c s e = some s') : s'.Owned := by
  cases Move.of_step hstep with
  | quiet found owned seen =>
      refine ⟨owned.nodup_iff.mpr h.nodup, ?_⟩
      intro key hkey
      exact (seen key).mpr (h.seen key (owned.mem_iff.mp hkey))
  | @marked key found unseen owned seen =>
      refine ⟨owned.nodup_iff.mpr (List.nodup_cons.mpr ⟨?_, h.nodup⟩), ?_⟩
      · intro hkey
        exact unseen (h.seen key hkey)
      · intro k hk
        rcases List.mem_cons.mp (owned.mem_iff.mp hk) with rfl | hk
        · exact (seen k).mpr (Or.inr rfl)
        · exact (seen k).mpr (Or.inl (h.seen k hk))
  | lost missed owned seen =>
      refine ⟨(List.nodup_cons.mp (owned.nodup_iff.mp h.nodup)).2, ?_⟩
      intro key hkey
      exact (seen key).mpr (h.seen key (owned.mem_iff.mpr (.tail _ hkey)))

theorem owned_run {peerId : PeerId} {socket : QuicPeerSocket} {protocol : ProtocolLayer}
    {es : List DatagramEvent}
    (h : Transition.run (Datagrams.step c) (start (.fresh peerId socket protocol)) es = some s) :
    s.Owned := by
  refine Transition.run_invariant (I := Owned) (fun _ _ _ hstep hs => hs.step hstep) h ?_
  exact ⟨List.nodup_nil, fun _ hkey => absurd hkey List.not_mem_nil⟩

/-- A step keeps the marks accounted for exactly if its lookup finds a route. -/
theorem marksAccounted_step (howned : s.Owned) (h : s.MarksAccounted)
    (hstep : step c s e = some s') : s'.MarksAccounted ↔ s.FindsRoute e := by
  rw [marksAccounted_iff] at h ⊢
  cases Move.of_step hstep with
  | quiet found owned seen =>
      refine iff_of_true ?_ found
      intro key hkey
      exact owned.mem_iff.mpr (h key ((seen key).mp hkey))
  | @marked key found unseen owned seen =>
      refine iff_of_true ?_ found
      intro k hk
      rw [owned.mem_iff, List.mem_cons]
      rcases (seen k).mp hk with hk | rfl
      · exact Or.inr (h k hk)
      · exact Or.inl rfl
  | @lost key missed owned seen =>
      refine iff_of_false ?_ missed
      intro h'
      -- The key is still marked, and nobody owns it any more.
      have hkey : s'.Seen key := (seen key).mpr (howned.seen key (owned.mem_iff.mpr (.head _)))
      exact (List.nodup_cons.mp (owned.nodup_iff.mp howned.nodup)).1 (h' key hkey)

/-- A copy of a datagram that nobody owns is delivered, once its source is known. -/
theorem MarksAccounted.delivers (h : s.MarksAccounted) {addr : SocketAddr} {data : List UInt8}
    {peer : PeerId} {frame : DatagramFrame}
    (hpeer : s.endpoint.socket.peerForVirtualAddr addr = some peer)
    (hframe : decodeDatagramFrame c data = .ok frame) (hdest : frame.dest = s.endpoint.peerId)
    (hroute : s.endpoint.protocol.Reaches frame.src) :
    frame.key ∈ s.delivered ∨ frame.key ∈ s.held ∨
      ∃ message, s.endpoint.DeliversMessage c addr data message := by
  by_cases hseen : s.Seen frame.key
  · rcases h frame.key hseen with hdelivered | hheld
    · exact Or.inl hdelivered
    · exact Or.inr (Or.inl hheld)
  · have hunseen : s.endpoint.seenDatagrams.get (frame.src, frame.id) = none := by
      cases hget : s.endpoint.seenDatagrams.get (frame.src, frame.id) with
      | none => rfl
      | some u => exact absurd hget hseen
    obtain ⟨⟨route, metric⟩, hlookup⟩ := ProtocolLayer.routeMetricFor_isOk_iff.mpr hroute
    exact Or.inr (Or.inr ⟨_, Incoming.deliversMessage_iff.mpr
      ⟨peer, frame, route, metric, hpeer, hframe, hdest, hunseen, hlookup, rfl⟩⟩)

/-- However the calls interleave, no key is delivered twice.  Every mark is of a datagram
that was delivered or is about to be, all along a run, exactly if every lookup of the
run finds a route or a candidate.  In such a state every copy that arrives from a
known source is delivered, unless another copy was or is. -/
theorem datagram_once_iff (c : FrameCodec) (peerId : PeerId) (socket : QuicPeerSocket)
    (protocol : ProtocolLayer) {es : List DatagramEvent} {s : Datagrams}
    (hrun : Transition.run (step c) (start (.fresh peerId socket protocol)) es = some s) :
    s.delivered.Nodup ∧
      ((∀ pre m, pre <+: es →
          Transition.run (step c) (start (.fresh peerId socket protocol)) pre = some m →
          m.MarksAccounted) ↔
        Transition.Along (step c) FindsRoute (start (.fresh peerId socket protocol)) es) ∧
      (s.MarksAccounted → ∀ addr data peer frame,
        s.endpoint.socket.peerForVirtualAddr addr = some peer →
        decodeDatagramFrame c data = .ok frame → frame.dest = s.endpoint.peerId →
        s.endpoint.protocol.Reaches frame.src →
        frame.key ∈ s.delivered ∨ frame.key ∈ s.held ∨
          ∃ message, s.endpoint.DeliversMessage c addr data message) := by
  refine ⟨(List.nodup_append.mp (owned_run hrun).nodup).1, ?_, ?_⟩
  · refine Transition.invariant_iff_along (I := MarksAccounted) hrun ?_ ?_
    · intro key hkey
      cases hkey
    · intro pre m e m' hm hstep h
      exact marksAccounted_step (owned_run hm) h hstep
  · intro h addr data peer frame hpeer hframe hdest hroute
    exact h.delivers hpeer hframe hdest hroute

/-- The endpoint of `a`, connected with `e`, with this protocol layer. -/
def connected (protocol : ProtocolLayer) : Datagrams :=
  start (.fresh ⟨"a"⟩ Incoming.declaredNode.socket protocol)

/-- Two copies of a datagram of `b`, the second of which is marked first. -/
def twoCopies : List DatagramEvent :=
  [.arrive Incoming.declaredAddr Incoming.declaredFrame,
    .arrive Incoming.declaredAddr Incoming.declaredFrame, .mark 1, .mark 0, .lookup 1, .send 1]

theorem datagram_once_two_copies :
    ∃ s, Transition.run (step Incoming.declaredCodec) (connected Incoming.declaredNode.protocol)
        twoCopies = some s ∧ s.delivered = [(⟨"b"⟩, 7)] ∧ s.MarksAccounted := by
  obtain ⟨s, hs, hdelivered⟩ :
      ∃ s, Transition.run (step Incoming.declaredCodec) (connected Incoming.declaredNode.protocol)
          twoCopies = some s ∧
        s.delivered = [(⟨"b"⟩, 7)] := by
    decide +kernel
  have hfinds : Transition.Along (step Incoming.declaredCodec) FindsRoute
      (connected Incoming.declaredNode.protocol) twoCopies := by
    decide +kernel
  refine ⟨s, hs, hdelivered, ?_⟩
  exact (datagram_once_iff Incoming.declaredCodec _ _ _ hs).2.1.mpr hfinds _ s
    (List.prefix_refl _) hs

/-- The first copy arrives before there is a candidate for `b`. -/
def earlyCopy : List DatagramEvent :=
  [.arrive Incoming.declaredAddr Incoming.declaredFrame, .mark 0, .lookup 0,
    .protocol Incoming.declaredNode.protocol]

/-- The copies that arrive once there is a candidate are dropped. -/
theorem early_copy_drops_later :
    ¬ ∀ (c : FrameCodec) (peerId : PeerId) (socket : QuicPeerSocket) (protocol : ProtocolLayer)
        (es : List DatagramEvent) (s : Datagrams) (addr : SocketAddr) (data : List UInt8)
        (peer : PeerId) (frame : DatagramFrame),
      Transition.run (step c) (start (.fresh peerId socket protocol)) es = some s →
      s.endpoint.socket.peerForVirtualAddr addr = some peer →
      decodeDatagramFrame c data = .ok frame → frame.dest = s.endpoint.peerId →
      s.endpoint.protocol.Reaches frame.src →
      frame.key ∈ s.delivered ∨ frame.key ∈ s.held ∨
        ∃ message, s.endpoint.DeliversMessage c addr data message := by
  intro h
  obtain ⟨s, hs, hpeer, hself, hreaches, hdelivered, hheld, hseen⟩ :
      ∃ s, Transition.run (step Incoming.declaredCodec) (connected Startup.nodeA.layer)
          earlyCopy = some s ∧
        s.endpoint.socket.peerForVirtualAddr Incoming.declaredAddr = some ⟨"e"⟩ ∧
        s.endpoint.peerId = ⟨"a"⟩ ∧ s.endpoint.protocol.Reaches ⟨"b"⟩ ∧ s.delivered = [] ∧
        s.held = [] ∧ s.Seen (⟨"b"⟩, 7) := by
    decide +kernel
  have hframe : decodeDatagramFrame Incoming.declaredCodec Incoming.declaredFrame =
      .ok ⟨7, ⟨"b"⟩, ⟨"a"⟩, [1]⟩ := by
    decide +kernel
  rcases h _ _ _ _ _ s _ _ _ _ hs hpeer hframe hself.symm hreaches with hk | hk | ⟨message, hk⟩
  · rw [hdelivered] at hk
    cases hk
  · rw [hheld] at hk
    cases hk
  · obtain ⟨-, frame, -, -, -, hframe', -, hunseen, -⟩ := Incoming.deliversMessage_iff.mp hk
    cases hframe.symm.trans hframe'
    cases hseen.symm.trans hunseen

/-! ## A call that nothing interrupts -/

/-- The last call, and the calls after it moved on. -/
theorem last_call {calls rest : List DatagramCall} {call : DatagramCall}
    (h : calls = rest ++ [call]) :
    calls[rest.length]? = some call ∧ ∀ call', calls.set rest.length call' = rest ++ [call'] := by
  subst h
  refine ⟨List.getElem?_concat_length, ?_⟩
  intro call'
  rw [List.set_append_right _ _ (Nat.le_refl _), Nat.sub_self, List.set_cons_zero]

/-- The last call puts its message in the inbox. -/
theorem step_send_last {ep : Incoming} {rest : List DatagramCall} {frame : DatagramFrame}
    {message : ReceivedMessage} {delivered : List (PeerId × UInt64)}
    (room : ep.inbox.length < INBOX_CAPACITY) :
    step c ⟨ep, rest ++ [.sending frame message], delivered⟩ (.send rest.length) =
      some ⟨{ ep with inbox := ep.inbox ++ [message] }, rest ++ [.returned (.ok ())],
        delivered ++ [frame.key]⟩ := by
  simp only [step, List.getElem?_concat_length, room, if_true, (last_call rfl).2]

/-- The last call looks up the route of the source and sends the message. -/
theorem run_lookup {rest : List DatagramCall} {frame : DatagramFrame}
    (hcalls : s.calls = rest ++ [.marked frame])
    (room : s.endpoint.inbox.length < INBOX_CAPACITY) :
    ∃ es s', Transition.run (step c) s es = some s' ∧
      match s.endpoint.protocol.routeMetricFor frame.src with
      | (.error e, protocol) => s'.endpoint = { s.endpoint with protocol := protocol } ∧
          s'.calls = rest ++ [.returned (.error e)]
      | (.ok (route, metric), protocol) =>
          s'.endpoint = { s.endpoint with
            protocol := protocol
            inbox := s.endpoint.inbox ++ [{
              payload := frame.payload
              src := frame.src
              dest := frame.dest
              route := route
              ttl := saturatingSub s.endpoint.protocol.maxTtl metric
              maxTtl := s.endpoint.protocol.maxTtl
              isRelay := metric > 0
              isBroadcast := false }] } ∧
          s'.calls = rest ++ [.returned (.ok ())] := by
  obtain ⟨hget, hset⟩ := last_call hcalls
  have hlookup : step c s (.lookup rest.length) = some { s with
      endpoint := (s.endpoint.lookupDatagram frame).2
      calls := rest ++ [(s.endpoint.lookupDatagram frame).1] } := by
    simp only [step, hget, hset]
  simp only [Incoming.lookupDatagram] at hlookup
  split
  next e protocol heq =>
    rw [heq] at hlookup
    exact ⟨_, _, Transition.run_snoc (Transition.run_nil s) hlookup, rfl, rfl⟩
  next route metric protocol heq =>
    rw [heq] at hlookup
    have hsend := Transition.run_snoc (Transition.run_snoc (Transition.run_nil s) hlookup)
      (step_send_last room)
    exact ⟨_, _, hsend, rfl, rfl⟩

/-- A call whose steps follow one another is a call of `handle_incoming_datagram`. -/
theorem run_alone (c : FrameCodec) (s : Datagrams) (addr : SocketAddr) (data : List UInt8)
    (room : s.endpoint.inbox.length < INBOX_CAPACITY) :
    ∃ es s', Transition.run (step c) s es = some s' ∧
      s'.endpoint = (s.endpoint.handleIncomingDatagram c addr data).2 ∧
      s'.calls = s.calls ++ [.returned (s.endpoint.handleIncomingDatagram c addr data).1] := by
  have hmark : Transition.run (step c) s [.arrive addr data, .mark s.calls.length] = some { s with
      endpoint := (s.endpoint.markDatagram c addr data).2
      calls := s.calls ++ [(s.endpoint.markDatagram c addr data).1] } := by
    simp only [Transition.run_cons, step, List.getElem?_concat_length, (last_call rfl).2,
      Option.bind_some, Transition.run_nil]
  simp only [Incoming.markDatagram] at hmark
  simp only [Incoming.handleIncomingDatagram]
  split
  next hpeer =>
    rw [hpeer] at hmark
    exact ⟨_, _, hmark, rfl, rfl⟩
  next hpeer =>
    rw [hpeer] at hmark
    split
    next hframe =>
      rw [hframe] at hmark
      exact ⟨_, _, hmark, rfl, rfl⟩
    next frame hframe =>
      rw [hframe] at hmark
      split
      next hdest =>
        simp only [if_pos hdest] at hmark
        exact ⟨_, _, hmark, rfl, rfl⟩
      next hdest =>
        simp only [if_neg hdest, DatagramFrame.key] at hmark
        split
        next hseen =>
          rw [hseen] at hmark
          exact ⟨_, _, hmark, rfl, rfl⟩
        next hseen =>
          rw [hseen] at hmark
          obtain ⟨es, s', hrun, hs'⟩ := run_lookup (c := c) (s := { s with
            endpoint := { s.endpoint with
              seenDatagrams := s.endpoint.seenDatagrams.insert (frame.src, frame.id) () }
            calls := s.calls ++ [.marked frame] }) rfl room
          refine ⟨[.arrive addr data, .mark s.calls.length] ++ es, s', ?_, ?_⟩
          · rw [Transition.run_append, hmark, Option.bind_some]
            exact hrun
          · split
            next heq =>
              rw [heq] at hs'
              exact hs'
            next heq =>
              rw [heq] at hs'
              exact hs'

end Datagrams

end RustP2p
