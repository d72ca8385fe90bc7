import RustP2p.Quic.Node

/-!
# Where direct routes come from

A direct route of a reached node was introduced at some step of the run
(`Transition.run_flip`), and `Introduced` says which steps can do that: handling
a packet that came directly, on the key of the route.

`direct_route_provenance` lists the packet types.  Whom the route names is
another matter.  Three branches confirm an id they read from the payload, and
nothing compares it with the header.  So a direct route belongs to the sender of
the packet in runs where the ids agree at these branches
(`direct_route_of_sender`), and not in every run
(`direct_route_not_of_sender`).
-/

namespace RustP2p

open ProtocolLayer

/-! ## The packets that introduce direct routes -/

/-- A packet that came directly to this node on the key, of a type that can
confirm it. -/
def IntroducesDirect (l : ProtocolLayer) (packet : Packet) (k : RouteKey) : Prop :=
  packet.metric = 0 ∧ (packet.dest = l.peerId ∨ packet.dest.isBroadcast = true) ∧
    (packet.protocol = .ok .helloRequest ∨
      (packet.protocol = .ok .helloReply ∧ (l.pendingHelloRoutes.get k).isSome) ∨
      packet.protocol = .ok .punchRequest ∨ packet.protocol = .ok .punchReply ∨
      packet.protocol = .ok .natObserveReply ∨
      (k.protocol.isTcp = true ∧ (packet.protocol = .ok .idRouteReply ∨
        packet.protocol = .ok .echoRequest ∨ packet.protocol = .ok .timestampRequest)))

theorem isLocal_iff {l : ProtocolLayer} {packet : Packet} :
    l.isLocal packet = true ↔ packet.dest = l.peerId ∨ packet.dest.isBroadcast = true := by
  simp [isLocal]

theorem introducesDirect_of_confirmed {c : Codec} {l : ProtocolLayer} {packet : Packet}
    {k : RouteKey} {p : PeerId} (hlocal : l.isLocal packet = true)
    (h : Confirmed c l packet k p 0) : IntroducesDirect l packet k := by
  have hdest := isLocal_iff.mp hlocal
  generalize hm : (0 : UInt8) = m at h
  cases h with
  | helloRequest type direct => exact ⟨direct, hdest, Or.inl type⟩
  | helloReply type payload direct pending => exact ⟨direct, hdest, Or.inr (Or.inl ⟨type, pending⟩)⟩
  | tcp type direct tcp =>
      exact ⟨direct, hdest, Or.inr (Or.inr (Or.inr (Or.inr (Or.inr ⟨tcp, type⟩))))⟩
  | punchRequest type payload direct fresh =>
      exact ⟨direct, hdest, Or.inr (Or.inr (Or.inl type))⟩
  | punchReply type payload direct fresh pending =>
      exact ⟨direct, hdest, Or.inr (Or.inr (Or.inr (Or.inl type)))⟩
  | natObserveReply type direct =>
      exact ⟨direct, hdest, Or.inr (Or.inr (Or.inr (Or.inr (Or.inl type))))⟩
  | relay type relayed =>
      rw [← hm] at relayed
      exact absurd relayed (UInt8.not_lt.mpr (Nat.le_refl 0))
  | advertised type payload entry => exact absurd hm.symm entry.ne_zero

namespace Node

variable {c : Codec} {n n₀ m : Node} {e : Event} {es : List Event} {p : PeerId} {k : RouteKey}

/-- At this step the peer got the key as a direct route, or its relay route with
the key became direct. -/
def BecomesDirect (c : Codec) (m : Node) (e : Event) (p : PeerId) (k : RouteKey) : Prop :=
  ¬ m.layer.HasRoute p k 0 ∧ ∃ m', step c m e = some m' ∧ m'.layer.HasRoute p k 0

/-- The step confirmed the route. -/
theorem BecomesDirect.introduced (h : BecomesDirect c m e p k) : Introduced c m e p k 0 := by
  obtain ⟨hbefore, m', hstep, hafter⟩ := h
  rcases (adds_step hstep).back hafter with hold | hnew
  · exact absurd hold hbefore
  · exact hnew

/-- A step that makes a route direct handles a packet on the key of the route,
and the packet confirms the route. -/
theorem BecomesDirect.packet (h : BecomesDirect c m e p k) :
    ∃ env data packet, e = .packet env data k ∧ m.layer.screen data = .ok (some packet) ∧
      m.layer.isLocal packet = true ∧ Confirmed c m.layer packet k p 0 := by
  have hintroduced := h.introduced
  generalize hzero : (0 : UInt8) = metric at hintroduced
  cases hintroduced with
  | packet admitted isLocal confirmed => exact ⟨_, _, _, rfl, admitted, isLocal, hzero ▸ confirmed⟩
  | advertised sending entry => exact absurd hzero.symm entry.ne_zero

/-- A direct route that was not there at the start became direct during the run. -/
theorem exists_becomesDirect (hrun : Transition.run (step c) n₀ es = some n)
    (hstart : ¬ n₀.layer.HasRoute p k 0) (hend : n.layer.HasRoute p k 0) :
    ∃ pre e post m, es = pre ++ e :: post ∧ Transition.run (step c) n₀ pre = some m ∧
      BecomesDirect c m e p k := by
  obtain ⟨pre, e, post, m, m', hes, hpre, hstep, hbefore, hafter⟩ :=
    Transition.run_flip (Q := fun n => n.layer.HasRoute p k 0) hrun hstart hend
  exact ⟨pre, e, post, m, hes, hpre, hbefore, m', hstep, hafter⟩

/-- Every direct route of a reached node was introduced by a packet that came
directly on its key and is of one of the listed types.  No other step makes a
route direct, and advertised entries only add relay routes. -/
theorem direct_route_provenance (c : Codec) (s : Startup) {es : List Event} {n : Node}
    (hrun : Transition.run (step c) s.node es = some n) :
    (∀ p k, n.layer.HasRoute p k 0 →
      ∃ pre env data post m packet, es = pre ++ .packet env data k :: post ∧
        Transition.run (step c) s.node pre = some m ∧
        BecomesDirect c m (.packet env data k) p k ∧
        m.layer.screen data = .ok (some packet) ∧ IntroducesDirect m.layer packet k) ∧
    (∀ m e p k, BecomesDirect c m e p k →
      ∃ env data packet, e = .packet env data k ∧ m.layer.screen data = .ok (some packet) ∧
        IntroducesDirect m.layer packet k) ∧
    (∀ (l : ProtocolLayer) env entries via p k metric,
      (l.ingestRouteEntries env entries via).HasRoute p k metric →
      l.HasRoute p k metric ∨ 1 ≤ metric) := by
  have hsource : ∀ m e p k, BecomesDirect c m e p k →
      ∃ env data packet, e = .packet env data k ∧ m.layer.screen data = .ok (some packet) ∧
        IntroducesDirect m.layer packet k := by
    intro m e p k h
    obtain ⟨env, data, packet, rfl, hscreen, hlocal, hconfirmed⟩ := h.packet
    exact ⟨env, data, packet, rfl, hscreen, introducesDirect_of_confirmed hlocal hconfirmed⟩
  refine ⟨?_, hsource, ?_⟩
  · intro p k hend
    obtain ⟨pre, e, post, m, hes, hpre, hdirect⟩ :=
      exists_becomesDirect hrun (s.not_hasRoute p k 0) hend
    obtain ⟨env, data, packet, rfl, hscreen, hpacket⟩ := hsource m e p k hdirect
    exact ⟨pre, env, data, post, m, packet, hes, hpre, hdirect, hscreen, hpacket⟩
  · intro l env entries via p k metric h
    rcases (adds_ingestRouteEntries l env entries via).back h with hold | ⟨-, hentry⟩
    · exact Or.inl hold
    · right
      rw [UInt8.le_iff_toNat_le, UInt8.toNat_one]
      exact Nat.one_le_iff_ne_zero.mpr fun hzero => hentry.ne_zero (UInt8.toNat_inj.mp hzero)

/-- The TCP key of `b` at the node `a`. -/
def tcpKey : RouteKey := ⟨.tcp, .v4 ⟨10, 0, 0, 1⟩ 5000, .v4 ⟨10, 0, 0, 2⟩ 5000⟩

/-- An EchoRequest of `b` to `a`. -/
def echoPacket : Packet where
  buf := [133, 3, 0, 3, 3, 0, 0, 0, 23, 0, 1, 0, 1, 98, 97, 0, 0, 0, 0, 0, 0, 0, 9]
  src := ⟨"b"⟩
  dest := ⟨"a"⟩
  payloadOffset := 15
  header_le := Packet.header_le_fifteen
  offset_le := by decide

/-- The run in which `a` handles that packet. -/
def echoRun : List Event := [.packet (Env.atMillis 1) echoPacket.buf tcpKey]

theorem run_echoRun : ∃ n, Transition.run (step .empty) Startup.nodeA.node echoRun = some n ∧
    n.layer.HasRoute ⟨"b"⟩ tcpKey 0 := by
  decide

/-- An EchoRequest over TCP makes its sender direct, and the run shows it. -/
theorem direct_route_provenance_echo :
    ∃ n, Transition.run (step .empty) Startup.nodeA.node echoRun = some n ∧
      n.layer.HasRoute ⟨"b"⟩ tcpKey 0 ∧
      ∃ pre env data post m packet, echoRun = pre ++ .packet env data tcpKey :: post ∧
        Transition.run (step .empty) Startup.nodeA.node pre = some m ∧
        BecomesDirect .empty m (.packet env data tcpKey) ⟨"b"⟩ tcpKey ∧
        m.layer.screen data = .ok (some packet) ∧ IntroducesDirect m.layer packet tcpKey := by
  obtain ⟨n, hrun, hdirect⟩ := run_echoRun
  exact ⟨n, hrun, hdirect, (direct_route_provenance .empty .nodeA hrun).1 ⟨"b"⟩ tcpKey hdirect⟩

/-! ## Whom a direct route names -/

/-- The branches that confirm an id from the payload, when they are about to,
find the id of the header there. -/
structure IdsAgree (c : Codec) (l : ProtocolLayer) (packet : Packet) (k : RouteKey) : Prop where
  helloReply : packet.protocol = .ok .helloReply → packet.metric = 0 →
    (l.pendingHelloRoutes.get k).isSome →
    ∀ hello, decodeHelloPayload c packet.payload = .ok hello → hello.peer.peerId = packet.src
  punchRequest : packet.protocol = .ok .punchRequest → packet.metric = 0 →
    ∀ punch, decodePunchPayload c packet.payload = .ok punch →
    l.hasDirectRoute punch.src = false → punch.src = packet.src
  punchReply : packet.protocol = .ok .punchReply → packet.metric = 0 →
    ∀ punch, decodePunchPayload c packet.payload = .ok punch →
    l.hasDirectRoute punch.src = false → l.pendingPunch.get punch.requestId = some punch.src →
    punch.src = packet.src

/-- A step at which the ids agree, if it handles a packet for this node. -/
def IdsAgreeAt (c : Codec) (m : Node) : Event → Prop
  | .packet _ data k => ∀ packet, m.layer.screen data = .ok (some packet) →
      m.layer.isLocal packet = true → IdsAgree c m.layer packet k
  | _ => True

/-- The route became direct while a packet of the peer itself, received on the
key, was handled. -/
def ConfirmedBySender (c : Codec) (n₀ : Node) (es : List Event) (p : PeerId) (k : RouteKey) :
    Prop :=
  ∃ pre env data post m packet, es = pre ++ .packet env data k :: post ∧
    Transition.run (step c) n₀ pre = some m ∧ BecomesDirect c m (.packet env data k) p k ∧
    m.layer.screen data = .ok (some packet) ∧ packet.src = p

theorem src_of_confirmed {l : ProtocolLayer} {packet : Packet} (hagree : IdsAgree c l packet k)
    (h : Confirmed c l packet k p 0) : packet.src = p := by
  generalize hm : (0 : UInt8) = metric at h
  cases h with
  | helloRequest => rfl
  | helloReply type payload direct pending =>
      exact (hagree.helloReply type direct pending _ payload).symm
  | tcp => rfl
  | punchRequest type payload direct fresh =>
      exact (hagree.punchRequest type direct _ payload fresh).symm
  | punchReply type payload direct fresh pending =>
      exact (hagree.punchReply type direct _ payload fresh pending).symm
  | natObserveReply => rfl
  | relay => rfl
  | advertised type payload entry => exact absurd hm.symm entry.ne_zero

/-- In a run whose steps all have agreeing ids, every direct route was confirmed
by a packet of the peer it names. -/
theorem direct_route_of_sender (c : Codec) (s : Startup) {es : List Event} {n : Node}
    (hrun : Transition.run (step c) s.node es = some n)
    (hagree : Transition.Along (step c) (IdsAgreeAt c) s.node es) {p : PeerId} {k : RouteKey}
    (hdirect : n.layer.HasRoute p k 0) : ConfirmedBySender c s.node es p k := by
  obtain ⟨pre, e, post, m, hes, hpre, hbecomes⟩ :=
    exists_becomesDirect hrun (s.not_hasRoute p k 0) hdirect
  obtain ⟨env, data, packet, rfl, hscreen, hlocal, hconfirmed⟩ := hbecomes.packet
  have hat := (Transition.along_iff hrun).mp hagree pre _ post m hes hpre packet hscreen hlocal
  exact ⟨pre, env, data, post, m, packet, hes, hpre, hbecomes, hscreen,
    src_of_confirmed hat hconfirmed⟩

/-- The EchoRequest confirms its sender, and no id is read from a payload. -/
theorem direct_route_of_sender_echo :
    ∃ n, Transition.run (step .empty) Startup.nodeA.node echoRun = some n ∧
      n.layer.HasRoute ⟨"b"⟩ tcpKey 0 ∧
      ConfirmedBySender .empty Startup.nodeA.node echoRun ⟨"b"⟩ tcpKey := by
  obtain ⟨n, hrun, hdirect⟩ := run_echoRun
  refine ⟨n, hrun, hdirect, direct_route_of_sender .empty .nodeA hrun ⟨?_, ?_⟩ hdirect⟩
  · intro packet hscreen _
    have hecho : Startup.nodeA.node.layer.screen echoPacket.buf = .ok (some echoPacket) := by decide
    obtain rfl : echoPacket = packet := Option.some.inj (Except.ok.inj (hecho.symm.trans hscreen))
    have htype : echoPacket.protocol = .ok .echoRequest := by decide
    constructor <;> intro h <;> rw [htype] at h <;> cases h
  · split <;> trivial

/-- The UDP key of `b` at the node `a`. -/
def punchKey : RouteKey := ⟨.udp, .v4 ⟨0, 0, 0, 0⟩ 5000, .v4 ⟨10, 0, 0, 2⟩ 5000⟩

/-- The protobuf bytes of a punch request that names `v` as its source. -/
def punchBytes : List UInt8 := [8, 7, 18, 1, 118, 26, 1, 97, 34, 0]

/-- The message `NatInfo` with its default fields and this local address. -/
def emptyNatInfo (localIpv4 : String) : Pb.NatInfo :=
  ⟨0, [], [], [], [], 0, localIpv4, [], "", [], 0, 0, []⟩

/-- A codec that knows the request and the reply to it. -/
def punchCodec : Codec :=
  { Codec.empty with
    punch := .ofTable [
      (⟨7, "v", "a", some (emptyNatInfo "")⟩, punchBytes),
      (⟨7, "a", "v", some (emptyNatInfo "0.0.0.0")⟩,
        [8, 7, 18, 1, 97, 26, 1, 118, 34, 9, 58, 7, 48, 46, 48, 46, 48, 46, 48])]
    ipv4 := .ofTable [(.unspecified, "0.0.0.0")] }

/-- A PunchRequest of `b` to `a` that names `v` as its source. -/
def punchPacket : Packet where
  buf := [131, 3, 0, 3, 3, 0, 0, 0, 25, 0, 1, 0, 1, 98, 97] ++ punchBytes
  src := ⟨"b"⟩
  dest := ⟨"a"⟩
  payloadOffset := 15
  header_le := Packet.header_le_fifteen
  offset_le := by decide

/-- With one packet, `b` makes its own address the direct route of `v`. -/
theorem direct_route_not_of_sender :
    ¬ ∀ (c : Codec) (s : Startup) (es : List Event) (n : Node) (p : PeerId) (k : RouteKey),
      Transition.run (step c) s.node es = some n → n.layer.HasRoute p k 0 →
      ConfirmedBySender c s.node es p k := by
  intro h
  obtain ⟨n, hrun, hdirect⟩ :
      ∃ n, Transition.run (step punchCodec) Startup.nodeA.node
          [.packet (Env.atMillis 1) punchPacket.buf punchKey] = some n ∧
        n.layer.HasRoute ⟨"v"⟩ punchKey 0 := by
    decide
  obtain ⟨pre, env, data, post, m, packet, hes, hpre, -, hscreen, hsrc⟩ :=
    h punchCodec .nodeA _ n ⟨"v"⟩ punchKey hrun hdirect
  -- The run has one event, so the packet is the one of `b`.
  cases pre with
  | cons e pre => simp at hes
  | nil =>
      cases hes
      cases hpre
      have hpacket : Startup.nodeA.node.layer.screen punchPacket.buf = .ok (some punchPacket) := by
        decide
      obtain rfl : punchPacket = packet :=
        Option.some.inj (Except.ok.inj (hpacket.symm.trans hscreen))
      exact absurd hsrc (by decide)

end Node

end RustP2p
