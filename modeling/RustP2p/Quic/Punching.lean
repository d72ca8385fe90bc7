import RustP2p.Quic.Frame
import RustP2p.Quic.Node

/-!
# Hole punching

Four packet types carry a punch payload.  Each branch stores the NAT information
of the peer the payload names and then does some of three things: it confirms a
direct route to that peer, it answers, and it punches towards it
(`try_execute_punch`).

The whitelist is checked before the answer and before the punch, and not before
the confirmation.  `whitelist_enforced_iff` is about a peer that is not allowed.
`punchReply_unmatched` is about a PunchReply that answers no request of this
node: it confirms nothing, and the node may punch all the same.
-/

namespace RustP2p

/-- The effect is a round of `execute_punch`. -/
def Effect.isPunch : Effect → Bool
  | .punch _ _ => true
  | _ => false

/-- The packet types that carry a punch payload. -/
def ProtocolType.carriesPunch : ProtocolType → Bool
  | .punchConsultRequest => true
  | .punchConsultReply => true
  | .punchRequest => true
  | .punchReply => true
  | _ => false

namespace ProtocolLayer

variable {c : Codec} {env : Env} {l : ProtocolLayer} {data : List UInt8} {packet : Packet}
  {key : RouteKey} {punch : PunchPayload}

/-! ## The branches for a peer that is not allowed -/

theorem handlePunchPayload_decoded (payload : decodePunchPayload c packet.payload = .ok punch) :
    handlePunchPayload c l packet.payload =
      (.ok punch, l.insertPeerNat punch.src punch.natInfo) := by
  simp only [handlePunchPayload, payload]

theorem onPunchRequest_denied (payload : decodePunchPayload c packet.payload = .ok punch)
    (hdenied : l.punchAllowed punch.src = false) :
    onPunchRequest c env l packet key = .ok ((l.insertPeerNat punch.src punch.natInfo
      ).confirmPunchRequest env punch.src key packet.metric) := by
  simp only [onPunchRequest, handlePunchPayload_decoded payload]
  rw [if_neg]
  rw [((framed_insertPeerNat l _ _).trans
    (framed_confirmPunchRequest _ env punch.src key packet.metric)).punchAllowed, hdenied]
  simp

/-- After the confirmation, only the whitelist decides whether to punch. -/
theorem onPunchReply_decoded {m : ProtocolLayer}
    (payload : decodePunchPayload c packet.payload = .ok punch)
    (hm : (l.insertPeerNat punch.src punch.natInfo).confirmPunchReply env punch key
      packet.metric = m) :
    onPunchReply c env l packet key =
      if m.punchAllowed punch.src then
        (tryExecutePunch c m env punch.src punch.natInfo key packet.metric).ignoring .ok
      else .ok m := by
  subst hm
  simp only [onPunchReply, handlePunchPayload_decoded payload]

theorem onPunchReply_denied (payload : decodePunchPayload c packet.payload = .ok punch)
    (hdenied : l.punchAllowed punch.src = false) :
    onPunchReply c env l packet key = .ok ((l.insertPeerNat punch.src punch.natInfo
      ).confirmPunchReply env punch key packet.metric) := by
  rw [onPunchReply_decoded payload rfl, if_neg]
  rw [(framed_confirmPunchReply _ env punch key packet.metric).punchAllowed]
  exact Bool.eq_false_iff.mp hdenied

theorem handlePunchConsultRequest_denied
    (payload : decodePunchPayload c packet.payload = .ok punch)
    (hdenied : l.punchAllowed punch.src = false) :
    handlePunchConsultRequest c env l packet key =
      .ok (l.insertPeerNat punch.src punch.natInfo) := by
  simp only [handlePunchConsultRequest, handlePunchPayload_decoded payload]
  rw [if_pos]
  rw [(framed_insertPeerNat l _ _).punchAllowed, hdenied]
  simp

theorem onPunchConsultReply_decoded (payload : decodePunchPayload c packet.payload = .ok punch) :
    onPunchConsultReply c l packet = .ok (l.insertPeerNat punch.src punch.natInfo) := by
  simp only [onPunchConsultReply, handlePunchPayload_decoded payload]

/-! ## Packets that are not read -/

/-- Handling leaves the routes and the pending requests alone and does not punch. -/
structure Unread (l : ProtocolLayer) (h : Handling) : Prop where
  routes : l.transport.SameRoutes h.layer.transport
  probes : ∀ e ∈ h.effects, e.isPunch = false
  pending : h.layer.pendingPunch = l.pendingPunch

theorem unread_dropped {o : Outcome ProtocolLayer} (state : o.state = l)
    (effects : o.effects = []) : Unread l (.done o) where
  routes := by
    rw [Handling.layer, state]
    exact Transport.SameRoutes.refl l.transport
  probes e he := by
    rw [Handling.effects, effects] at he
    cases he
  pending := by rw [Handling.layer, state]

/-- A packet for another node is only relayed. -/
theorem unread_forwarded :
    Unread l (.done ((l.arrive env packet key).2.forwardPacket env packet)) where
  routes :=
    (sameRoutes_arrive l env packet key).trans (same_forwardPacket _ env packet).transport.routes
  probes e he := by
    obtain ⟨-, k, m, -, rfl⟩ := effects_forwardPacket he
    rfl
  pending :=
    ((framed_arrive l env packet key).trans (framed_forwardPacket _ env packet)).pendingPunch

/-! ## The whitelist -/

/-- The effect is a punch reply of this node to the peer. -/
def RepliesTo (l : ProtocolLayer) (p : PeerId) (e : Effect) : Prop :=
  ∃ k data packet, e = .toRoute k data ∧ Packet.parse data = .ok packet ∧
    packet.src = l.peerId ∧ packet.dest = p ∧
    (packet.protocol = .ok .punchReply ∨ packet.protocol = .ok .punchConsultReply)

/-- Handling neither makes the peer direct, nor answers it, nor punches towards it. -/
structure Denied (l : ProtocolLayer) (p : PeerId) (h : Handling) : Prop where
  noRoute : ∀ k, h.layer.HasRoute p k 0 → l.HasRoute p k 0
  noReply : ∀ e ∈ h.effects, ¬ RepliesTo l p e
  noPunch : ∀ e ∈ h.effects, e.isPunch = false
  noPending : ∀ id q, h.layer.pendingPunch.get id = some q → l.pendingPunch.get id = some q

/-- What is not read is no offence, unless it answers. -/
theorem Unread.denied {p : PeerId} {h : Handling} (hunread : Unread l h)
    (hreply : ∀ e ∈ h.effects, ¬ RepliesTo l p e) : Denied l p h where
  noRoute k hk := (hunread.routes p k 0).mp hk
  noReply := hreply
  noPunch := hunread.probes
  noPending id q hq := by
    rw [hunread.pending] at hq
    exact hq

/-- A direct packet for this node that confirms the peer its payload names: a
PunchRequest, or a PunchReply to a request that is pending for the peer. -/
def OpensRoute (l : ProtocolLayer) (data : List UInt8) (packet : Packet) (punch : PunchPayload) :
    Prop :=
  l.screen data = .ok (some packet) ∧ l.isLocal packet = true ∧ packet.metric = 0 ∧
    l.hasDirectRoute punch.src = false ∧
    (packet.protocol = .ok .punchRequest ∨
      packet.protocol = .ok .punchReply ∧ l.pendingPunch.get punch.requestId = some punch.src)

/-- A step that makes nobody direct but the peer, and exactly under a condition. -/
theorem noRoute_iff {A : PeerId → RouteKey → UInt8 → Prop} {l' : ProtocolLayer} {p : PeerId}
    {Q : Prop} (hadds : Adds A l l') (hback : ∀ k, A p k 0 → Q)
    (hopens : Q → ∃ k, l'.HasRoute p k 0 ∧ ¬ l.HasRoute p k 0) :
    (∀ k, l'.HasRoute p k 0 → l.HasRoute p k 0) ↔ ¬ Q := by
  constructor
  · intro h hQ
    obtain ⟨k, hnew, hold⟩ := hopens hQ
    exact hold (h k hnew)
  · intro hQ k hnew
    rcases hadds.back hnew with hold | hA
    · exact hold
    · exact absurd (hback k hA) hQ

/-- A direct PunchRequest makes its peer direct. -/
theorem hasRoute_confirmPunchRequest {src : PeerId} {metric : UInt8} (direct : metric = 0)
    (fresh : l.hasDirectRoute src = false) :
    (l.confirmPunchRequest env src key metric).HasRoute src key 0 := by
  simp only [confirmPunchRequest, direct, if_true, fresh, Bool.false_eq_true, if_false]
  exact (quiet_insertCandidate _ src key).kept (hasRoute_confirmDirectAndPromote _ env _ key)

/-- So does a direct PunchReply to a pending request. -/
theorem hasRoute_confirmPunchReply {metric : UInt8} (direct : metric = 0)
    (fresh : l.hasDirectRoute punch.src = false)
    (pending : l.pendingPunch.get punch.requestId = some punch.src) :
    (l.confirmPunchReply env punch key metric).HasRoute punch.src key 0 := by
  have fresh' : (l.removePendingPunch punch.requestId).hasDirectRoute punch.src = false := fresh
  simp only [confirmPunchReply, pending, direct, fresh', Bool.false_eq_true, not_false_iff,
    and_self, if_true]
  exact hasRoute_confirmDirectAndPromote _ env _ key

theorem not_hasRoute_of_fresh {p : PeerId} (fresh : l.hasDirectRoute p = false) (k : RouteKey) :
    ¬ l.HasRoute p k 0 := by
  intro h
  rw [hasDirectRoute_iff.mpr ⟨k, h⟩] at fresh
  cases fresh

/-- Without effects and new requests, only the routes matter. -/
theorem denied_ok_iff {l' : ProtocolLayer} {p : PeerId}
    (hpending : ∀ id q, l'.pendingPunch.get id = some q → l.pendingPunch.get id = some q) :
    Denied l p (.done (.ok l')) ↔ ∀ k, l'.HasRoute p k 0 → l.HasRoute p k 0 := by
  constructor
  · exact Denied.noRoute
  · intro h
    refine ⟨h, ?_, ?_, hpending⟩
    · intro e he
      cases he
    · intro e he
      cases he

/-- The layer when the punch payload is read: the common part is done, and the NAT
information of the peer is stored. -/
def readPunch (l : ProtocolLayer) (env : Env) (packet : Packet) (key : RouteKey)
    (punch : PunchPayload) : ProtocolLayer :=
  (l.arrive env packet key).2.insertPeerNat punch.src punch.natInfo

theorem framed_readPunch : Framed l (l.readPunch env packet key punch) :=
  (framed_arrive l env packet key).trans (framed_insertPeerNat _ _ _)

theorem quiet_readPunch : Quiet l (l.readPunch env packet key punch) :=
  (quiet_arrive l env packet key).trans (same_insertPeerNat _ _ _).quiet

theorem hasDirectRoute_readPunch (p : PeerId) :
    (l.readPunch env packet key punch).hasDirectRoute p = l.hasDirectRoute p :=
  arrive_hasDirectRoute l env packet key p

/-- Reading the payload alone is no offence. -/
theorem denied_readPunch {p : PeerId} :
    Denied l p (.done (.ok (l.readPunch env packet key punch))) := by
  rw [denied_ok_iff]
  · intro k hk
    exact (quiet_readPunch.direct_iff id).mp hk
  · intro id q hq
    rw [framed_readPunch.pendingPunch] at hq
    exact hq

theorem denied_confirmPunchRequest_iff :
    Denied l punch.src (.done (.ok ((l.readPunch env packet key punch).confirmPunchRequest env
      punch.src key packet.metric))) ↔
      ¬ (packet.metric = 0 ∧ l.hasDirectRoute punch.src = false) := by
  rw [denied_ok_iff]
  · refine noRoute_iff (Adds.trans (.of_quiet quiet_readPunch) (adds_confirmPunchRequest _ env
      punch.src key packet.metric)) ?_ ?_
    · intro k h
      obtain ⟨-, -, -, direct, fresh⟩ := h
      rw [hasDirectRoute_readPunch] at fresh
      exact ⟨direct, fresh⟩
    · intro h
      obtain ⟨direct, fresh⟩ := h
      exact ⟨key, hasRoute_confirmPunchRequest direct (by rw [hasDirectRoute_readPunch, fresh]),
        not_hasRoute_of_fresh fresh key⟩
  · intro id q hq
    rw [(framed_readPunch.trans (framed_confirmPunchRequest _ env punch.src key
      packet.metric)).pendingPunch] at hq
    exact hq

theorem denied_confirmPunchReply_iff :
    Denied l punch.src (.done (.ok ((l.readPunch env packet key punch).confirmPunchReply env
      punch key packet.metric))) ↔
      ¬ (packet.metric = 0 ∧ l.hasDirectRoute punch.src = false ∧
        l.pendingPunch.get punch.requestId = some punch.src) := by
  have hpending : (l.readPunch env packet key punch).pendingPunch = l.pendingPunch :=
    framed_readPunch.pendingPunch
  rw [denied_ok_iff]
  · refine noRoute_iff (Adds.trans (.of_quiet quiet_readPunch) (adds_confirmPunchReply _ env
      punch key packet.metric)) ?_ ?_
    · intro k h
      obtain ⟨-, -, -, direct, fresh, pending⟩ := h
      rw [hasDirectRoute_readPunch] at fresh
      rw [hpending] at pending
      exact ⟨direct, fresh, pending⟩
    · intro h
      obtain ⟨direct, fresh, pending⟩ := h
      exact ⟨key, hasRoute_confirmPunchReply direct (by rw [hasDirectRoute_readPunch, fresh])
        (by rw [hpending, pending]), not_hasRoute_of_fresh fresh key⟩
  · intro id q hq
    rw [get_pendingPunch_confirmPunchReply, hpending] at hq
    split at hq
    next => cases hq
    next => exact hq

/-- A packet for another node is no answer of this one: what is forwarded still carries
the id of its sender. -/
theorem not_repliesTo_forwardPacket {p : PeerId} (screened : l.screen data = .ok (some packet))
    {e : Effect} (he : e ∈ ((l.arrive env packet key).2.forwardPacket env packet).effects) :
    ¬ RepliesTo l p e := by
  obtain ⟨-, hparse, hself, -⟩ := screen_eq_some.mp screened
  obtain ⟨-, k, m, -, rfl⟩ := effects_forwardPacket he
  intro h
  obtain ⟨k', sent, own, heq, hown, hsrc, -⟩ := h
  cases heq
  cases (Packet.parse_setTtl hparse _).symm.trans hown
  exact hself hsrc

/-- For a peer that is not allowed, handling a punch packet in its name does nothing of
what the whitelist is there to stop, exactly if the packet does not open a route. -/
theorem whitelist_enforced_iff (c : Codec) (env : Env) (l : ProtocolLayer) (data : List UInt8)
    (key : RouteKey) {packet : Packet} {protocol : ProtocolType} {punch : PunchPayload}
    (hparse : Packet.parse data = .ok packet) (type : packet.protocol = .ok protocol)
    (hpunch : protocol.carriesPunch = true)
    (payload : decodePunchPayload c packet.payload = .ok punch)
    (hdenied : l.punchAllowed punch.src = false) :
    Denied l punch.src (handleTransportPacket c env l data key) ↔
      ¬ OpensRoute l data packet punch := by
  refine Handled.of_type (P := fun handling =>
    Denied l punch.src handling ↔ ¬ OpensRoute l data packet punch) hparse type ?_ ?_ ?_
  · intro outcome unscreened state effects
    refine iff_of_true ((unread_dropped state effects).denied ?_) ?_
    · intro e he
      rw [Handling.effects, effects] at he
      cases he
    · intro hopens
      exact unscreened packet hopens.1
  · intro screened remote
    refine iff_of_true (unread_forwarded.denied ?_) ?_
    · intro e he
      exact not_repliesTo_forwardPacket screened he
    · intro hopens
      exact absurd hopens.2.1 (Bool.eq_false_iff.mp remote)
  · intro screened isLocal
    have hdenied' : (l.arrive env packet key).2.punchAllowed punch.src = false := by
      rw [(framed_arrive l env packet key).punchAllowed, hdenied]
    simp only [OpensRoute, screened, isLocal, type, true_and]
    cases protocol with
    | punchConsultRequest =>
        rw [dispatch, handlePunchConsultRequest_denied payload hdenied']
        exact iff_of_true denied_readPunch (by simp)
    | punchConsultReply =>
        rw [dispatch, onPunchConsultReply_decoded payload]
        exact iff_of_true denied_readPunch (by simp)
    | punchRequest =>
        rw [dispatch, onPunchRequest_denied payload hdenied']
        refine denied_confirmPunchRequest_iff.trans ?_
        simp
    | punchReply =>
        rw [dispatch, onPunchReply_denied payload hdenied']
        refine denied_confirmPunchReply_iff.trans ?_
        simp
    | _ => cases hpunch

/-! ### A peer that is not allowed -/

/-- The message `NatInfo` of a node that knows nothing of its NAT. -/
def unknownNat : Pb.NatInfo := ⟨0, [], [], [], [], 0, "0.0.0.0", [], "", [], 0, 0, []⟩

/-- The protobuf bytes of a punch payload of `b` for `a`, with request id 7. -/
def payloadBytes : List UInt8 :=
  [8, 7, 18, 1, 98, 26, 1, 97, 34, 9, 58, 7, 48, 46, 48, 46, 48, 46, 48]

/-- A codec that knows this payload, and the one in the probe of `a`. -/
def payloadCodec : Codec :=
  { Codec.empty with
    punch := .ofTable [
      (⟨7, "b", "a", some unknownNat⟩, payloadBytes),
      (⟨2, "a", "b", some unknownNat⟩,
        [8, 2, 18, 1, 97, 26, 1, 98, 34, 9, 58, 7, 48, 46, 48, 46, 48, 46, 48])]
    ipv4 := .ofTable [(.unspecified, "0.0.0.0")] }

/-- The PunchRequest of `b` to `a`. -/
def requestPacket : Packet where
  buf := [131, 3, 0, 3, 3, 0, 0, 0, 34, 0, 1, 0, 1, 98, 97] ++ payloadBytes
  src := ⟨"b"⟩
  dest := ⟨"a"⟩
  payloadOffset := 15
  header_le := Packet.header_le_fifteen
  offset_le := by decide

/-- The PunchReply of `b` to `a`. -/
def replyPacket : Packet where
  buf := [132, 3, 0, 3, 3, 0, 0, 0, 34, 0, 1, 0, 1, 98, 97] ++ payloadBytes
  src := ⟨"b"⟩
  dest := ⟨"a"⟩
  payloadOffset := 15
  header_le := Packet.header_le_fifteen
  offset_le := by decide

/-- What both say. -/
def payloadPunch : PunchPayload := ⟨7, ⟨"b"⟩, ⟨"a"⟩, .default⟩

/-- The UDP key they arrive on. -/
def payloadKey : RouteKey := ⟨.udp, .v4 ⟨0, 0, 0, 0⟩ 5000, .v4 ⟨10, 0, 0, 2⟩ 5000⟩

/-- The node `a` with punching disabled. -/
def closedNode : Startup := { Startup.nodeA with punchWhitelist := some [] }

/-- The reply of `b`, which nobody asked for, does nothing. -/
theorem whitelist_enforced_unsolicited :
    Denied closedNode.layer ⟨"b"⟩ (handleTransportPacket payloadCodec (Env.atMillis 1)
      closedNode.layer replyPacket.buf payloadKey) := by
  have hparse : Packet.parse replyPacket.buf = .ok replyPacket := by decide
  have type : replyPacket.protocol = .ok .punchReply := by decide
  have payload : decodePunchPayload payloadCodec replyPacket.payload = .ok payloadPunch := by
    decide
  refine (whitelist_enforced_iff payloadCodec (Env.atMillis 1) closedNode.layer replyPacket.buf
    payloadKey hparse type rfl payload (by decide)).mpr ?_
  intro h
  rcases h with ⟨-, -, -, -, hrequest | ⟨-, hpending⟩⟩
  · exact absurd hrequest (by decide)
  · exact absurd hpending (by decide)

/-- Its request makes it direct, though punching is disabled. -/
theorem whitelist_bypassed :
    ¬ ∀ (c : Codec) (s : Startup) (es : List Event) (n : Node),
      Transition.run (Node.step c) s.node es = some n →
      ∀ (env : Env) (data : List UInt8) (key : RouteKey) (packet : Packet)
        (protocol : ProtocolType) (punch : PunchPayload),
        Packet.parse data = .ok packet → packet.protocol = .ok protocol →
        protocol.carriesPunch = true → decodePunchPayload c packet.payload = .ok punch →
        n.layer.punchAllowed punch.src = false →
        ∀ k, (handleTransportPacket c env n.layer data key).layer.HasRoute punch.src k 0 →
          n.layer.HasRoute punch.src k 0 := by
  intro h
  have hdirect : closedNode.node.layer.HasRoute ⟨"b"⟩ payloadKey 0 :=
    h payloadCodec closedNode [] closedNode.node rfl (Env.atMillis 1) requestPacket.buf payloadKey
      requestPacket .punchRequest payloadPunch (by decide) (by decide) rfl (by decide) (by decide)
      payloadKey (by decide)
  exact closedNode.not_hasRoute ⟨"b"⟩ payloadKey 0 hdirect

/-! ## Replies to no request -/

/-- When `try_execute_punch` goes on to punch: the peer is not direct, and the packet
came directly or the last punch was at least five seconds ago. -/
def Punches (l : ProtocolLayer) (env : Env) (src : PeerId) (metric : UInt8) : Prop :=
  l.hasDirectRoute src = false ∧
    (metric = 0 ∨ l.punchedWithin env.nowSecs src 5 = false)

/-- What `try_execute_punch` does: it skips the punch, or it records its request and
punches. -/
inductive Tried (l : ProtocolLayer) (env : Env) (src : PeerId) (metric : UInt8) :
    Outcome ProtocolLayer → Prop where
  | skipped : Tried l env src metric (.ok l)
  | punched {o : Outcome ProtocolLayer} (punches : Punches l env src metric)
      (transport : o.state.transport = l.transport)
      (pending : o.state.pendingPunch = l.pendingPunch.insert env.punchId src) :
      Tried l env src metric o

theorem tried_tryExecutePunch (src : PeerId) (natInfo : NatInfo) (metric : UInt8) :
    Tried l env src metric (tryExecutePunch c l env src natInfo key metric) := by
  simp only [tryExecutePunch, executePunch]
  split
  next => exact .skipped
  next hdirect =>
    have fresh : l.hasDirectRoute src = false := Bool.eq_false_iff.mpr hdirect
    split
    next hmetric =>
      split
      next => exact .skipped
      next hwithin =>
        have hpunches : Punches l env src metric := ⟨fresh, Or.inr (Bool.eq_false_iff.mpr hwithin)⟩
        split <;> exact .punched hpunches rfl rfl
    next hmetric =>
      have hpunches : Punches l env src metric := ⟨fresh, Or.inl (by simpa using hmetric)⟩
      split <;> exact .punched hpunches rfl rfl

/-- Handling leaves the routes alone, and unless it punches it neither sends a probe nor
changes the pending requests, but for the one it answers. -/
structure OnlyPunches (l : ProtocolLayer) (env : Env) (punch : PunchPayload) (punches : Prop)
    (h : Handling) : Prop where
  routes : ∀ p k m, h.layer.HasRoute p k m ↔ l.HasRoute p k m
  probes : ∀ e ∈ h.effects, e.isPunch = true → punches
  added : ∀ id q, h.layer.pendingPunch.get id = some q →
    l.pendingPunch.get id = some q ∨ punches ∧ id = env.punchId ∧ q = punch.src
  kept : ∀ id q, l.pendingPunch.get id = some q → id ≠ punch.requestId →
    (punches → id ≠ env.punchId) → h.layer.pendingPunch.get id = some q

theorem Unread.onlyPunches {punches : Prop} {h : Handling} (hunread : Unread l h) :
    OnlyPunches l env punch punches h where
  routes := hunread.routes
  probes e he hprobe := by
    rw [hunread.probes e he] at hprobe
    cases hprobe
  added id q hq := by
    rw [hunread.pending] at hq
    exact Or.inl hq
  kept id q hq _ _ := by
    rw [hunread.pending]
    exact hq

/-- A reply to no request of this node leaves the routes alone. -/
theorem transport_confirmPunchReply {metric : UInt8}
    (hunmatched : l.pendingPunch.get punch.requestId ≠ some punch.src) :
    (l.confirmPunchReply env punch key metric).transport = l.transport := by
  simp only [confirmPunchReply]
  split
  next => rfl
  next peerId hpending =>
    split
    next hguard =>
      rw [hpending, hguard.1] at hunmatched
      exact absurd rfl hunmatched
    next => rfl

section Unmatched

variable {m : ProtocolLayer} {punches : Prop} (hsame : l.transport.SameRoutes m.transport)
  (hpending : ∀ id, m.pendingPunch.get id =
    if id = punch.requestId then none else l.pendingPunch.get id)

include hsame hpending

/-- The reply is read, and nothing more. -/
theorem onlyPunches_ok : OnlyPunches l env punch punches (.done (.ok m)) where
  routes := hsame
  probes e he := by cases he
  added id q hq := by
    rw [Handling.layer, Outcome.ok_state, hpending] at hq
    split at hq
    next => cases hq
    next => exact Or.inl hq
  kept id q hq hid _ := by
    rw [Handling.layer, Outcome.ok_state, hpending, if_neg hid]
    exact hq

/-- The node punches. -/
theorem onlyPunches_punched {o : Outcome ProtocolLayer} (hpunches : punches)
    (transport : o.state.transport = m.transport)
    (pending : o.state.pendingPunch = m.pendingPunch.insert env.punchId punch.src) :
    OnlyPunches l env punch punches (.done o) where
  routes := by
    rw [← transport] at hsame
    exact hsame
  probes _ _ _ := hpunches
  added id q hq := by
    rw [Handling.layer, pending, DashMap.get_insert, hpending] at hq
    split at hq
    next hid => exact Or.inr ⟨hpunches, hid, (Option.some.inj hq).symm⟩
    next =>
      split at hq
      next => cases hq
      next => exact Or.inl hq
  kept id q hq hid hfresh := by
    rw [Handling.layer, pending, DashMap.get_insert, if_neg (hfresh hpunches), hpending,
      if_neg hid]
    exact hq

theorem onlyPunches_tried {metric : UInt8} {o : Outcome ProtocolLayer}
    (htried : Tried m env punch.src metric o)
    (hpunches : Punches m env punch.src metric → punches) :
    OnlyPunches l env punch punches (.done (o.ignoring .ok)) := by
  cases htried with
  | skipped => exact onlyPunches_ok hsame hpending
  | punched h transport pending =>
      exact onlyPunches_punched hsame hpending (hpunches h) transport pending

end Unmatched

/-- The PunchReply branch for a reply that answers no request. -/
theorem onlyPunches_onPunchReply (payload : decodePunchPayload c packet.payload = .ok punch)
    (hunmatched : l.pendingPunch.get punch.requestId ≠ some punch.src) :
    OnlyPunches l env punch
      (l.punchAllowed punch.src = true ∧ Punches l env punch.src packet.metric)
      (.done (onPunchReply c env (l.arrive env packet key).2 packet key)) := by
  have hread : Framed l (l.readPunch env packet key punch) := framed_readPunch
  have hframed := framed_confirmPunchReply (l.readPunch env packet key punch) env punch key
    packet.metric
  have htransport : ((l.readPunch env packet key punch).confirmPunchReply env punch key
      packet.metric).transport = (l.readPunch env packet key punch).transport :=
    transport_confirmPunchReply (by rw [hread.pendingPunch]; exact hunmatched)
  have hpending := get_pendingPunch_confirmPunchReply (l.readPunch env packet key punch) env punch
    key packet.metric
  rw [hread.pendingPunch] at hpending
  -- From here on only the layer when it decides whether to punch matters.
  generalize hm : (l.readPunch env packet key punch).confirmPunchReply env punch key
    packet.metric = m at hframed htransport hpending
  have hsame : l.transport.SameRoutes m.transport := by
    rw [htransport]
    exact sameRoutes_arrive l env packet key
  have hallowed : m.punchAllowed punch.src = l.punchAllowed punch.src :=
    (hframed.punchAllowed punch.src).trans (hread.punchAllowed punch.src)
  rw [onPunchReply_decoded payload hm, hallowed]
  split
  next allowed =>
    refine onlyPunches_tried hsame hpending (tried_tryExecutePunch _ _ _) ?_
    intro h
    obtain ⟨fresh, hwhen⟩ := h
    rw [hasDirectRoute, htransport, ← hasDirectRoute, hasDirectRoute_readPunch] at fresh
    rw [hframed.punchedWithin] at hwhen
    exact ⟨allowed, fresh, hwhen.imp_right (hread.punchedWithin _ _ _).symm.trans⟩
  next => exact onlyPunches_ok hsame hpending

/-- A PunchReply that answers no request of this node adds and removes no route.  A probe
follows only if the reply is for this node, its peer is allowed and not direct, and
it came directly or the last punch was at least five seconds ago.  Of the pending
requests, those under another id than the reply's stay, and only the punch itself
adds one. -/
theorem punchReply_unmatched (c : Codec) (env : Env) (l : ProtocolLayer) (data : List UInt8)
    (key : RouteKey) {packet : Packet} {punch : PunchPayload}
    (hparse : Packet.parse data = .ok packet) (type : packet.protocol = .ok .punchReply)
    (payload : decodePunchPayload c packet.payload = .ok punch)
    (hunmatched : l.pendingPunch.get punch.requestId ≠ some punch.src) :
    OnlyPunches l env punch
      (l.isLocal packet = true ∧ l.punchAllowed punch.src = true ∧
        l.hasDirectRoute punch.src = false ∧
        (packet.metric = 0 ∨ l.punchedWithin env.nowSecs punch.src 5 = false))
      (handleTransportPacket c env l data key) := by
  refine Handled.of_type hparse type ?_ ?_ ?_
  · intro outcome _ state effects
    exact (unread_dropped state effects).onlyPunches
  · intro _ _
    exact unread_forwarded.onlyPunches
  · intro _ isLocal
    simp only [isLocal, true_and]
    exact onlyPunches_onPunchReply payload hunmatched

/-- The node `a` with punching disabled does not probe after the reply of `b`. -/
theorem punchReply_unmatched_closed :
    (handleTransportPacket payloadCodec (Env.atMillis 1) closedNode.layer replyPacket.buf
      payloadKey).effects.any Effect.isPunch = false := by
  have hparse : Packet.parse replyPacket.buf = .ok replyPacket := by decide
  have payload : decodePunchPayload payloadCodec replyPacket.payload = .ok payloadPunch := by
    decide
  have honly := punchReply_unmatched payloadCodec (Env.atMillis 1) closedNode.layer
    replyPacket.buf payloadKey hparse (by decide) payload (by decide)
  rw [List.any_eq_false]
  intro e he hprobe
  obtain ⟨-, hallowed, -⟩ := honly.probes e he hprobe
  exact absurd hallowed (by decide)

/-- With punching enabled it does, though it asked nobody. -/
theorem unmatched_reply_probes :
    ¬ ∀ (c : Codec) (s : Startup) (es : List Event) (n : Node),
      Transition.run (Node.step c) s.node es = some n →
      ∀ (env : Env) (data : List UInt8) (key : RouteKey) (packet : Packet)
        (punch : PunchPayload),
        Packet.parse data = .ok packet → packet.protocol = .ok .punchReply →
        decodePunchPayload c packet.payload = .ok punch →
        n.layer.pendingPunch.get punch.requestId ≠ some punch.src →
        ∀ e ∈ (handleTransportPacket c env n.layer data key).effects, e.isPunch = false := by
  intro h
  have hquiet := h payloadCodec .nodeA [] Startup.nodeA.node rfl (Env.atMillis 1) replyPacket.buf
    payloadKey replyPacket payloadPunch (by decide) (by decide) (by decide) (by decide)
  exact absurd hquiet (by decide)

end ProtocolLayer

end RustP2p
