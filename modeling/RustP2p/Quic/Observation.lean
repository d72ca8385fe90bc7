import RustP2p.Quic.HandlerSpec

/-!
# NAT observations

A NatObserveReply tells this node how it is seen, and it confirms the sender's
route.  It should count only from a confirmed direct route or in answer to a
pending request, and `is_confirmed_or_pending_nat_observe` is there to check
that.

The check also accepts a candidate, and the common part of the handler has just
made the sender of every direct packet a candidate (`arrive_candidate`).  So for
a direct packet the check always holds, and what is left are the checks on the
payload: `Accepted`.  `natObserveReply_solicited_iff` says when an observation
is solicited all the same.
-/

namespace RustP2p

namespace ProtocolLayer

variable {c : Codec} {env : Env} {l : ProtocolLayer} {data : List UInt8} {packet : Packet}
  {key : RouteKey} {peer : PeerInfo}

/-- The reply came directly, names its sender as the observer, and the sender is
one this node listens to. -/
def Accepted (c : Codec) (l : ProtocolLayer) (packet : Packet) : Prop :=
  packet.metric = 0 ∧ l.shouldObserveWith packet.src = true ∧
    ∃ reply, decodeNatObserveReplyPayload c packet.payload = .ok reply ∧
      reply.observation.observerPeerId = packet.src

/-- The NAT information or the set of direct routes differs. -/
def ObservedChange (l l' : ProtocolLayer) : Prop :=
  l'.natInfo ≠ l.natInfo ∨ ∃ p k, ¬ (l'.HasRoute p k 0 ↔ l.HasRoute p k 0)

/-- The sender has this key as a direct route, or was asked over it. -/
def Solicited (l : ProtocolLayer) (src : PeerId) (key : RouteKey) : Prop :=
  l.HasRoute src key 0 ∨ l.pendingNatObserve.get src = some key

theorem not_observedChange (h : Quiet l l') (hnat : l'.natInfo = l.natInfo) :
    ¬ ObservedChange l l' := by
  intro h
  rcases h with hchange | ⟨p, k, hchange⟩
  · exact hchange hnat
  · exact hchange (h.direct_iff id)

/-! ## The branch -/

/-- The check takes a pending request away and changes nothing else. -/
theorem isConfirmedOrPendingNatObserve_fields (l : ProtocolLayer) (p : PeerId) (k : RouteKey)
    (m : UInt8) : (l.isConfirmedOrPendingNatObserve p k m).2.natInfo = l.natInfo ∧
      (l.isConfirmedOrPendingNatObserve p k m).2.natObservers = l.natObservers := by
  simp only [isConfirmedOrPendingNatObserve]
  split
  next => exact ⟨rfl, rfl⟩
  next => split <;> exact ⟨rfl, rfl⟩

/-- A relayed reply fails the check. -/
theorem isConfirmedOrPendingNatObserve_relayed {p : PeerId} {k : RouteKey} {m : UInt8}
    (hm : m ≠ 0) : (l.isConfirmedOrPendingNatObserve p k m).1 = false := by
  simp only [isConfirmedOrPendingNatObserve]
  have hcandidate : l.isConfirmedOrCandidate p k m ≠ true := by
    rw [Ne, isConfirmedOrCandidate_iff]
    exact fun h => hm h.1
  rw [if_neg hcandidate, if_neg hm]

/-- A reply that is not accepted leaves the NAT information alone. -/
theorem onNatObserveReply_rejected (hreject : ¬ Accepted c l packet) :
    ¬ ObservedChange l (onNatObserveReply c env l packet key peer).state := by
  have hquiet := (same_isConfirmedOrPendingNatObserve l packet.src key packet.metric).quiet
  obtain ⟨hnat, hobservers⟩ :=
    isConfirmedOrPendingNatObserve_fields l packet.src key packet.metric
  simp only [onNatObserveReply]
  split
  next l' heq =>
    rw [heq] at hquiet hnat
    exact not_observedChange hquiet hnat
  next l' heq =>
    have hmetric : packet.metric = 0 := by
      by_contra hm
      have := isConfirmedOrPendingNatObserve_relayed (l := l) (p := packet.src) (k := key) hm
      rw [heq] at this
      cases this
    rw [heq] at hquiet hnat hobservers
    split
    next => exact not_observedChange hquiet hnat
    next reply hdecode =>
      split
      next hguard =>
        refine absurd ⟨hmetric, ?_, reply, hdecode, hguard.1⟩ hreject
        have := hguard.2
        rwa [shouldObserveWith, hobservers] at this
      next => exact not_observedChange hquiet hnat

/-- An accepted reply from a candidate makes its sender direct. -/
theorem onNatObserveReply_accepted (hpeer : peer.peerId = packet.src)
    (hcandidate : l.routeCandidates.get packet.src = some key) (haccept : Accepted c l packet) :
    (onNatObserveReply c env l packet key peer).state.HasRoute packet.src key 0 := by
  obtain ⟨hmetric, hobserve, reply, hdecode, hobserver⟩ := haccept
  have hcheck : l.isConfirmedOrPendingNatObserve packet.src key packet.metric = (true, l) := by
    simp only [isConfirmedOrPendingNatObserve]
    rw [if_pos (isConfirmedOrCandidate_iff.mpr ⟨hmetric, Or.inr hcandidate⟩)]
  simp only [onNatObserveReply]
  rw [hcheck]
  simp only [hdecode, hobserver, hobserve, hmetric, and_self, if_true, Outcome.ok_state]
  rw [← hpeer]
  exact hasRoute_confirmDirectAndPromote _ env peer key

/-! ## The handler -/

/-- Handling of a NatObserveReply for this node. -/
theorem handleTransportPacket_natObserveReply (hscreen : l.screen data = .ok (some packet))
    (hlocal : l.isLocal packet = true) (type : packet.protocol = .ok .natObserveReply) :
    (handleTransportPacket c env l data key).layer =
      (onNatObserveReply c env (l.arrive env packet key).2 packet key
        (l.arrive env packet key).1).state := by
  rw [handleTransportPacket_of_screen hscreen, handlePacket_local hlocal type]
  rfl

theorem accepted_arrive : Accepted c (l.arrive env packet key).2 packet ↔ Accepted c l packet := by
  simp only [Accepted, shouldObserveWith, arrive_natObservers]

/-- The common part changes neither the NAT information nor the direct routes. -/
theorem observedChange_arrive {l' : ProtocolLayer} :
    ObservedChange (l.arrive env packet key).2 l' ↔ ObservedChange l l' := by
  simp only [ObservedChange, arrive_natInfo, (quiet_arrive l env packet key).direct_iff id]

/-- A NatObserveReply changes the NAT information or the direct routes only when
it was solicited, exactly if it was solicited or is not accepted.  An accepted
reply is never checked further. -/
theorem natObserveReply_solicited_iff (hscreen : l.screen data = .ok (some packet))
    (hlocal : l.isLocal packet = true) (type : packet.protocol = .ok .natObserveReply) :
    (ObservedChange l (handleTransportPacket c env l data key).layer →
        Solicited l packet.src key) ↔
      Solicited l packet.src key ∨ ¬ Accepted c l packet := by
  rw [handleTransportPacket_natObserveReply hscreen hlocal type]
  constructor
  · intro h
    by_contra hneither
    rw [not_or, not_not] at hneither
    obtain ⟨hunsolicited, haccept⟩ := hneither
    have hdirect : (onNatObserveReply c env (l.arrive env packet key).2 packet key
        (l.arrive env packet key).1).state.HasRoute packet.src key 0 :=
      onNatObserveReply_accepted (arrive_peer l env packet key)
        (arrive_candidate l env packet key haccept.1) (accepted_arrive.mpr haccept)
    refine hunsolicited (h (Or.inr ⟨packet.src, key, ?_⟩))
    intro hsame
    exact hunsolicited (Or.inl (hsame.mp hdirect))
  · rintro (hsolicited | hreject) hchange
    · exact hsolicited
    · refine absurd (observedChange_arrive.mpr hchange) (onNatObserveReply_rejected ?_)
      rwa [accepted_arrive]

/-! ## An unsolicited observation -/

/-- The protobuf bytes of the reply in which `b` says that this node is seen as
`1.2.3.4:5`. -/
def observationBytes : List UInt8 :=
  [10, 16, 18, 9, 49, 46, 50, 46, 51, 46, 52, 58, 53, 26, 1, 98, 32, 1]

/-- A codec that knows the reply. -/
def observationCodec : Codec :=
  { Codec.empty with
    natObserveReply := .ofTable [(⟨some ⟨0, "1.2.3.4:5", "b", 1⟩⟩, observationBytes)]
    socketAddr := .ofTable [(.v4 ⟨1, 2, 3, 4⟩ 5, "1.2.3.4:5")] }

/-- The key the reply arrives on. -/
def observationKey : RouteKey := ⟨.udp, .v4 ⟨0, 0, 0, 0⟩ 5000, .v4 ⟨10, 0, 0, 2⟩ 5000⟩

/-- The node `a`, just started. -/
def freshLayer : ProtocolLayer :=
  .new ⟨"a"⟩ (.bind ⟨"a"⟩ (.v4 ⟨10, 0, 0, 1⟩ 5000) (.v4 ⟨0, 0, 0, 0⟩ 5000) none
    .minHopLowestLatency) 3 none [] .default

/-- The reply of `b` as a packet to `a`. -/
def observationPacket : Packet where
  buf := [144, 3, 0, 3, 3, 0, 0, 0, 33, 0, 1, 0, 1, 98, 97] ++ observationBytes
  src := ⟨"b"⟩
  dest := ⟨"a"⟩
  payloadOffset := 15
  header_le := Packet.header_le_fifteen
  offset_le := by decide

/-- A node that just started asked nobody, and still the reply changes it. -/
theorem natObserveReply_unsolicited :
    freshLayer.screen observationPacket.buf = .ok (some observationPacket) ∧
      freshLayer.isLocal observationPacket = true ∧
      observationPacket.protocol = .ok .natObserveReply ∧
      ObservedChange freshLayer (handleTransportPacket observationCodec (Env.atMillis 1) freshLayer
        observationPacket.buf observationKey).layer ∧
      ¬ Solicited freshLayer observationPacket.src observationKey := by
  refine ⟨by decide, by decide, by decide, Or.inl ?_, ?_⟩
  · decide
  · simp only [Solicited]
    decide

/-- Once `b` was asked over the key, its reply may change the node, and does. -/
theorem natObserveReply_solicited_pending :
    let l := freshLayer.insertPendingNatObserve ⟨"b"⟩ observationKey
    let l' := (handleTransportPacket observationCodec (Env.atMillis 1) l observationPacket.buf
      observationKey).layer
    l'.natInfo ≠ l.natInfo ∧ (ObservedChange l l' → Solicited l ⟨"b"⟩ observationKey) := by
  intro l l'
  have hscreen : l.screen observationPacket.buf = .ok (some observationPacket) := by decide
  refine ⟨by decide, ?_⟩
  exact (natObserveReply_solicited_iff hscreen (by decide) (by decide)).mpr
    (Or.inl (Or.inr (by decide)))

end ProtocolLayer

end RustP2p
