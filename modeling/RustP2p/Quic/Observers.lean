import RustP2p.Quic.Frame
import RustP2p.Quic.Node

/-!
# Who may observe a node

`nat_observers` restricts which direct peers may tell a node how it is seen.  A
NatObserveReply is checked against it (`should_observe_with`).  A HelloReply
carries an observation as well, and that one is not checked.

`observed_outsider_iff` is over every packet from a peer that is not an observer.
Such a packet leaves the observed addresses as they are, exactly if it is not a
direct HelloReply with an observation that is new to the node.
-/

namespace RustP2p

/-! ## Observed addresses -/

/-- What observations write of the NAT information. -/
structure ObservedAddrs where
  publicIps : List Ipv4Addr
  publicUdpPorts : List UInt16
  publicTcpPort : UInt16
  ipv6 : Option Ipv6Addr
deriving DecidableEq, Repr

/-- The observed part of the NAT information. -/
def NatInfo.observed (info : NatInfo) : ObservedAddrs :=
  ⟨info.publicIps, info.publicUdpPorts, info.publicTcpPort, info.ipv6⟩

/-- The observation says nothing new. -/
def NatInfo.Knows (info : NatInfo) (observation : NatObservation) : Prop :=
  (match observation.observedAddr with
    | .v4 ip _ => ip ∈ info.publicIps
    | .v6 ip _ _ _ => some ip = info.ipv6) ∧
  match observation.observedProtocol with
  | .udp => observation.observedAddr.port ∈ info.publicUdpPorts
  | .tcp => observation.observedAddr.port = info.publicTcpPort

/-- An observation leaves the observed addresses alone exactly if it is known. -/
theorem observed_applyObservation_iff {info : NatInfo} {observation : NatObservation} :
    (applyObservationToNatInfo info observation).observed = info.observed ↔
      info.Knows observation := by
  simp only [applyObservationToNatInfo, NatInfo.Knows]
  cases observation.observedAddr with
  | v4 ip port =>
      cases observation.observedProtocol with
      | udp => simp [NatInfo.observed, pushNew_eq_self]
      | tcp => simp [NatInfo.observed, pushNew_eq_self]
  | v6 ip port flow scope =>
      cases observation.observedProtocol with
      | udp => simp [NatInfo.observed, pushNew_eq_self, and_comm]
      | tcp => simp [NatInfo.observed, and_comm]

namespace ProtocolLayer

variable {c : Codec} {env : Env} {l : ProtocolLayer} {data : List UInt8} {packet : Packet}
  {key : RouteKey} {peer : PeerInfo}

/-! ## Branch by branch -/

theorem natInfo_tryExecutePunch (src : PeerId) (natInfo : NatInfo) (metric : UInt8) :
    (tryExecutePunch c l env src natInfo key metric).state.natInfo = l.natInfo := by
  simp only [tryExecutePunch, executePunch]
  split
  next => rfl
  next =>
    split
    next =>
      split
      next => rfl
      next => split <;> rfl
    next => split <;> rfl

theorem natInfo_onPunchRequest :
    (onPunchRequest c env l packet key).state.natInfo = l.natInfo := by
  simp only [onPunchRequest]
  split
  next h => rw [handlePunchPayload_error h]; rfl
  next punch l' h =>
    obtain ⟨-, rfl⟩ := handlePunchPayload_ok h
    split
    next =>
      rw [Outcome.ignoring_state, sendProtocolToRoute_state, natInfo_tryExecutePunch,
        (framed_confirmPunchRequest _ env punch.src key packet.metric).natInfo]
      rfl
    next =>
      rw [Outcome.ok_state, (framed_confirmPunchRequest _ env punch.src key packet.metric).natInfo]
      rfl

theorem natInfo_onPunchReply : (onPunchReply c env l packet key).state.natInfo = l.natInfo := by
  simp only [onPunchReply]
  split
  next h => rw [handlePunchPayload_error h]; rfl
  next punch l' h =>
    obtain ⟨-, rfl⟩ := handlePunchPayload_ok h
    split
    next =>
      rw [Outcome.ignoring_state, Outcome.ok_state, natInfo_tryExecutePunch,
        (framed_confirmPunchReply _ env punch key packet.metric).natInfo]
      rfl
    next =>
      rw [Outcome.ok_state, (framed_confirmPunchReply _ env punch key packet.metric).natInfo]
      rfl

/-- A NatObserveReply from outside the observers is not listened to. -/
theorem natInfo_onNatObserveReply (houtsider : l.shouldObserveWith packet.src = false) :
    (onNatObserveReply c env l packet key peer).state.natInfo = l.natInfo := by
  have hframed := framed_isConfirmedOrPendingNatObserve l packet.src key packet.metric
  simp only [onNatObserveReply]
  split
  next heq =>
    rw [heq] at hframed
    exact hframed.natInfo
  next l' heq =>
    rw [heq] at hframed
    split
    next => exact hframed.natInfo
    next =>
      rw [if_neg]
      · exact hframed.natInfo
      · rw [hframed.shouldObserveWith, houtsider]
        simp

/-- The observation of a direct HelloReply is applied. -/
theorem natInfo_onHelloReply :
    (onHelloReply c env l packet key).layer.natInfo =
      match decodeHelloPayload c packet.payload with
      | .ok ⟨_, _, some observation⟩ =>
          if packet.metric = 0 then applyObservationToNatInfo l.natInfo observation else l.natInfo
      | _ => l.natInfo := by
  simp only [onHelloReply]
  cases decodeHelloPayload c packet.payload with
  | error e => rfl
  | ok hello =>
      simp only [Handling.layer]
      rw [(framed_confirmHello _ env hello key packet.metric).natInfo]
      have hnat := (framed_learnPeerNat l hello.peer).natInfo
      simp only [learnHello]
      rcases hello with ⟨hpeer, hpeers, _ | observation⟩
      · exact hnat
      · simp only
        split
        next => rw [applyObservation, hnat]
        next => exact hnat

/-- Any other packet from outside the observers leaves the NAT information alone. -/
theorem natInfo_dispatch {protocol : ProtocolType} (hhello : protocol ≠ .helloReply)
    (houtsider : l.shouldObserveWith packet.src = false) :
    (dispatch c env l packet key peer protocol).layer.natInfo = l.natInfo := by
  by_cases hobserve : protocol = .natObserveReply
  · subst hobserve
    exact natInfo_onNatObserveReply houtsider
  · by_cases hrequest : protocol = .punchRequest
    · subst hrequest
      exact natInfo_onPunchRequest
    · by_cases hreply : protocol = .punchReply
      · subst hreply
        exact natInfo_onPunchReply
      · exact (framed_dispatch hhello hobserve hrequest hreply).natInfo

/-! ## The handler -/

/-- A direct HelloReply for this node with an observation that is new to it. -/
def TellsNews (c : Codec) (l : ProtocolLayer) (data : List UInt8) : Prop :=
  ∃ packet hello observation, l.screen data = .ok (some packet) ∧ l.isLocal packet = true ∧
    packet.protocol = .ok .helloReply ∧ packet.metric = 0 ∧
    decodeHelloPayload c packet.payload = .ok hello ∧ hello.observedAddr = some observation ∧
    ¬ l.natInfo.Knows observation

/-- Only a HelloReply for this node tells news. -/
theorem not_tellsNews (hscreen : l.screen data = .ok (some packet))
    (h : l.isLocal packet = true → packet.protocol ≠ .ok .helloReply) : ¬ TellsNews c l data := by
  intro h
  obtain ⟨packet', hello, observation, hscreen', hlocal, type, -⟩ := h
  cases hscreen.symm.trans hscreen'
  exact h hlocal type

/-- What is left after the channel does not touch the NAT information. -/
theorem natInfo_finish (env : Env) (h : Handling) : (finish env h).natInfo = h.layer.natInfo := by
  cases h with
  | done outcome => rfl
  | sendHello layer item entries via =>
      exact (framed_ingestRouteEntries layer env entries via).natInfo
  | sendQuic layer payload => rfl

/-- Of a screened HelloReply for this node, only a direct one with news is heard. -/
theorem observed_onHelloReply_iff (hscreen : l.screen data = .ok (some packet))
    (hlocal : l.isLocal packet = true) (type : packet.protocol = .ok .helloReply) :
    (onHelloReply c env (l.arrive env packet key).2 packet key).layer.natInfo.observed =
      l.natInfo.observed ↔ ¬ TellsNews c l data := by
  have hnews : TellsNews c l data ↔ packet.metric = 0 ∧ ∃ hello observation,
      decodeHelloPayload c packet.payload = .ok hello ∧ hello.observedAddr = some observation ∧
      ¬ l.natInfo.Knows observation := by
    constructor
    · intro h
      obtain ⟨packet', hello, observation, hscreen', -, -, hmetric, hrest⟩ := h
      cases hscreen.symm.trans hscreen'
      exact ⟨hmetric, hello, observation, hrest⟩
    · intro h
      obtain ⟨hmetric, hello, observation, hrest⟩ := h
      exact ⟨packet, hello, observation, hscreen, hlocal, type, hmetric, hrest⟩
  rw [natInfo_onHelloReply, arrive_natInfo, hnews]
  cases hdecode : decodeHelloPayload c packet.payload with
  | error e => simp
  | ok hello =>
      rcases hello with ⟨hpeer, hpeers, _ | observation⟩
      · simp
      · simp only
        split
        next hmetric =>
          rw [observed_applyObservation_iff]
          simp [hmetric]
        next hmetric => simp [hmetric]

/-- A packet from outside the observers leaves the observed addresses as they are,
exactly if it does not tell news in a HelloReply. -/
theorem observed_outsider_iff (c : Codec) (env env' : Env) (l : ProtocolLayer)
    (data : List UInt8) (key : RouteKey) (hobservers : l.natObservers ≠ [])
    (hsrc : ∀ packet, Packet.parse data = .ok packet → packet.src ∉ l.natObservers) :
    (finish env' (handleTransportPacket c env l data key)).natInfo.observed =
        l.natInfo.observed ↔ ¬ TellsNews c l data := by
  rw [natInfo_finish]
  have hhandled : Handled c env l data key (handleTransportPacket c env l data key) :=
    handled_handleTransportPacket
  generalize handleTransportPacket c env l data key = handling at hhandled
  cases hhandled with
  | dropped unscreened state effects =>
      rw [Handling.layer, state]
      refine iff_of_true rfl ?_
      intro h
      obtain ⟨packet, hello, observation, hscreen, -⟩ := h
      exact unscreened packet hscreen
  | @forwarded packet screened remote =>
      rw [Handling.layer, ((framed_arrive l env packet key).trans
        (framed_forwardPacket _ env packet)).natInfo]
      refine iff_of_true rfl (not_tellsNews screened ?_)
      intro hlocal
      rw [remote] at hlocal
      cases hlocal
  | @untyped packet e screened isLocal type =>
      rw [Handling.layer, Outcome.fail_state, arrive_natInfo]
      refine iff_of_true rfl (not_tellsNews screened ?_)
      rw [type]
      intro _ hreply
      cases hreply
  | @dispatched packet protocol screened isLocal type =>
      have houtsider : l.shouldObserveWith packet.src = false := by
        simpa [shouldObserveWith, hobservers] using hsrc packet (screen_eq_some.mp screened).2.1
      by_cases hreply : protocol = .helloReply
      · subst hreply
        exact observed_onHelloReply_iff screened isLocal type
      · have harrive := framed_arrive l env packet key
        rw [natInfo_dispatch hreply (by rw [harrive.shouldObserveWith, houtsider]), harrive.natInfo]
        refine iff_of_true rfl (not_tellsNews screened ?_)
        rw [type]
        intro _ heq
        exact hreply (Except.ok.inj heq)

/-! ## An observation that is not checked -/

/-- The protobuf bytes of a hello in which `b` says that this node is seen as
`1.2.3.4:5`. -/
def newsBytes : List UInt8 :=
  [10, 3, 10, 1, 98, 26, 16, 18, 9, 49, 46, 50, 46, 51, 46, 52, 58, 53, 26, 1, 98, 32, 1]

/-- A codec that knows this hello. -/
def newsCodec : Codec :=
  { Codec.empty with
    hello := .ofTable [(⟨some ⟨"b", [], "", 0, false, none⟩, [], some ⟨0, "1.2.3.4:5", "b", 1⟩⟩,
      newsBytes)]
    socketAddr := .ofTable [(.v4 ⟨1, 2, 3, 4⟩ 5, "1.2.3.4:5")] }

/-- The HelloReply of `b` to `a`. -/
def newsPacket : Packet where
  buf := [142, 3, 0, 3, 3, 0, 0, 0, 38, 0, 1, 0, 1, 98, 97] ++ newsBytes
  src := ⟨"b"⟩
  dest := ⟨"a"⟩
  payloadOffset := 15
  header_le := Packet.header_le_fifteen
  offset_le := by decide

/-- The node `a`, which listens to the observer `o` only. -/
def restrictedNode : Startup := { Startup.nodeA with natObservers := [⟨"o"⟩] }

/-- The key the packet arrives on. -/
def newsKey : RouteKey := ⟨.udp, .v4 ⟨0, 0, 0, 0⟩ 5000, .v4 ⟨10, 0, 0, 2⟩ 5000⟩

theorem newsPacket_outsider :
    ∀ packet, Packet.parse newsPacket.buf = .ok packet →
      packet.src ∉ restrictedNode.layer.natObservers := by
  intro packet hparse
  have hnews : Packet.parse newsPacket.buf = .ok newsPacket := by decide
  cases hnews.symm.trans hparse
  decide

theorem observed_outsider_news :
    (finish (Env.atMillis 1) (handleTransportPacket newsCodec (Env.atMillis 1)
      restrictedNode.layer newsPacket.buf newsKey)).natInfo.observed ≠
      restrictedNode.layer.natInfo.observed := by
  rw [Ne, observed_outsider_iff newsCodec (Env.atMillis 1) (Env.atMillis 1) restrictedNode.layer
    newsPacket.buf newsKey (by decide) newsPacket_outsider, not_not]
  refine ⟨newsPacket, _, ⟨.udp, .v4 ⟨1, 2, 3, 4⟩ 5, ⟨"b"⟩, 1⟩, by decide, by decide, by decide,
    by decide, rfl, rfl, ?_⟩
  simp [NatInfo.Knows, restrictedNode, Startup.nodeA, Startup.layer, ProtocolLayer.new,
    NatInfo.default]

/-- A peer that is no observer changes the observed addresses of the node that just
started. -/
theorem outsider_observes :
    ¬ ∀ (c : Codec) (s : Startup) (es : List Event) (n : Node),
      Transition.run (Node.step c) s.node es = some n → n.layer.natObservers ≠ [] →
      ∀ (env env' : Env) (data : List UInt8) (key : RouteKey),
        (∀ packet, Packet.parse data = .ok packet → packet.src ∉ n.layer.natObservers) →
        (finish env' (handleTransportPacket c env n.layer data key)).natInfo.observed =
          n.layer.natInfo.observed := by
  intro h
  have hsame := h newsCodec restrictedNode [] restrictedNode.node rfl (by decide)
    (Env.atMillis 1) (Env.atMillis 1) newsPacket.buf newsKey newsPacket_outsider
  exact absurd hsame (by decide)

end ProtocolLayer

end RustP2p
