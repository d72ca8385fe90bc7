import RustP2p.Lib.Transition
import RustP2p.Quic.HandlerSpec

/-!
# Forwarding

A packet on its way through relays.  Nothing is assumed of a relay: its routes,
clocks and keys are arbitrary, and the same relay may come again.  So the way of
a packet is a run (`Transition.run`) whose state is the bytes on the wire and
whose events are the relays (`Hop`).

`parse_run_relay` is the invariant: after `h` relays the bytes parse to the same
packet with `h` less to live.  The metric the receiver computes is a saturating
difference, so it counts the relays when the packet started at its maximum
(`forwarded_built_packet`), and it can lose relays when the packet started above
it (`relayed_metric_pos_iff`).
-/

namespace RustP2p

open ProtocolLayer

/-! ## Relays -/

/-- A relay a packet reaches: its layer, its surroundings and the key the packet
arrives on. -/
structure Hop where
  layer : ProtocolLayer
  env : Env
  routeKey : RouteKey

/-- The bytes a relay puts on the wire for a packet that is for another node. -/
def relay (c : Codec) (data : List UInt8) (hop : Hop) : Option (List UInt8) :=
  match hop.layer.screen data with
  | .ok (some packet) =>
      if hop.layer.isLocal packet then none
      else match (handleTransportPacket c hop.env hop.layer data hop.routeKey).effects with
        | [.toRoute _ wire] => some wire
        | _ => none
  | _ => none

/-! ## One relay -/

section Relay

variable {c : Codec} {hop : Hop} {data wire : List UInt8} {packet : Packet}

/-- What handling sends for a packet that is not for this node. -/
theorem effects_not_local (hparse : Packet.parse data = .ok packet)
    (hlocal : hop.layer.isLocal packet = false) :
    (handleTransportPacket c hop.env hop.layer data hop.routeKey).effects = [] ∨
      (handleTransportPacket c hop.env hop.layer data hop.routeKey).effects =
        ((hop.layer.arrive hop.env packet hop.routeKey).2.forwardPacket hop.env
          packet).effects := by
  simp only [handleTransportPacket]
  split
  next => exact Or.inl rfl
  next => exact Or.inl rfl
  next packet' hscreen =>
    obtain rfl := eq_of_screen hparse hscreen
    rw [handlePacket_forward hlocal]
    exact Or.inr rfl

/-- A relay puts one packet on the wire, or none. -/
theorem length_effects_not_local (hparse : Packet.parse data = .ok packet)
    (hlocal : hop.layer.isLocal packet = false) :
    (handleTransportPacket c hop.env hop.layer data hop.routeKey).effects.length ≤ 1 := by
  rcases effects_not_local (c := c) hparse hlocal with h | h
  · rw [h]
    exact Nat.zero_le 1
  · rw [h]
    exact length_effects_forwardPacket

/-- A relay sends nothing for a packet at the end of its life. -/
theorem effects_expired (hparse : Packet.parse data = .ok packet)
    (hlocal : hop.layer.isLocal packet = false) (httl : packet.ttl ≤ 1) :
    (handleTransportPacket c hop.env hop.layer data hop.routeKey).effects = [] := by
  rcases effects_not_local (c := c) hparse hlocal with h | h
  · exact h
  · rw [h, List.eq_nil_iff_forall_not_mem]
    intro e he
    exact absurd (effects_forwardPacket he).1 (UInt8.not_lt.mpr httl)

/-- A relay takes one off the time to live and changes nothing else. -/
theorem relay_eq_some (hparse : Packet.parse data = .ok packet)
    (h : relay c data hop = some wire) :
    1 < packet.ttl ∧ Packet.parse wire = .ok (packet.setTtl (packet.ttl - 1)) := by
  simp only [relay] at h
  split at h
  next packet' hscreen =>
    obtain rfl := eq_of_screen hparse hscreen
    split at h
    next => cases h
    next hlocal =>
      rw [Bool.not_eq_true] at hlocal
      rw [handleTransportPacket_of_screen hscreen, handlePacket_forward hlocal,
        Handling.effects] at h
      split at h
      next k wire' heffects =>
        cases h
        have hmem : Effect.toRoute k wire ∈
            ((hop.layer.arrive hop.env packet hop.routeKey).2.forwardPacket hop.env
              packet).effects := by
          rw [heffects]
          exact .head _
        obtain ⟨httl, k', m, -, heq⟩ := effects_forwardPacket hmem
        cases heq
        exact ⟨httl, Packet.parse_setTtl hparse _⟩
      next => cases h
  next => cases h

end Relay

/-! ## Any number of relays -/

theorem setTtl_setTtl (p : Packet) (s t : UInt8) : (p.setTtl s).setTtl t = p.setTtl t := by
  simp only [Packet.setTtl, List.set_set]

theorem setTtl_ttl_self (p : Packet) : p.setTtl p.ttl = p := by
  have hset : p.buf.set 4 p.ttl = p.buf := List.set_getElem_self _
  cases p
  simp only [Packet.setTtl, hset]

/-- After `h` relays the packet is the same with `h` less to live, and it is
still alive if it was forwarded at all. -/
theorem parse_run_relay {c : Codec} {data wire : List UInt8} {packet : Packet} {hops : List Hop}
    (hparse : Packet.parse data = .ok packet)
    (hrun : Transition.run (relay c) data hops = some wire) :
    ∃ t : UInt8, Packet.parse wire = .ok (packet.setTtl t) ∧
      t.toNat + hops.length = packet.ttl.toNat ∧ (hops = [] ∨ 1 ≤ t.toNat) := by
  refine Transition.run_history (P := fun hops wire => ∃ t : UInt8,
    Packet.parse wire = .ok (packet.setTtl t) ∧ t.toNat + hops.length = packet.ttl.toNat ∧
    (hops = [] ∨ 1 ≤ t.toNat)) ?_ ?_ hrun
  · exact ⟨packet.ttl, by rw [setTtl_ttl_self, hparse], rfl, Or.inl rfl⟩
  · rintro hops wire hop wire' - ⟨t, hwire, hcount, -⟩ hrelay
    obtain ⟨httl, hparse'⟩ := relay_eq_some hwire hrelay
    rw [Packet.setTtl_ttl] at httl hparse'
    have hpos : 1 < t.toNat := by simpa [UInt8.lt_iff_toNat_lt] using httl
    have hpred : (t - 1).toNat = t.toNat - 1 := UInt8.toNat_sub_of_le _ _ (UInt8.le_of_lt httl)
    refine ⟨t - 1, by rw [hparse', setTtl_setTtl], ?_, Or.inr (by omega)⟩
    rw [List.length_append, List.length_singleton, hpred]
    omega

/-- The metric of a packet with another time to live. -/
theorem metric_setTtl (p : Packet) (t : UInt8) :
    (p.setTtl t).metric.toNat = p.maxTtl.toNat - t.toNat := by
  rw [Packet.metric, saturatingSub_toNat, Packet.setTtl_maxTtl, Packet.setTtl_ttl]

/-! ## Packets of `build` -/

/-- A built packet is forwarded less often than its time to live says.  Until
then every relay leaves its contents alone, the metric counts the relays, and a
relay that gets it with at most one to live sends nothing. -/
theorem forwarded_built_packet (c : Codec) {protocol : ProtocolType} {src dest : PeerId}
    {maxTtl : UInt8} {payload : List UInt8} {packet : Packet} {hops : List Hop}
    {wire : List UInt8} (httl : 1 ≤ maxTtl)
    (hbuild : Packet.build protocol src dest maxTtl payload = .ok packet)
    (hrun : Transition.run (relay c) packet.buf hops = some wire) :
    hops.length ≤ maxTtl.toNat - 1 ∧
      ∃ q, Packet.parse wire = .ok q ∧ q.src = src ∧ q.dest = dest ∧ q.payload = payload ∧
        q.protocolByte = packet.protocolByte ∧ q.maxTtl = maxTtl ∧
        q.ttl.toNat = maxTtl.toNat - hops.length ∧ q.metric.toNat = hops.length ∧
        ∀ hop : Hop, hop.layer.isLocal q = false →
          (handleTransportPacket c hop.env hop.layer wire hop.routeKey).effects.length ≤ 1 ∧
          (q.ttl ≤ 1 →
            (handleTransportPacket c hop.env hop.layer wire hop.routeKey).effects = []) := by
  obtain ⟨hsrc, hdest, hpayload, hmax, hstart, -, -⟩ := Packet.build_fields hbuild
  obtain ⟨t, hparse, hcount, halive⟩ := parse_run_relay (Packet.parse_build hbuild) hrun
  rw [hstart] at hcount
  have hone : 1 ≤ maxTtl.toNat := UInt8.le_iff_toNat_le.mp httl
  refine ⟨?_, packet.setTtl t, hparse, hsrc, hdest, ?_, ?_, ?_, ?_, ?_, ?_⟩
  · rcases halive with rfl | halive
    · exact Nat.zero_le _
    · omega
  · rw [Packet.setTtl_payload, hpayload]
  · rw [Packet.setTtl_protocolByte]
  · rw [Packet.setTtl_maxTtl, hmax]
  · rw [Packet.setTtl_ttl]
    omega
  · rw [metric_setTtl, hmax]
    omega
  · intro hop hlocal
    exact ⟨length_effects_not_local hparse hlocal, effects_expired hparse hlocal⟩

/-- The key of a relay that reaches `b`. -/
def relayKey : RouteKey := ⟨.udp, .v4 ⟨0, 0, 0, 0⟩ 5000, .v4 ⟨10, 0, 0, 2⟩ 5000⟩

/-- A relay with this id and a relay route to `b`. -/
def relayHop (id : String) : Hop :=
  let transport := Transport.bind ⟨id⟩ (.v4 ⟨10, 0, 0, 1⟩ 5000) (.v4 ⟨0, 0, 0, 0⟩ 5000) none
    .minHopLowestLatency
  let transport := transport.confirmRoute (Env.atMillis 0) ⟨"b"⟩ relayKey 1
  ⟨.new ⟨id⟩ transport 16 none [] .default, Env.atMillis 1000, relayKey⟩

/-- An empty QuicRelay packet from `a` to `b`. -/
def relayedPacket (maxTtl ttl : UInt8) : Packet where
  buf := [140, 3, 0, maxTtl, ttl, 0, 0, 0, 15, 0, 1, 0, 1, 97, 98]
  src := ⟨"a"⟩
  dest := ⟨"b"⟩
  payloadOffset := 15
  header_le := Packet.header_le_fifteen
  offset_le := Nat.le_refl 15

/-- With three to live it crosses two relays, as many as it can. -/
theorem forwarded_built_packet_two_relays :
    Packet.build .quicRelay ⟨"a"⟩ ⟨"b"⟩ 3 [] = .ok (relayedPacket 3 3) ∧
      Transition.run (relay .empty) (relayedPacket 3 3).buf [relayHop "r", relayHop "s"] =
        some (relayedPacket 3 1).buf ∧
      [relayHop "r", relayHop "s"].length ≤ (3 : UInt8).toNat - 1 := by
  have hbuild : Packet.build .quicRelay ⟨"a"⟩ ⟨"b"⟩ 3 [] = .ok (relayedPacket 3 3) := by decide
  have hrun : Transition.run (relay .empty) (relayedPacket 3 3).buf
      [relayHop "r", relayHop "s"] = some (relayedPacket 3 1).buf := by decide
  exact ⟨hbuild, hrun, (forwarded_built_packet .empty (by decide) hbuild hrun).1⟩

/-! ## Any packet that parses -/

/-- The metric of a relayed packet shows the relays exactly when the packet
started at less than its maximum and the number of relays together. -/
theorem relayed_metric_pos_iff (c : Codec) {data wire : List UInt8} {packet : Packet}
    {hops : List Hop} (hparse : Packet.parse data = .ok packet)
    (hrun : Transition.run (relay c) data hops = some wire) :
    ∃ q, Packet.parse wire = .ok q ∧
      (1 ≤ q.metric ↔ packet.ttl.toNat < packet.maxTtl.toNat + hops.length) := by
  obtain ⟨t, hwire, hcount, -⟩ := parse_run_relay hparse hrun
  refine ⟨packet.setTtl t, hwire, ?_⟩
  rw [UInt8.le_iff_toNat_le, metric_setTtl, UInt8.toNat_one]
  omega

/-- A packet at its maximum shows one relay. -/
theorem relayed_metric_pos_at_maximum :
    ∃ q, Packet.parse (relayedPacket 3 2).buf = .ok q ∧ (1 ≤ q.metric ↔ 3 < 3 + 1) := by
  have hparse : Packet.parse (relayedPacket 3 3).buf = .ok (relayedPacket 3 3) := by decide
  have hrun : Transition.run (relay .empty) (relayedPacket 3 3).buf [relayHop "r"] =
      some (relayedPacket 3 2).buf := by decide
  exact relayed_metric_pos_iff .empty hparse hrun

/-- With a maximum of one and three to live, the relay does not show. -/
theorem relayed_metric_zero_above_maximum :
    ¬ ∀ (c : Codec) (data wire : List UInt8) (packet q : Packet) (hops : List Hop),
      Packet.parse data = .ok packet → hops ≠ [] →
      Transition.run (relay c) data hops = some wire → Packet.parse wire = .ok q →
      1 ≤ q.metric := by
  intro h
  have hmetric := h .empty (relayedPacket 1 3).buf (relayedPacket 1 2).buf (relayedPacket 1 3)
    (relayedPacket 1 2) [relayHop "r"] (by decide) (by simp) (by decide) (by decide)
  exact absurd hmetric (by decide)

end RustP2p
