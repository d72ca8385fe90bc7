import RustP2p.Quic.HelloChannel

/-!
# Which peers are called direct

`is_direct` of a stored peer says that the peer currently has confirmed direct
reachability.  A confirmation keeps it true: it adds the route and stores the peer
together, and a direct peer never loses its last direct route.  What a packet shows
of its sender never claims to be direct.

A HelloReply is the exception.  It carries the sender's description of itself, and
every node describes itself as direct.  Where the reply confirms no route, the
description is stored as it came.  So the flag is true for as long as such replies
describe as direct only peers that have a direct route (`direct_flag_truthful`).
-/

namespace RustP2p

open ProtocolLayer

namespace Transport

/-! ## One write -/

/-- Every peer that is stored as direct has a direct route, and no relay. -/
def Truthful (t : Transport) : Prop :=
  ∀ p info, t.peers.get p = some info → info.isDirect = true →
    (∃ k, t.HasRoute p k 0) ∧ info.relayHint = none

/-- Every peer with a direct route is stored, the node itself apart. -/
def Stocked (t : Transport) : Prop :=
  ∀ p k, t.HasRoute p k 0 → p ≠ t.peerId → (t.peers.get p).isSome = true

variable {t t' : Transport} {peer : PeerInfo}

theorem SameStores.truthful (h : SameStores t t') (ht : t.Truthful) : t'.Truthful := by
  intro p info hinfo hdirect
  rw [h.peers] at hinfo
  obtain ⟨⟨k, hk⟩, hhint⟩ := ht p info hinfo hdirect
  exact ⟨⟨k, (h.routes p k 0).mpr hk⟩, hhint⟩

theorem SameStores.stocked (h : SameStores t t') (ht : t.Stocked) : t'.Stocked := by
  intro p k hk hp
  rw [h.peers]
  exact ht p k ((h.routes p k 0).mp hk) (h.peerId ▸ hp)

/-- A description that claims to be direct needs a route, and at the first time it
must not name a relay. -/
theorem Truthful.upsertPeerInfo (ht : t.Truthful) (env : Env)
    (hroute : peer.isDirect = true → peer.peerId ≠ t.peerId → ∃ k, t.HasRoute peer.peerId k 0)
    (hhint : peer.isDirect = true → peer.peerId ≠ t.peerId → t.peers.get peer.peerId = none →
      peer.relayHint = none) : (t.upsertPeerInfo env peer).Truthful := by
  by_cases hself : peer.peerId = t.peerId
  · rwa [upsertPeerInfo_self env hself]
  · intro p info hinfo hdirect
    simp only [(sameRoutes_upsertPeerInfo t env peer) p]
    by_cases hp : p = peer.peerId
    · subst hp
      obtain ⟨merged, hmerged, hflag, hrelay⟩ := get_upsertPeerInfo env hself
      obtain rfl : merged = info := Option.some.inj (hmerged.symm.trans hinfo)
      rw [hrelay hdirect]
      rw [hflag, Bool.or_eq_true, Option.any_eq_true] at hdirect
      cases hexisting : t.peers.get peer.peerId with
      | none =>
          rcases hdirect with hnew | ⟨existing, hold, -⟩
          · exact ⟨hroute hnew hself, hhint hnew hself hexisting⟩
          · rw [hexisting] at hold
            cases hold
      | some existing =>
          refine ⟨?_, rfl⟩
          rcases hdirect with hnew | ⟨info, hold, holdDirect⟩
          · exact hroute hnew hself
          · exact (ht peer.peerId info hold holdDirect).1
    · rw [get_upsertPeerInfo_of_ne env hp] at hinfo
      exact ht p info hinfo hdirect

theorem isSome_get_upsertPeerInfo (env : Env) {p : PeerId}
    (h : (t.peers.get p).isSome = true) :
    ((t.upsertPeerInfo env peer).peers.get p).isSome = true := by
  by_cases hself : peer.peerId = t.peerId
  · rwa [upsertPeerInfo_self env hself]
  · by_cases hp : p = peer.peerId
    · obtain ⟨merged, hmerged, -⟩ := get_upsertPeerInfo env hself
      rw [hp, hmerged]
      rfl
    · rwa [get_upsertPeerInfo_of_ne env hp]

theorem Stocked.upsertPeerInfo (ht : t.Stocked) (env : Env) :
    (t.upsertPeerInfo env peer).Stocked := by
  intro p k hk hp
  rw [upsertPeerInfo_peerId] at hp
  have hold := (sameRoutes_upsertPeerInfo t env peer p k 0).mp hk
  exact isSome_get_upsertPeerInfo env (ht p k hold hp)

/-- A confirmation keeps the flag true, whatever the metric: a direct one comes with
its route, and a relayed one does not set the flag. -/
theorem Truthful.confirmPeerRoute (ht : t.Truthful) (env : Env) (key : RouteKey)
    (metric : UInt8) : (t.confirmPeerRoute env peer key metric).Truthful := by
  have hroutes (p : PeerId) (k : RouteKey) (m : UInt8) :
      (t.confirmPeerRoute env peer key metric).HasRoute p k m ↔
        (t.confirmRoute env peer.peerId key metric).HasRoute p k m :=
    sameRoutes_upsertPeerInfo _ env _ p k m
  have hconfirmed : (t.confirmRoute env peer.peerId key metric).Truthful := by
    intro p info hinfo hdirect
    obtain ⟨⟨k, hk⟩, hhint⟩ := ht p info hinfo hdirect
    exact ⟨⟨k, (hroutes p k 0).mp hk.confirmPeerRoute⟩, hhint⟩
  refine hconfirmed.upsertPeerInfo env ?_ ?_
  · intro hdirect _
    obtain ⟨rfl, -⟩ := isDirect_confirmedPeer hdirect
    rw [confirmedPeer_peerId]
    exact ⟨key, (hroutes peer.peerId key 0).mp (hasRoute_confirmPeerRoute_self t env peer key)⟩
  · intro hdirect _ _
    exact (isDirect_confirmedPeer hdirect).2

theorem Stocked.confirmPeerRoute (ht : t.Stocked) (env : Env) (key : RouteKey) (metric : UInt8) :
    (t.confirmPeerRoute env peer key metric).Stocked := by
  intro p k hk hp
  have hid : (t.confirmPeerRoute env peer key metric).peerId = t.peerId :=
    upsertPeerInfo_peerId _ env _
  rw [hid] at hp
  rcases hasRoute_confirmPeerRoute hk with hold | ⟨rfl, -⟩
  · exact isSome_get_upsertPeerInfo env (ht p k hold hp)
  · have hpeer := confirmedPeer_peerId t peer key metric
    obtain ⟨merged, hmerged, -⟩ := get_upsertPeerInfo
      (t := t.confirmRoute env peer.peerId key metric) env (hpeer ▸ hp)
    rw [hpeer] at hmerged
    exact Option.isSome_iff_exists.mpr ⟨merged, hmerged⟩

end Transport

/-! ## Runs -/

namespace Node

/-- If the HelloReply confirms nothing and describes a peer other than this node as
direct, the peer has a direct route. -/
def DescribesTruly (l : ProtocolLayer) (packet : Packet) (key : RouteKey) (hello : HelloPayload) :
    Prop :=
  ¬ (packet.metric = 0 ∧ (l.pendingHelloRoutes.get key).isSome = true) →
    hello.peer.isDirect = true → hello.peer.peerId ≠ l.peerId →
    l.hasDirectRoute hello.peer.peerId = true

instance (l : ProtocolLayer) (packet : Packet) (key : RouteKey) (hello : HelloPayload) :
    Decidable (DescribesTruly l packet key hello) := inferInstanceAs (Decidable (_ → _ → _ → _))

/-- Every HelloReply that the event handles does so. -/
def HelloTruthful (c : Codec) (n : Node) : Event → Prop
  | .packet _ data routeKey => OnOk (n.layer.screen data) fun screened => ∀ packet ∈ screened,
      n.layer.isLocal packet = true → packet.protocol = .ok .helloReply →
      OnOk (decodeHelloPayload c packet.payload) (DescribesTruly n.layer packet routeKey)
  | _ => True

instance (c : Codec) (n : Node) (e : Event) : Decidable (HelloTruthful c n e) :=
  match e with
  | .packet _ _ _ => inferInstanceAs (Decidable (OnOk _ _))
  | .helloSent _ => isTrue trivial
  | .quicSent => isTrue trivial
  | .transportClosed => isTrue trivial
  | .quicReceived => isTrue trivial
  | .bootstrap _ => isTrue trivial
  | .call _ _ => isTrue trivial
  | .task _ _ => isTrue trivial

/-- The layer and its transport have one id, and the flags are true. -/
structure DirectKnown (own : PeerId) (l : ProtocolLayer) : Prop where
  peerId : l.peerId = own
  transport : l.transport.peerId = own
  truthful : l.transport.Truthful
  stocked : l.transport.Stocked

theorem directKnown_node (s : Startup) : DirectKnown s.peerId s.node.layer where
  peerId := rfl
  transport := rfl
  truthful p info hinfo := by cases hinfo
  stocked p k hk := absurd hk (s.not_hasRoute p k 0)

/-- The write describes no peer as direct that has no route. -/
def Vouched (own : PeerId) (l : ProtocolLayer) : Write → Prop
  | .upsert peer => peer.isDirect = true → peer.peerId ≠ own → ∃ k, l.HasRoute peer.peerId k 0
  | _ => True

theorem DirectKnown.apply {own : PeerId} {l : ProtocolLayer} (h : DirectKnown own l) (env : Env)
    {w : Write} (hw : Vouched own l w) : DirectKnown own (w.apply env l) where
  peerId := by cases w <;> exact h.peerId
  transport := by rw [transport_peerId_apply, h.transport]
  truthful := by
    cases w with
    | upsert peer =>
        have hroute (hdirect : peer.isDirect = true) (hself : peer.peerId ≠ l.transport.peerId) :
            ∃ k, l.HasRoute peer.peerId k 0 := hw hdirect (h.transport ▸ hself)
        refine h.truthful.upsertPeerInfo env hroute ?_
        -- A peer with a direct route is stored already.
        intro hdirect hself hnone
        obtain ⟨k, hk⟩ := hroute hdirect hself
        have hsome := h.stocked peer.peerId k hk hself
        rw [hnone] at hsome
        cases hsome
    | confirm peer key metric => exact h.truthful.confirmPeerRoute env key metric
    | candidate => exact h.truthful
    | promote => exact h.truthful
  stocked := by
    cases w with
    | upsert peer => exact h.stocked.upsertPeerInfo env
    | confirm peer key metric => exact h.stocked.confirmPeerRoute env key metric
    | candidate => exact h.stocked
    | promote => exact h.stocked

theorem DirectKnown.same {own : PeerId} {l l' : ProtocolLayer} (h : DirectKnown own l)
    (hsame : SameStores l l') : DirectKnown own l' where
  peerId := hsame.peerId.trans h.peerId
  transport := hsame.transport.peerId.trans h.transport
  truthful := hsame.transport.truthful h.truthful
  stocked := hsame.transport.stocked h.stocked

/-- What such an event writes has a route by the time it is written. -/
theorem HelloTruthful.vouched {c : Codec} {n : Node} {e : Event} (h : HelloTruthful c n e)
    {w : Write} (hstored : Stored c n e w) {l : ProtocolLayer}
    (hkept : ∀ p k, n.layer.HasRoute p k 0 → l.HasRoute p k 0) : Vouched n.layer.peerId l w := by
  cases hstored with
  | packet caused =>
      cases caused with
      | arrived screened arrived =>
          cases arrived with
          | heard _ indirect =>
              intro hdirect
              rw [indirect] at hdirect
              cases hdirect
          | candidate => trivial
      | @written packet screened isLocal written =>
          cases written with
          | @described hello type payload unconfirmed =>
              intro hdirect hself
              obtain ⟨k, hk⟩ := hasDirectRoute_iff.mp
                (h _ screened packet rfl isLocal type hello payload unconfirmed hdirect hself)
              exact ⟨k, hkept _ k hk⟩
          | _ => trivial
  | advertised => trivial

theorem DirectKnown.step {own : PeerId} {c : Codec} {n n' : Node} {e : Event}
    (h : DirectKnown own n.layer) (hhello : HelloTruthful c n e) (hstep : step c n e = some n') :
    DirectKnown own n'.layer := by
  -- Along the writes of a step the direct routes it began with stay.
  have hinvariant := (writes_step hstep).invariant (I := fun l => DirectKnown own l ∧
    ∀ p k, n.layer.HasRoute p k 0 → l.HasRoute p k 0) ?_ ?_ ⟨h, fun _ _ hk => hk⟩
  · exact hinvariant.1
  · intro l l' hsame hl
    exact ⟨hl.1.same hsame, fun p k hk => hsame.quiet.kept (hl.2 p k hk)⟩
  · intro l env w hstored hl
    have hvouched := hhello.vouched hstored hl.2
    rw [h.peerId] at hvouched
    exact ⟨hl.1.apply env hvouched, fun p k hk => hasRoute_apply env w (hl.2 p k hk)⟩

/-- While every HelloReply that confirms nothing describes as direct only peers that
have a direct route, every peer that is stored as direct has a direct route and no
relay. -/
theorem direct_flag_truthful (c : Codec) (s : Startup) {es : List Event} {n : Node}
    (hrun : Transition.run (step c) s.node es = some n)
    (hhello : Transition.Along (step c) (HelloTruthful c) s.node es) :
    n.layer.transport.Truthful := by
  have hknown : DirectKnown s.peerId n.layer :=
    Transition.run_invariant_along (I := fun n => DirectKnown s.peerId n.layer)
      (fun m e m' hc hstep h => h.step hc hstep) hrun hhello (directKnown_node s)
  exact hknown.truthful

/-- The protobuf bytes of a hello in which `b` describes itself as direct. -/
def selfDescription : List UInt8 := [10, 5, 10, 1, 98, 40, 1]

/-- A codec that knows this hello. -/
def describedCodec : Codec :=
  { Codec.empty with
    hello := .ofTable [(⟨some ⟨"b", [], "", 0, true, none⟩, [], none⟩, selfDescription)] }

/-- The HelloReply of `b` to `a` with this hello. -/
def describedReply : List UInt8 :=
  [142, 3, 0, 3, 3, 0, 0, 0, 22, 0, 1, 0, 1, 98, 97] ++ selfDescription

/-- A bootstrap from `b`, which answers twice.  The first reply confirms the route. -/
def answeredTwice : List Event :=
  [.bootstrap helloKey.peerAddr, .call 0 (.hello (Env.atMillis 1)), .call 0 .register,
    .packet (Env.atMillis 2) describedReply helloKey, .helloSent (Env.atMillis 2),
    .packet (Env.atMillis 3) describedReply helloKey, .helloSent (Env.atMillis 3)]

/-- After it `b` is stored as direct, and the flags are true. -/
theorem direct_flag_truthful_answered :
    ∃ n, Transition.run (step describedCodec) Startup.nodeA.node answeredTwice = some n ∧
      (n.layer.transport.peers.get ⟨"b"⟩).any PeerInfo.isDirect = true ∧
      n.layer.transport.Truthful := by
  obtain ⟨n, hn, hdirect⟩ :
      ∃ n, Transition.run (step describedCodec) Startup.nodeA.node answeredTwice = some n ∧
        (n.layer.transport.peers.get ⟨"b"⟩).any PeerInfo.isDirect := by
    decide +kernel
  have hhello : Transition.Along (step describedCodec) (HelloTruthful describedCodec)
      Startup.nodeA.node answeredTwice := by
    decide +kernel
  exact ⟨n, hn, hdirect, direct_flag_truthful describedCodec .nodeA hn hhello⟩

/-- A reply that nobody asked for makes `b` direct without any route. -/
theorem direct_flag_without_route :
    ¬ ∀ (c : Codec) (s : Startup) (es : List Event) (n : Node),
      Transition.run (step c) s.node es = some n → n.layer.transport.Truthful := by
  intro h
  obtain ⟨n, hn, ⟨info, hinfo, hdirect⟩, hroute⟩ :
      ∃ n, Transition.run (step describedCodec) Startup.nodeA.node
          [.packet (Env.atMillis 1) describedReply helloKey] = some n ∧
        (∃ info ∈ n.layer.transport.peers.get ⟨"b"⟩, info.isDirect = true) ∧
        n.layer.hasDirectRoute ⟨"b"⟩ = false := by
    decide +kernel
  obtain ⟨hk, -⟩ := h describedCodec .nodeA _ n hn ⟨"b"⟩ info hinfo hdirect
  rw [hasDirectRoute_iff.mpr hk] at hroute
  cases hroute

end Node

end RustP2p
