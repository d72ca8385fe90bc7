import RustP2p.Quic.Node

/-!
# What a node sends

Everything a node puts on the wire is a packet it relays or a packet of its own.
`Originates c l data` says the second: the bytes are a packet that the layer `l`
built with its id and its maximal time to live, and the payload is one that `l`
puts into a packet of this type (`Says`).

`Emits c l o` says that the outcome `o` sends such packets only.  There is one
lemma for each function that sends, and they follow the calls.  The results are
`effects_handleTransportPacket` for a packet and `Node.sent_step` for a step of
the node.  The queue of the core sender is left out: it holds QUIC payloads, and
`Node.sent_step` has a case of its own for the task that empties it.
-/

namespace RustP2p

/-- The bytes an effect puts on the wire. -/
def Effect.bytes : Effect → List UInt8
  | toRoute _ data => data
  | toAddr _ data => data
  | punch data _ => data

namespace ProtocolLayer

/-! ## Packets of its own -/

/-- The types whose payload names no peer and no route. -/
def isPlain : ProtocolType → Bool
  | .helloRequest => true
  | .idRouteQuery => true
  | .echoRequest => true
  | .echoReply => true
  | .timestampReply => true
  | .natObserveRequest => true
  | .natObserveReply => true
  | _ => false

/-- The payloads of the packets that a layer builds, by their type. -/
inductive Says (c : Codec) (l : ProtocolLayer) : ProtocolType → List UInt8 → Prop where
  | helloReply (env : Env) (requester : PeerId) (observed : Option NatObservation) :
      Says c l .helloReply (encodeHelloPayload c (l.helloPayload env requester observed))
  | idRouteReply (env : Env) (requester : PeerId) :
      Says c l .idRouteReply (encodeRouteReplyPayload c ⟨l.discoveryEntries env requester⟩)
  /-- A punch payload names the layer as its source. -/
  | punch {protocol : ProtocolType} {payload : PunchPayload}
      (type : protocol = .punchRequest ∨ protocol = .punchReply ∨ protocol = .punchConsultReply)
      (src : payload.src = l.peerId) : Says c l protocol (encodePunchPayload c payload)
  | plain {protocol : ProtocolType} {payload : List UInt8} (type : isPlain protocol = true) :
      Says c l protocol payload

/-- The bytes are a packet of the layer's own. -/
def Originates (c : Codec) (l : ProtocolLayer) (data : List UInt8) : Prop :=
  ∃ protocol dest payload packet,
    Packet.build protocol l.peerId dest l.maxTtl payload = .ok packet ∧ packet.buf = data ∧
      Says c l protocol payload

/-- The outcome sends packets of the layer `l` only. -/
def Emits {σ : Type} (c : Codec) (l : ProtocolLayer) (o : Outcome σ) : Prop :=
  ∀ e ∈ o.effects, Originates c l e.bytes

section Combinators

variable {σ τ : Type} {c : Codec} {l : ProtocolLayer} {o : Outcome σ}

theorem emits_ok (s : σ) : Emits c l (.ok s) := fun _ h => absurd h List.not_mem_nil

theorem emits_fail (s : σ) (e : IoError) : Emits c l (.fail s e) :=
  fun _ h => absurd h List.not_mem_nil

theorem Emits.ignoring {next : σ → Outcome σ} (h : Emits c l o)
    (hnext : Emits c l (next o.state)) : Emits c l (o.ignoring next) := by
  intro e he
  rcases Outcome.mem_effects_ignoring.mp he with he | he
  · exact h e he
  · exact hnext e he

theorem Emits.andThen {next : σ → Outcome σ} (h : Emits c l o)
    (hnext : Emits c l (next o.state)) : Emits c l (o.andThen next) := by
  simp only [Outcome.andThen]
  split
  next => exact h.ignoring hnext
  next => exact h

end Combinators

/-! ## The functions that send -/

section Sending

variable {c : Codec} {l l' : ProtocolLayer}

/-- A layer that speaks for another one has its id and its time to live. -/
structure SpeaksFor (l l' : ProtocolLayer) : Prop where
  peerId : l.peerId = l'.peerId
  maxTtl : l.maxTtl = l'.maxTtl

theorem SpeaksFor.refl (l : ProtocolLayer) : SpeaksFor l l := ⟨rfl, rfl⟩

theorem SpeaksFor.of_adds {A : PeerId → RouteKey → UInt8 → Prop} (h : Adds A l l') :
    SpeaksFor l l' := ⟨h.peerId.symm, h.maxTtl.symm⟩

/-- It goes on to do so when it adds routes. -/
theorem SpeaksFor.after {A : PeerId → RouteKey → UInt8 → Prop} {l₁ : ProtocolLayer}
    (h : SpeaksFor l l') (hadds : Adds A l l₁) : SpeaksFor l₁ l' :=
  ⟨hadds.peerId.trans h.peerId, hadds.maxTtl.trans h.maxTtl⟩

theorem originates_build (hl : SpeaksFor l l') {protocol : ProtocolType} {dest : PeerId}
    {payload : List UInt8} {packet : Packet}
    (hbuild : Packet.build protocol l.peerId dest l.maxTtl payload = .ok packet)
    (hcontent : Says c l' protocol payload) : Originates c l' packet.buf :=
  ⟨protocol, dest, payload, packet, hl.peerId ▸ hl.maxTtl ▸ hbuild, rfl, hcontent⟩

theorem emits_sendProtocol (hl : SpeaksFor l l') (env : Env) (dest : PeerId)
    {protocol : ProtocolType} {payload : List UInt8} (hcontent : Says c l' protocol payload) :
    Emits c l' (l.sendProtocol env dest protocol payload) := by
  simp only [sendProtocol]
  split
  next => exact emits_fail _ _
  next packet hbuild =>
    intro e he
    obtain ⟨k, m, -, rfl⟩ := Transport.effects_sendWire he
    exact originates_build hl hbuild hcontent

theorem emits_sendProtocolToRoute (hl : SpeaksFor l l') (env : Env) (dest : PeerId)
    (key : RouteKey) {protocol : ProtocolType} {payload : List UInt8}
    (hcontent : Says c l' protocol payload) :
    Emits c l' (l.sendProtocolToRoute env dest key protocol payload) := by
  simp only [sendProtocolToRoute]
  split
  next => exact emits_fail _ _
  next packet hbuild =>
    intro e he
    rw [Transport.effects_sendWireToRoute he]
    exact originates_build hl hbuild hcontent

/-- The punch payload of a layer names it. -/
theorem says_punch (hl : SpeaksFor l l') {protocol : ProtocolType}
    (type : protocol = .punchRequest ∨ protocol = .punchReply ∨ protocol = .punchConsultReply)
    (dest : PeerId) (requestId : UInt64) :
    Says c l' protocol (encodePunchPayload c (l.punchPayloadWithRequestId dest requestId)) :=
  .punch type hl.peerId

theorem emits_executePunch (hl : SpeaksFor l l') (env : Env) (p : PeerId) (natInfo : NatInfo) :
    Emits c l' (executePunch c l env p natInfo) := by
  simp only [executePunch]
  split
  next => exact emits_fail _ _
  next packet hbuild =>
    intro e he
    rw [List.mem_singleton.mp he]
    exact originates_build hl hbuild (says_punch hl (Or.inl rfl) p env.punchId)

theorem emits_tryExecutePunch (hl : SpeaksFor l l') (env : Env) (p : PeerId) (natInfo : NatInfo)
    (key : RouteKey) (metric : UInt8) :
    Emits c l' (tryExecutePunch c l env p natInfo key metric) := by
  simp only [tryExecutePunch]
  split
  next => exact emits_ok _
  next =>
    split
    next =>
      split
      next => exact emits_ok _
      next =>
        have htime := hl.after (same_insertLastPunchTime l p env.nowSecs).quiet
        exact emits_executePunch htime env p natInfo
    next => exact emits_executePunch hl env p _

theorem emits_punch (hl : SpeaksFor l l') (env : Env) (p : PeerId) :
    Emits c l' (punch c l env p) := by
  simp only [punch]
  split
  next => exact emits_fail _ _
  next =>
    have hpending := hl.after (same_insertPendingPunch l env.requestId p).quiet
    refine Emits.andThen
      (emits_sendProtocol hpending env p (says_punch hl (Or.inl rfl) p env.requestId)) ?_
    split
    next natInfo _ =>
      exact emits_executePunch
        (hpending.after (same_sendProtocol _ env p .punchRequest _).quiet) env p natInfo
    next => exact emits_ok _

theorem emits_sendEcho (hl : SpeaksFor l l') (env : Env) (p : PeerId) (key : RouteKey) :
    Emits c l' (l.sendEcho env p key) := by
  have hpending := hl.after (same_insertPendingEcho l p env.nowMillis).quiet
  exact emits_sendProtocolToRoute hpending env p key (.plain rfl)

theorem emits_probeCandidate (hl : SpeaksFor l l') (env : Env) (p : PeerId) (key : RouteKey) :
    Emits c l' (l.probeCandidate env p key) := by
  simp only [probeCandidate]
  split
  next => exact emits_ok _
  next t _ =>
    have hpending : SpeaksFor (({ l with transport := t } : ProtocolLayer).insertPendingHello key)
        l' := ⟨hl.peerId, hl.maxTtl⟩
    exact emits_sendProtocolToRoute hpending env p key (.plain rfl)

theorem emits_sendAutoPunch (hl : SpeaksFor l l') (env : Env) (now : UInt64) (p : PeerId) :
    Emits c l' (sendAutoPunch c l env now p) := by
  have hpending := (hl.after (same_insertLastPunchTime l p now).quiet).after
    (same_insertPendingPunch _ env.requestId p).quiet
  simp only [sendAutoPunch]
  refine Emits.ignoring
    (emits_sendProtocol hpending env p (says_punch hl (Or.inl rfl) p env.requestId)) ?_
  split
  next natInfo _ =>
    split
    next =>
      exact emits_executePunch
        (hpending.after (same_sendProtocol _ env p .punchRequest _).quiet) env p natInfo
    next => exact emits_ok _
  next => exact emits_ok _

theorem emits_autoPunch (hl : SpeaksFor l l') (env : Env) (now : UInt64) (p : PeerId) :
    Emits c l' (autoPunch c l env now p) := by
  unfold autoPunch
  split
  next => exact emits_ok _
  next =>
    simp only
    split
    next => exact emits_ok _
    next =>
      exact emits_sendAutoPunch (hl.after (same_routeFor l p).quiet) env now p

theorem emits_requestObservation (hl : SpeaksFor l l') (env : Env) (p : PeerId) :
    Emits c l' (l.requestObservation env p) := by
  simp only [requestObservation]
  split
  next =>
    refine emits_sendProtocol ?_ env p (.plain rfl)
    split <;> exact ⟨hl.peerId, hl.maxTtl⟩
  next => exact emits_ok _

end Sending

/-! ## The handler -/

section Handler

variable {c : Codec} {env : Env} {l l' : ProtocolLayer} {data : List UInt8} {packet : Packet}
  {key : RouteKey} {peer : PeerInfo}

theorem emits_onHelloRequest :
    Emits c (onHelloRequest c env l packet key peer).state
      (onHelloRequest c env l packet key peer) := by
  simp only [onHelloRequest]
  rw [sendProtocolToRoute_state]
  exact emits_sendProtocolToRoute (.refl _) env packet.src key (.helloReply env packet.src _)

theorem emits_onIdRouteQuery :
    Emits c (onIdRouteQuery c env l packet key peer).state
      (onIdRouteQuery c env l packet key peer) := by
  simp only [onIdRouteQuery]
  rw [sendProtocolToRoute_state]
  exact emits_sendProtocolToRoute (.refl _) env packet.src key (.idRouteReply env packet.src)

theorem emits_onIdRouteReply : Emits c l' (onIdRouteReply c env l packet key peer) := by
  simp only [onIdRouteReply]
  split
  next => exact emits_fail _ _
  next => exact emits_ok _

theorem emits_handlePunchConsultRequest (hl : SpeaksFor l l') :
    Emits c l' (handlePunchConsultRequest c env l packet key) := by
  simp only [handlePunchConsultRequest]
  split
  next => exact emits_fail _ _
  next punch l₁ h =>
    obtain ⟨-, rfl⟩ := handlePunchPayload_ok h
    have hnat := hl.after (same_insertPeerNat l punch.src punch.natInfo).quiet
    split
    next => exact emits_ok _
    next =>
      exact emits_sendProtocolToRoute hnat env punch.src key
        (says_punch hnat (Or.inr (Or.inr rfl)) punch.src env.requestId)

theorem emits_onPunchConsultReply : Emits c l' (onPunchConsultReply c l packet) := by
  simp only [onPunchConsultReply]
  split
  next => exact emits_fail _ _
  next => exact emits_ok _

theorem emits_onPunchRequest (hl : SpeaksFor l l') :
    Emits c l' (onPunchRequest c env l packet key) := by
  unfold onPunchRequest
  split
  next => exact emits_fail _ _
  next punch l₁ h =>
    obtain ⟨-, rfl⟩ := handlePunchPayload_ok h
    have hconfirmed := (hl.after (same_insertPeerNat l punch.src punch.natInfo).quiet).after
      (adds_confirmPunchRequest _ env punch.src key packet.metric)
    simp only
    split
    next =>
      have hpunched := hconfirmed.after
        (same_tryExecutePunch c _ env punch.src punch.natInfo key packet.metric).quiet
      exact (emits_tryExecutePunch hconfirmed env punch.src punch.natInfo key
        packet.metric).ignoring
        (emits_sendProtocolToRoute hpunched env punch.src key
          (says_punch hpunched (Or.inr (Or.inl rfl)) punch.src punch.requestId))
    next => exact emits_ok _

theorem emits_onPunchReply (hl : SpeaksFor l l') :
    Emits c l' (onPunchReply c env l packet key) := by
  unfold onPunchReply
  split
  next => exact emits_fail _ _
  next punch l₁ h =>
    obtain ⟨-, rfl⟩ := handlePunchPayload_ok h
    have hconfirmed := (hl.after (same_insertPeerNat l punch.src punch.natInfo).quiet).after
      (adds_confirmPunchReply _ env punch key packet.metric)
    simp only
    split
    next =>
      exact (emits_tryExecutePunch hconfirmed env punch.src punch.natInfo key
        packet.metric).ignoring
        (emits_ok _)
    next => exact emits_ok _

theorem emits_onEcho (hl : SpeaksFor l l') {reply : ProtocolType} (type : isPlain reply = true) :
    Emits c l' (onEcho reply env l packet key peer) := by
  have hconfirmed : SpeaksFor (l.confirmTcpRoute env peer key packet.metric) l' :=
    hl.after (A := fun _ _ _ => True)
      (writes_confirmTcpRoute l env peer key (fun _ _ => trivial) trivial).adds
  exact emits_sendProtocolToRoute hconfirmed env packet.src key (.plain type)

theorem emits_onNatObserveRequest (hl : SpeaksFor l l') :
    Emits c l' (onNatObserveRequest c env l packet key) := by
  simp only [onNatObserveRequest]
  split
  next => exact emits_sendProtocolToRoute hl env packet.src key (.plain rfl)
  next => exact emits_ok _

theorem emits_onNatObserveReply : Emits c l' (onNatObserveReply c env l packet key peer) := by
  simp only [onNatObserveReply]
  split
  next => exact emits_ok _
  next =>
    split
    next => exact emits_fail _ _
    next => split <;> exact emits_ok _

/-- For a packet to this node, whatever its type, the node sends packets of its
own, and a HelloReply or IDRouteReply is about the layer it leaves behind. -/
theorem originates_dispatch {protocol : ProtocolType} (type : packet.protocol = .ok protocol)
    (hpeer : peer.peerId = packet.src) {e : Effect}
    (he : e ∈ (dispatch c env l packet key peer protocol).effects) :
    Originates c (dispatch c env l packet key peer protocol).layer e.bytes := by
  have hadds : Adds (At key (Confirmed c l packet key)) l
      (dispatch c env l packet key peer protocol).layer := adds_dispatch type hpeer
  have hl := SpeaksFor.of_adds hadds
  cases protocol with
  | helloRequest => exact emits_onHelloRequest e he
  | helloReply =>
      simp only [dispatch, onHelloReply] at he
      split at he <;> exact absurd he List.not_mem_nil
  | idRouteQuery => exact emits_onIdRouteQuery e he
  | idRouteReply => exact emits_onIdRouteReply e he
  | quicRelay => exact absurd he List.not_mem_nil
  | punchConsultRequest => exact emits_handlePunchConsultRequest hl e he
  | punchConsultReply => exact emits_onPunchConsultReply e he
  | punchRequest => exact emits_onPunchRequest hl e he
  | punchReply => exact emits_onPunchReply hl e he
  | echoRequest => exact emits_onEcho hl rfl e he
  | echoReply => exact absurd he List.not_mem_nil
  | timestampRequest => exact emits_onEcho hl rfl e he
  | natObserveRequest => exact emits_onNatObserveRequest hl e he
  | natObserveReply => exact emits_onNatObserveReply e he
  | messageData => exact absurd he List.not_mem_nil
  | rangeBroadcast => exact absurd he List.not_mem_nil
  | timestampReply => exact absurd he List.not_mem_nil

/-- What handling sends: packets of its own, or the packet itself with one less
to live when it is for another node. -/
theorem effects_handleTransportPacket {e : Effect}
    (he : e ∈ (handleTransportPacket c env l data key).effects) :
    Originates c (handleTransportPacket c env l data key).layer e.bytes ∨
      ∃ packet, l.screen data = .ok (some packet) ∧ 1 < packet.ttl ∧
        e.bytes = (packet.setTtl (packet.ttl - 1)).buf := by
  have hhandled : Handled c env l data key (handleTransportPacket c env l data key) :=
    handled_handleTransportPacket
  generalize handleTransportPacket c env l data key = handling at hhandled he
  cases hhandled with
  | dropped unscreened state effects =>
      rw [Handling.effects, effects] at he
      exact absurd he List.not_mem_nil
  | @forwarded packet screened remote =>
      obtain ⟨httl, k, m, -, rfl⟩ := effects_forwardPacket he
      exact Or.inr ⟨packet, screened, httl, rfl⟩
  | untyped screened isLocal type => exact absurd he List.not_mem_nil
  | @dispatched packet protocol screened isLocal type =>
      exact Or.inl (originates_dispatch type (arrive_peer l env packet key) he)

end Handler

end ProtocolLayer

open ProtocolLayer

/-! ## Tasks and calls -/

namespace Task

variable {c : Codec} {env : Env} {l l' : ProtocolLayer}

theorem emits_runMaintenance (hl : SpeaksFor l l') {m m' : Maintenance}
    {o : Outcome ProtocolLayer} (h : runMaintenance c env l m = some (o, m')) : Emits c l' o := by
  simp only [runMaintenance] at h
  split at h
  next => split at h <;> (cases h; exact emits_ok _)
  next => cases h; exact emits_ok _
  next =>
    split at h
    next => cases h; exact emits_ok _
    next => cases h; exact emits_sendProtocol hl env _ (.plain rfl)
  next => cases h; exact emits_ok _
  next => cases h; exact emits_probeCandidate hl env _ _
  next => cases h; exact emits_ok _
  next => cases h; exact emits_autoPunch hl env _ _
  next => cases h

/-- Every task but the core sender sends packets of its own. -/
theorem emits_run (hl : SpeaksFor l l') {loops loops' : Loops} {task : Task}
    {o : Outcome ProtocolLayer} (h : run c env l loops task = some (o, loops'))
    (hcore : task ≠ .coreSend) : Emits c l' o := by
  cases task with
  | maintain =>
      obtain ⟨⟨o', m⟩, hrun, heq⟩ := Option.map_eq_some_iff.mp h
      cases heq
      exact emits_runMaintenance hl hrun
  | heartbeat =>
      simp only [run] at h
      split at h
      next => split at h <;> cases h; exact emits_ok _
      next => cases h; exact emits_sendEcho hl env _ _
  | observe =>
      simp only [run] at h
      split at h
      next => split at h <;> cases h; exact emits_ok _
      next => cases h; exact emits_requestObservation hl env _
  | stun result => cases h; exact emits_ok _
  | probe index =>
      simp only [run] at h
      split at h
      next =>
        cases h
        have htasks : SpeaksFor { l with probeTasks := l.probeTasks.eraseIdx index } l' :=
          ⟨hl.peerId, hl.maxTtl⟩
        exact emits_sendEcho htasks env _ _
      next => cases h
  | coreSend => exact absurd rfl hcore
  | allowPunch peerId => cases h; exact emits_ok _
  | denyPunch peerId => cases h; exact emits_ok _
  | setPunchWhitelist peers => cases h; exact emits_ok _
  | punch peerId => cases h; exact emits_punch hl env peerId
  | lookup peerId => cases h; exact emits_ok _
  | sendQuic peerId payload =>
      cases h
      simp only [trySendQuicPayload]
      split
      next => exact emits_fail _ _
      next =>
        split
        next => exact emits_ok _
        next =>
          split
          next => exact emits_ok _
          next => exact emits_fail _ _
  | sendQuicVia peerId routeKey payload =>
      cases h
      simp only [trySendQuicPayloadVia]
      split
      next => exact emits_fail _ _
      next => exact emits_ok _
  | close => cases h; exact emits_ok _
  | rehash peers candidates routeTable =>
      obtain ⟨m, hrehash, heq⟩ := Option.map_eq_some_iff.mp h
      cases heq
      exact emits_ok _

end Task

namespace Node

variable {c : Codec} {n n' : Node} {e : Event}

theorem emits_sendHello {l l' : ProtocolLayer} (hl : SpeaksFor l l') (env : Env)
    (addr : SocketAddr) : Emits c l' (sendHello l env addr) := by
  simp only [sendHello]
  split
  next => exact emits_fail _ _
  next packet hbuild =>
    intro e he
    simp only [Outcome.map_effects, Transport.sendRawToAddr] at he
    split at he
    next =>
      rw [List.mem_singleton.mp he]
      exact originates_build hl hbuild (.plain rfl)
    next => exact absurd he List.not_mem_nil

/-- A call sends HelloRequests. -/
theorem CallMove.originates {l l' : ProtocolLayer} {queue queue' : List HelloItem}
    {call call' : Call} {effects : List Effect} {s : CallStep}
    (h : CallMove l queue call s call' l' queue' effects) {x : Effect} (hx : x ∈ effects) :
    Originates c l' x.bytes := by
  cases h with
  | sent => exact emits_sendHello (.of_adds (same_sendHello l _ call.addr).quiet) _ _ x hx
  | unsent => exact emits_sendHello (.of_adds (same_sendHello l _ call.addr).quiet) _ _ x hx
  | _ => exact absurd hx List.not_mem_nil

/-- What a step sends: packets of its own or, for a packet to another node, the
packet with one less to live.  The core sender sends from its queue. -/
theorem sent_step (h : step c n e = some n') {x : Effect} (hx : x ∈ n'.sent) :
    x ∈ n.sent ∨ Originates c n'.layer x.bytes ∨
      (∃ env data key packet, e = .packet env data key ∧ n.layer.screen data = .ok (some packet) ∧
        1 < packet.ttl ∧ x.bytes = (packet.setTtl (packet.ttl - 1)).buf) ∨
      ∃ env, e = .task .coreSend env := by
  cases Move.of_step h with
  | @packet env data key idle =>
      have hnew : x ∈ n.sent ∨ x ∈ (handleTransportPacket c env n.layer data key).effects := by
        simp only [handlePacket] at hx
        split at hx
        next heq => rw [heq]; exact List.mem_append.mp hx
        next => exact Or.inl hx
        next => exact Or.inl hx
      rcases hnew with hold | heffect
      · exact Or.inl hold
      · rw [handlePacket_layer]
        rcases effects_handleTransportPacket heffect with hown | ⟨packet, hscreen, httl, hbytes⟩
        · exact Or.inr (Or.inl hown)
        · exact Or.inr (Or.inr (Or.inl ⟨env, data, key, packet, rfl, hscreen, httl, hbytes⟩))
  | helloSent => exact Or.inl hx
  | quicSent => exact Or.inl hx
  | transportClosed => exact Or.inl hx
  | quicReceived => exact Or.inl hx
  | bootstrap => exact Or.inl hx
  | call running move =>
      rcases List.mem_append.mp hx with hold | heffect
      · exact Or.inl hold
      · exact Or.inr (Or.inl (move.originates heffect))
  | @task task env outcome loops ran =>
      rcases List.mem_append.mp hx with hold | heffect
      · exact Or.inl hold
      · by_cases hcore : task = .coreSend
        · subst hcore
          exact Or.inr (Or.inr (Or.inr ⟨env, rfl⟩))
        · exact Or.inr (Or.inl
            (Task.emits_run (.of_adds (Task.same_run ran).quiet) ran hcore x heffect))

end Node

end RustP2p
