import Mathlib.Data.List.Perm.Basic
import RustP2p.Quic.Network

/-!
# How much traffic there can be

Nodes and the datagrams in flight between them.  The network may deliver any
datagram to any node on any key, lose it, or copy it.  Besides, datagrams enter
from the timers and the calls of a node, from its rounds of hole punching, and
from strangers.

A node answers packets and forwards them, so one datagram leads to others.  The
`weight` of a datagram bounds how many are handled because of it, itself included:

* a packet with `t` to live is handled at most `t` times, once by each relay and
  once at its destination, for a relay sends it on with one less to live;
* a packet of a type that is answered (`answer`) leads to one answer, which has the
  time to live of the node that sends it.  No answer is answered.

`handled_le` is the result: over any run the datagrams handled, and the weight of
what is still in flight, are at most the weight of what was in flight and has
entered.  So when nothing enters, the network falls silent.

A round of hole punching sends its packet to many addresses, again and again.  A
node starts it because of one packet, so its probes count as entering.
-/

namespace RustP2p

open ProtocolLayer Transition

/-! ## Weights -/

/-- The packet type a node answers this one with. -/
def answer : ProtocolType → Option ProtocolType
  | .helloRequest => some .helloReply
  | .idRouteQuery => some .idRouteReply
  | .punchConsultRequest => some .punchConsultReply
  | .punchRequest => some .punchReply
  | .echoRequest => some .echoReply
  | .timestampRequest => some .timestampReply
  | .natObserveRequest => some .natObserveReply
  | _ => none

/-- No answer is answered. -/
theorem answer_answer {protocol reply : ProtocolType} (h : answer protocol = some reply) :
    answer reply = none := by
  cases protocol <;> cases h <;> rfl

/-- How many nodes may handle a packet with this time to live. -/
def lives (ttl : UInt8) : Nat := max ttl.toNat 1

theorem one_le_lives (ttl : UInt8) : 1 ≤ lives ttl := Nat.le_max_right _ _

theorem lives_mono {t t' : UInt8} (h : t ≤ t') : lives t ≤ lives t' := by
  have hle := UInt8.le_iff_toNat_le.mp h
  simp only [lives]
  omega

/-- A relay takes one off. -/
theorem lives_pred {ttl : UInt8} (h : 1 < ttl) : lives (ttl - 1) + 1 = lives ttl := by
  have hpos : 1 < ttl.toNat := by simpa [UInt8.lt_iff_toNat_lt] using h
  have hpred : (ttl - 1).toNat = ttl.toNat - 1 := UInt8.toNat_sub_of_le _ _ (UInt8.le_of_lt h)
  simp only [lives, hpred]
  omega

/-- How often the answer to a packet of this type is handled, when no node gives its
packets more than `maxTtl` to live. -/
def answerWeight (maxTtl : UInt8) : IoResult ProtocolType → Nat
  | .error _ => 0
  | .ok protocol => if (answer protocol).isSome then lives maxTtl else 0

/-- How many datagrams are handled because of this one. -/
def weight (maxTtl : UInt8) (data : List UInt8) : Nat :=
  match Packet.parse data with
  | .error _ => 1
  | .ok packet => lives packet.ttl + answerWeight maxTtl packet.protocol

/-- The weight of several datagrams. -/
def load (maxTtl : UInt8) (flight : List (List UInt8)) : Nat := (flight.map (weight maxTtl)).sum

section Weight

variable {maxTtl : UInt8} {data : List UInt8} {packet : Packet}

theorem weight_of_parse (h : Packet.parse data = .ok packet) :
    weight maxTtl data = lives packet.ttl + answerWeight maxTtl packet.protocol := by
  simp only [weight, h]

theorem one_le_weight : 1 ≤ weight maxTtl data := by
  simp only [weight]
  split
  next => exact Nat.le_refl 1
  next => exact Nat.le_trans (one_le_lives _) (Nat.le_add_right _ _)

theorem answerWeight_le (protocol : IoResult ProtocolType) :
    answerWeight maxTtl protocol ≤ lives maxTtl := by
  simp only [answerWeight]
  split
  next => exact Nat.zero_le _
  next => split <;> omega

/-- A packet and its answer are handled by at most `maxTtl` nodes each. -/
theorem weight_le (httl : ∀ packet, Packet.parse data = .ok packet → packet.ttl ≤ maxTtl) :
    weight maxTtl data ≤ 2 * lives maxTtl := by
  have hone := one_le_lives maxTtl
  simp only [weight]
  split
  next => omega
  next packet hparse =>
    have hlives := lives_mono (httl packet hparse)
    have hanswer : answerWeight maxTtl packet.protocol ≤ lives maxTtl := answerWeight_le _
    omega

@[simp] theorem load_nil : load maxTtl [] = 0 := rfl

@[simp] theorem load_singleton : load maxTtl [data] = weight maxTtl data := by
  simp [load]

@[simp] theorem load_append (as bs : List (List UInt8)) :
    load maxTtl (as ++ bs) = load maxTtl as + load maxTtl bs := by
  simp [load]

theorem load_eraseIdx {flight : List (List UInt8)} {i : Nat} (h : flight[i]? = some data) :
    load maxTtl (flight.eraseIdx i) + weight maxTtl data = load maxTtl flight := by
  obtain ⟨hi, hget⟩ := List.getElem?_eq_some_iff.mp h
  have hperm := (List.getElem_cons_eraseIdx_perm hi).map (weight maxTtl)
  have hsum := hperm.sum_nat
  rw [hget, List.map_cons, List.sum_cons] at hsum
  simp only [load]
  omega

theorem load_flatten (parts : List (List (List UInt8))) :
    load maxTtl parts.flatten = (parts.map (load maxTtl)).sum := by
  induction parts with
  | nil => rfl
  | cons part parts ih => rw [List.flatten_cons, load_append, ih, List.map_cons, List.sum_cons]

theorem load_le_mul_length {flight : List (List UInt8)} {m : Nat}
    (h : ∀ data ∈ flight, weight maxTtl data ≤ m) : load maxTtl flight ≤ m * flight.length := by
  induction flight with
  | nil => exact Nat.zero_le _
  | cons data flight ih =>
      have hdata := h data List.mem_cons_self
      have hflight := ih fun d hd => h d (List.mem_cons_of_mem _ hd)
      rw [List.length_cons, Nat.mul_succ, ← List.singleton_append, load_append, load_singleton]
      omega

/-- What is built as an answer weighs no more than its time to live. -/
theorem weight_build {protocol reply : ProtocolType} {src dest : PeerId} {ttl : UInt8}
    {payload : List UInt8} (hreply : answer protocol = some reply)
    (hbuild : Packet.build reply src dest ttl payload = .ok packet) :
    weight maxTtl packet.buf = lives ttl := by
  obtain ⟨-, -, -, -, httl, -, htype⟩ := Packet.build_fields hbuild
  rw [weight_of_parse (Packet.parse_build hbuild), httl, htype, answerWeight,
    answer_answer hreply]
  rfl

end Weight

/-! ## What handling sends -/

/-- The datagram of an effect.  A round of hole punching is not one datagram. -/
def Effect.datagram : Effect → Option (List UInt8)
  | toRoute _ data => some data
  | toAddr _ data => some data
  | punch _ _ => none

/-- The datagrams of some effects. -/
def datagrams (effects : List Effect) : List (List UInt8) := effects.filterMap Effect.datagram

@[simp] theorem datagrams_nil : datagrams [] = [] := rfl

@[simp] theorem datagrams_append (as bs : List Effect) :
    datagrams (as ++ bs) = datagrams as ++ datagrams bs := List.filterMap_append

namespace ProtocolLayer

section Sending

variable {c : Codec} {env : Env} {l : ProtocolLayer} {maxTtl : UInt8} {packet : Packet}
  {key : RouteKey} {peer : PeerInfo} {protocol reply : ProtocolType}

/-- The outcome sends no more than one answer to a packet of this type, with the time to
live of its layer. -/
def Answers (maxTtl : UInt8) (protocol : ProtocolType) (o : Outcome ProtocolLayer) : Prop :=
  o.state.maxTtl ≤ maxTtl →
    load maxTtl (datagrams o.effects) ≤ answerWeight maxTtl (.ok protocol)

/-- Rounds of hole punching aside, the outcome sends nothing. -/
theorem answers_of_silent {o : Outcome ProtocolLayer} (h : datagrams o.effects = []) :
    Answers maxTtl protocol o := by
  intro _
  rw [h]
  exact Nat.zero_le _

theorem answers_sendProtocolToRoute (hreply : answer protocol = some reply) (dest : PeerId)
    (payload : List UInt8) :
    Answers maxTtl protocol (l.sendProtocolToRoute env dest key reply payload) := by
  intro hl
  rw [sendProtocolToRoute_state] at hl
  rw [answerWeight, hreply, Option.isSome_some, if_pos rfl]
  simp only [sendProtocolToRoute]
  split
  next => exact Nat.zero_le _
  next packet hbuild =>
    simp only [Outcome.map_effects, Transport.sendWireToRoute]
    split
    next =>
      simp only [datagrams, List.filterMap_cons, Effect.datagram, List.filterMap_nil,
        load_singleton, weight_build hreply hbuild]
      exact lives_mono hl
    next => exact Nat.zero_le _

theorem datagrams_executePunch (p : PeerId) (natInfo : NatInfo) :
    datagrams (executePunch c l env p natInfo).effects = [] := by
  simp only [executePunch]
  split <;> rfl

theorem datagrams_tryExecutePunch (p : PeerId) (natInfo : NatInfo) (metric : UInt8) :
    datagrams (tryExecutePunch c l env p natInfo key metric).effects = [] := by
  simp only [tryExecutePunch]
  split
  next => rfl
  next =>
    split
    next =>
      split
      next => rfl
      next => exact datagrams_executePunch _ _
    next => exact datagrams_executePunch _ _

/-- A punch before an answer adds no datagram of its own. -/
theorem Answers.after_punch {p : PeerId} {natInfo : NatInfo} {metric : UInt8}
    {next : ProtocolLayer → Outcome ProtocolLayer}
    (h : Answers maxTtl protocol
      (next (tryExecutePunch c l env p natInfo key metric).state)) :
    Answers maxTtl protocol
      ((tryExecutePunch c l env p natInfo key metric).ignoring next) := by
  intro hl
  simp only [Outcome.ignoring, datagrams_append, datagrams_tryExecutePunch, List.nil_append]
  exact h hl

theorem answers_handlePunchConsultRequest :
    Answers maxTtl .punchConsultRequest (handlePunchConsultRequest c env l packet key) := by
  simp only [handlePunchConsultRequest]
  split
  next => exact answers_of_silent rfl
  next =>
    split
    next => exact answers_of_silent rfl
    next => exact answers_sendProtocolToRoute rfl _ _

theorem answers_onPunchConsultReply :
    Answers maxTtl .punchConsultReply (onPunchConsultReply c l packet) := by
  simp only [onPunchConsultReply]
  split <;> exact answers_of_silent rfl

theorem answers_onPunchRequest :
    Answers maxTtl .punchRequest (onPunchRequest c env l packet key) := by
  unfold onPunchRequest
  split
  next => exact answers_of_silent rfl
  next =>
    simp only
    split
    next => exact (answers_sendProtocolToRoute rfl _ _).after_punch
    next => exact answers_of_silent rfl

theorem answers_onPunchReply :
    Answers maxTtl .punchReply (onPunchReply c env l packet key) := by
  unfold onPunchReply
  split
  next => exact answers_of_silent rfl
  next =>
    simp only
    split
    next => exact (answers_of_silent rfl).after_punch
    next => exact answers_of_silent rfl

theorem answers_onIdRouteReply :
    Answers maxTtl .idRouteReply (onIdRouteReply c env l packet key peer) := by
  simp only [onIdRouteReply]
  split <;> exact answers_of_silent rfl

theorem answers_onNatObserveRequest :
    Answers maxTtl .natObserveRequest (onNatObserveRequest c env l packet key) := by
  simp only [onNatObserveRequest]
  split
  next => exact answers_sendProtocolToRoute rfl _ _
  next => exact answers_of_silent rfl

theorem answers_onNatObserveReply :
    Answers maxTtl .natObserveReply (onNatObserveReply c env l packet key peer) := by
  simp only [onNatObserveReply]
  split
  next => exact answers_of_silent rfl
  next =>
    split
    next => exact answers_of_silent rfl
    next => split <;> exact answers_of_silent rfl

/-- A packet for this node, whatever its type, is answered once at most. -/
theorem load_dispatch
    (hl : (dispatch c env l packet key peer protocol).layer.maxTtl ≤ maxTtl) :
    load maxTtl (datagrams (dispatch c env l packet key peer protocol).effects) ≤
      answerWeight maxTtl (.ok protocol) := by
  cases protocol with
  | helloRequest => exact answers_sendProtocolToRoute rfl _ _ hl
  | helloReply =>
      simp only [dispatch, onHelloReply]
      split <;> exact Nat.zero_le _
  | idRouteQuery => exact answers_sendProtocolToRoute rfl _ _ hl
  | idRouteReply => exact answers_onIdRouteReply hl
  | quicRelay => exact Nat.zero_le _
  | punchConsultRequest => exact answers_handlePunchConsultRequest hl
  | punchConsultReply => exact answers_onPunchConsultReply hl
  | punchRequest => exact answers_onPunchRequest hl
  | punchReply => exact answers_onPunchReply hl
  | echoRequest => exact answers_sendProtocolToRoute rfl _ _ hl
  | echoReply => exact Nat.zero_le _
  | timestampRequest => exact answers_sendProtocolToRoute rfl _ _ hl
  | natObserveRequest => exact answers_onNatObserveRequest hl
  | natObserveReply => exact answers_onNatObserveReply hl
  | messageData => exact Nat.zero_le _
  | rangeBroadcast => exact Nat.zero_le _
  | timestampReply => exact Nat.zero_le _

/-- What is sent on weighs one less. -/
theorem load_forwardPacket {data : List UInt8} (hparse : Packet.parse data = .ok packet) :
    load maxTtl (datagrams (l.forwardPacket env packet).effects) + 1 ≤ weight maxTtl data := by
  have hone : (l.forwardPacket env packet).effects.length ≤ 1 := length_effects_forwardPacket
  cases heffects : (l.forwardPacket env packet).effects with
  | nil => exact one_le_weight
  | cons e rest =>
      rw [heffects] at hone
      obtain rfl : rest = [] := List.eq_nil_of_length_eq_zero (by simpa using hone)
      have hmem : e ∈ (l.forwardPacket env packet).effects := by
        rw [heffects]
        exact .head _
      obtain ⟨httl, k, m, -, rfl⟩ := effects_forwardPacket hmem
      have hlives := lives_pred httl
      simp only [datagrams, List.filterMap_cons, Effect.datagram, List.filterMap_nil,
        load_singleton]
      rw [weight_of_parse (Packet.parse_setTtl hparse _), weight_of_parse hparse,
        Packet.setTtl_ttl, Packet.setTtl_protocol]
      omega

theorem maxTtl_handleTransportPacket (c : Codec) (env : Env) (data : List UInt8)
    (key : RouteKey) : (handleTransportPacket c env l data key).layer.maxTtl = l.maxTtl := by
  have hwrites : Writes (Caused c l data key) l (handleTransportPacket c env l data key).layer :=
    writes_handleTransportPacket
  have hadds := (hwrites.mono fun _ h =>
    h.meets (A := fun _ _ _ => True) fun _ _ _ _ _ _ => trivial).adds
  exact hadds.maxTtl

/-- Handling a datagram sends less than the datagram weighs. -/
theorem load_handleTransportPacket (c : Codec) (env : Env) (data : List UInt8) (key : RouteKey)
    (hl : l.maxTtl ≤ maxTtl) :
    load maxTtl (datagrams (handleTransportPacket c env l data key).effects) + 1 ≤
      weight maxTtl data := by
  have hlayer : (handleTransportPacket c env l data key).layer.maxTtl ≤ maxTtl := by
    rw [maxTtl_handleTransportPacket]
    exact hl
  have hhandled : Handled c env l data key (handleTransportPacket c env l data key) :=
    handled_handleTransportPacket
  generalize handleTransportPacket c env l data key = handling at hhandled hlayer
  cases hhandled with
  | dropped unscreened state effects =>
      rw [Handling.effects, effects]
      exact one_le_weight
  | forwarded screened remote => exact load_forwardPacket (screen_eq_some.mp screened).2.1
  | untyped screened isLocal type => exact one_le_weight
  | @dispatched packet protocol screened isLocal type =>
      have hanswer := load_dispatch hlayer
      have hone := one_le_lives packet.ttl
      rw [weight_of_parse (screen_eq_some.mp screened).2.1, type]
      omega

end Sending

end ProtocolLayer

/-! ## The network with its datagrams -/

/-- The nodes, and the datagrams in flight. -/
structure Traffic where
  nodes : Network
  flight : List (List UInt8)

/-- What can happen. -/
inductive TrafficEvent where
  /-- A node handles a datagram. -/
  | deliver (index : Nat) (node : PeerId) (env : Env) (routeKey : RouteKey)
  | lose (index : Nat)
  | copy (index : Nat)
  /-- Any other step of a node. -/
  | node (node : PeerId) (event : Event)
  /-- A probe of a round of hole punching that the node has started. -/
  | probe (node : PeerId) (data : List UInt8)
  /-- A datagram from outside the network. -/
  | stranger (data : List UInt8)

namespace Traffic

/-- What a node has put on the wire since. -/
def launched (n n' : Node) : List (List UInt8) := datagrams (n'.sent.drop n.sent.length)

/-- The node has started a round of hole punching with these bytes. -/
def isPunching (n : Node) (data : List UInt8) : Bool :=
  n.sent.any fun e => match e with
    | .punch bytes _ => bytes = data
    | _ => false

/-- The node takes a step, with the rest of the datagrams in flight. -/
def stepNode (c : Codec) (s : Traffic) (n : PeerId) (e : Event) (flight : List (List UInt8)) :
    Option Traffic :=
  (Node.step c (s.nodes n) e).map fun node =>
    ⟨Function.update s.nodes n node, flight ++ launched (s.nodes n) node⟩

/-- The network after an event, if the event can happen. -/
def step (c : Codec) (s : Traffic) : TrafficEvent → Option Traffic
  | .deliver i n env routeKey =>
      match s.flight[i]? with
      | none => none
      | some data => s.stepNode c n (.packet env data routeKey) (s.flight.eraseIdx i)
  | .lose i =>
      if i < s.flight.length then some { s with flight := s.flight.eraseIdx i } else none
  | .copy i =>
      (s.flight[i]?).map fun data => { s with flight := s.flight ++ [data] }
  | .node n e =>
      match e with
      | .packet .. => none
      | e => s.stepNode c n e s.flight
  | .probe n data =>
      if isPunching (s.nodes n) data then some { s with flight := s.flight ++ [data] } else none
  | .stranger data => some { s with flight := s.flight ++ [data] }

/-- The datagram an event handles. -/
def handled (s : Traffic) : TrafficEvent → Option (List UInt8)
  | .deliver i _ _ _ => s.flight[i]?
  | _ => none

/-- The datagrams that enter with an event. -/
def entering (c : Codec) (s : Traffic) : TrafficEvent → Option (List (List UInt8))
  | .copy i => (s.flight[i]?).map fun data => [data]
  | .node n e => (Node.step c (s.nodes n) e).map (launched (s.nodes n))
  | .probe _ data => some [data]
  | .stranger data => some [data]
  | _ => none

/-- The datagrams that enter during a run. -/
def entered (c : Codec) (s : Traffic) (es : List TrafficEvent) : List (List UInt8) :=
  (outputs (step c) (entering c) s es).flatten

/-! ## What one step does -/

section Steps

variable {c : Codec} {s t : Traffic} {maxTtl : UInt8}

/-- No node gives its packets more to live. -/
def Within (maxTtl : UInt8) (s : Traffic) : Prop := ∀ n, (s.nodes n).layer.maxTtl ≤ maxTtl

theorem launched_handlePacket (n : Node) (env : Env) (data : List UInt8) (key : RouteKey) :
    launched n (n.handlePacket c env data key) =
      datagrams (handleTransportPacket c env n.layer data key).effects := by
  simp only [launched, Node.handlePacket]
  split
  next h => rw [h, List.drop_left]; rfl
  next h => rw [h, List.drop_length]; rfl
  next h => rw [h, List.drop_length]; rfl

/-- A step of a node, with what it puts on the wire. -/
theorem stepNode_eq_some {n : PeerId} {e : Event} {flight : List (List UInt8)}
    (h : s.stepNode c n e flight = some t) :
    ∃ node, Node.step c (s.nodes n) e = some node ∧
      t = ⟨Function.update s.nodes n node, flight ++ launched (s.nodes n) node⟩ := by
  obtain ⟨node, hnode, rfl⟩ := Option.map_eq_some_iff.mp h
  exact ⟨node, hnode, rfl⟩

/-- The times to live stay what they are. -/
theorem Within.update (hs : Within maxTtl s) {n : PeerId} {e : Event} {node : Node}
    (h : Node.step c (s.nodes n) e = some node) (flight : List (List UInt8)) :
    Within maxTtl ⟨Function.update s.nodes n node, flight⟩ := by
  intro m
  simp only
  by_cases hm : m = n
  · subst hm
    rw [Function.update_self, (Node.adds_step h).maxTtl]
    exact hs m
  · rw [Function.update_of_ne hm]
    exact hs m

/-- What an event handles and what is in flight after it weigh no more than what was in
flight before it and what enters with it. -/
theorem load_step {e : TrafficEvent} (h : step c s e = some t) (hs : Within maxTtl s) :
    Within maxTtl t ∧ ((handled s e).toList.map fun _ => 1).sum + load maxTtl t.flight ≤
      load maxTtl s.flight + ((entering c s e).toList.map (load maxTtl)).sum := by
  cases e with
  | deliver i n env key =>
      simp only [step] at h
      split at h
      next => cases h
      next data hdata =>
        obtain ⟨node, hnode, rfl⟩ := stepNode_eq_some h
        refine ⟨hs.update hnode _, ?_⟩
        simp only [Node.step] at hnode
        split at hnode <;> cases hnode
        have hload := load_handleTransportPacket c env data key (hs n)
        have herase : load maxTtl (s.flight.eraseIdx i) + weight maxTtl data =
            load maxTtl s.flight := load_eraseIdx hdata
        simp only [handled, hdata, entering, load_append, launched_handlePacket]
        simp
        omega
  | lose i =>
      simp only [step] at h
      split at h <;> cases h
      next hi =>
        have herase : load maxTtl (s.flight.eraseIdx i) + weight maxTtl s.flight[i] =
            load maxTtl s.flight := load_eraseIdx (List.getElem?_eq_getElem hi)
        refine ⟨hs, ?_⟩
        simp only [handled, entering, Option.toList_none, List.map_nil, List.sum_nil]
        omega
  | copy i =>
      obtain ⟨data, hdata, rfl⟩ := Option.map_eq_some_iff.mp h
      refine ⟨hs, ?_⟩
      simp [handled, entering, hdata]
  | node n e =>
      simp only [step] at h
      split at h
      next => cases h
      next =>
        obtain ⟨node, hnode, rfl⟩ := stepNode_eq_some h
        refine ⟨hs.update hnode _, ?_⟩
        simp [handled, entering, hnode]
  | probe n data =>
      simp only [step] at h
      split at h <;> cases h
      exact ⟨hs, by simp [handled, entering]⟩
  | stranger data =>
      cases h
      exact ⟨hs, by simp [handled, entering]⟩

end Steps

/-! ## Over a run -/

variable {c : Codec} {s t : Traffic} {maxTtl : UInt8} {es : List TrafficEvent}

/-- The datagrams that are handled during a run, and the weight of those in flight after
it, are at most the weight of those in flight before it and of those that entered. -/
theorem handled_le (hs : Within maxTtl s) (hrun : run (step c) s es = some t) :
    (outputs (step c) handled s es).length + load maxTtl t.flight ≤
      load maxTtl (s.flight ++ entered c s es) := by
  have hload := run_potential (I := Within maxTtl) (μ := fun s => load maxTtl s.flight)
    (fun _ _ _ => load_step) hrun hs
  rw [load_append, entered, load_flatten]
  simpa using hload

/-- The chain with an EchoRequest from `a` to `c` in flight. -/
def chainTraffic : Traffic :=
  ⟨Network.chainNetwork, [Network.chainPacket .echoRequest "a" "c" 3 []]⟩

/-- Over `b` to `c`, and back. -/
def chainEcho : List TrafficEvent :=
  [.deliver 0 ⟨"b"⟩ (Env.atMillis 1) (Network.chainKey 1),
    .deliver 0 ⟨"c"⟩ (Env.atMillis 1) (Network.chainKey 2),
    .deliver 0 ⟨"b"⟩ (Env.atMillis 1) (Network.chainKey 3),
    .deliver 0 ⟨"a"⟩ (Env.atMillis 1) (Network.chainKey 2)]

theorem within_chainTraffic : Within 3 chainTraffic := by
  intro n
  have hfold (l : ProtocolLayer) (neighbours : List (PeerId × UInt8)) :
      (neighbours.foldl Network.meet l).maxTtl = l.maxTtl := by
    induction neighbours generalizing l with
    | nil => rfl
    | cons e rest ih => exact ih _
  exact UInt8.le_of_eq (hfold _ _)

/-- Four datagrams are handled, and three and three could have been. -/
theorem handled_le_echo :
    ∃ t, run (step Network.chainCodec) chainTraffic chainEcho = some t ∧
      (outputs (step Network.chainCodec) handled chainTraffic chainEcho).length = 4 ∧
      4 + load 3 t.flight ≤ 6 := by
  obtain ⟨t, ht, -⟩ : ∃ t, run (step Network.chainCodec) chainTraffic chainEcho = some t ∧
      t.flight = [] := by
    decide +kernel
  have hhandled :
      (outputs (step Network.chainCodec) handled chainTraffic chainEcho).length = 4 := by
    decide +kernel
  have hload : load 3 (chainTraffic.flight ++
      entered Network.chainCodec chainTraffic chainEcho) = 6 := by
    decide +kernel
  have hle := handled_le within_chainTraffic ht
  rw [hhandled, hload] at hle
  exact ⟨t, ht, hhandled, hle⟩

/-- So datagrams with at most `maxTtl` to live are handled `2 * maxTtl` times each, with all
that they lead to. -/
theorem length_handled_le (hs : Within maxTtl s) (hrun : run (step c) s es = some t)
    (httl : ∀ data ∈ s.flight ++ entered c s es, ∀ packet, Packet.parse data = .ok packet →
      packet.ttl ≤ maxTtl) :
    (outputs (step c) handled s es).length ≤
      2 * lives maxTtl * (s.flight ++ entered c s es).length := by
  have hload := handled_le hs hrun
  have hsum := load_le_mul_length fun data hdata => weight_le (httl data hdata)
  omega

end Traffic

end RustP2p
