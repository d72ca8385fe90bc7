import RustP2p.Quic.HelloChannel

/-!
# What `add_bootstrap` promises

A call sends a HelloRequest to an address, registers a pending key for it, and
returns the peer of the first item it receives that has the address.  The caller
then expects a direct route to this peer.  Nothing in the item says that there
is one.

* The item may be older than the request, when an earlier reply from the address
  is still in the channel.
* The reply may have come over a relay or on a key that was not pending.  The
  key the call registers has the local address of the IPv4 socket, so a reply
  from an IPv6 address is never on it.

`bootstrap_postcondition` rules these two cases out and gives the promise: the
reply was handled after the request, and its route is there.  The invariant is
`Backed`: what is in flight from the address stands for a reply since then and
for a direct route.
-/

namespace RustP2p

open ProtocolLayer

namespace Node

variable {c : Codec} {n n' : Node} {e : Event} {es : List Event} {i : Nat} {addr : SocketAddr}
  {p : PeerId}

/-! ## The life of a call -/

/-- A step leaves the calls alone, adds one, or moves one. -/
theorem calls_step (h : step c n e = some n') :
    n'.calls = n.calls ∨ (∃ addr, n'.calls = n.calls ++ [⟨addr, 0, .sending⟩]) ∨
      ∃ index s call call' effects, e = .call index s ∧ n.calls[index]? = some call ∧
        n'.calls = n.calls.set index call' ∧
        CallMove n.layer n.helloQueue call s call' n'.layer n'.helloQueue effects := by
  cases Move.of_step h with
  | @packet env data key idle => exact Or.inl (handlePacket_item c n env data key).2.2
  | helloSent => exact Or.inl rfl
  | quicSent => exact Or.inl rfl
  | transportClosed => exact Or.inl rfl
  | quicReceived => exact Or.inl rfl
  | @bootstrap addr => exact Or.inr (Or.inl ⟨addr, rfl⟩)
  | call running move =>
      exact Or.inr (Or.inr ⟨_, _, _, _, _, rfl, running, rfl, move⟩)
  | task => exact Or.inl rfl

/-- What becomes of a call: it is as it was, or it moves. -/
theorem call_step {call : Call} (h : step c n e = some n') (hcall : n.calls[i]? = some call) :
    n'.calls[i]? = some call ∨ ∃ s call' effects, e = .call i s ∧ n'.calls[i]? = some call' ∧
      CallMove n.layer n.helloQueue call s call' n'.layer n'.helloQueue effects := by
  have hlt := (List.getElem?_eq_some_iff.mp hcall).1
  rcases calls_step h with
    hsame | ⟨addr, hnew⟩ | ⟨index, s, old, call', effects, he, hold, hset, hmove⟩
  · rw [hsame]
    exact Or.inl hcall
  · rw [hnew, List.getElem?_append_left hlt]
    exact Or.inl hcall
  · by_cases hi : index = i
    · subst hi
      rw [hset, List.getElem?_set_self hlt]
      cases hold.symm.trans hcall
      exact Or.inr ⟨s, call', effects, he, rfl, hmove⟩
    · rw [hset, List.getElem?_set_ne hi]
      exact Or.inl hcall

/-- A call begins before its first request. -/
theorem call_new {call' : Call} (h : step c n e = some n') (hnone : n.calls[i]? = none)
    (hcall : n'.calls[i]? = some call') : call'.phase = .sending := by
  have hle := List.getElem?_eq_none_iff.mp hnone
  rcases calls_step h with hsame | ⟨addr, hnew⟩ | ⟨index, s, old, _, effects, he, hold, hset, hmove⟩
  · rw [hsame, hnone] at hcall
    cases hcall
  · rw [hnew, List.getElem?_append_right hle] at hcall
    rw [List.mem_singleton.mp (List.mem_of_getElem? hcall)]
  · rw [hset, List.getElem?_eq_none (by simpa using hle)] at hcall
    cases hcall

/-- A move keeps the address. -/
theorem CallMove.addr_eq {l l' : ProtocolLayer} {queue queue' : List HelloItem} {call call' : Call}
    {effects : List Effect} {s : CallStep} (h : CallMove l queue call s call' l' queue' effects) :
    call'.addr = call.addr := by
  cases h <;> rfl

/-- So a run keeps the call and its address. -/
theorem call_run {call : Call} (hrun : Transition.run (step c) n es = some n')
    (hcall : n.calls[i]? = some call) :
    ∃ call', n'.calls[i]? = some call' ∧ call'.addr = call.addr := by
  refine Transition.run_invariant (I := fun n => ∃ call', n.calls[i]? = some call' ∧
    call'.addr = call.addr) ?_ hrun ⟨call, hcall, rfl⟩
  intro m e m' hstep h
  obtain ⟨call', hcall', haddr⟩ := h
  rcases call_step hstep hcall' with hsame | ⟨s, next, effects, -, hnext, hmove⟩
  · exact ⟨call', hsame, haddr⟩
  · exact ⟨next, hnext, hmove.addr_eq.trans haddr⟩

/-- A call returns a peer when it receives an item with its address. -/
theorem CallMove.returned {l l' : ProtocolLayer} {queue queue' : List HelloItem}
    {call call' : Call} {effects : List Effect} {s : CallStep}
    (h : CallMove l queue call s call' l' queue' effects)
    (hphase : call'.phase = .returned (.ok p)) :
    call.phase = .waiting ∧ (call.addr, p) ∈ queue := by
  cases h with
  | received phase head mine =>
      cases hphase
      rw [head, ← mine]
      exact ⟨phase, .head _⟩
  | discarded phase => rw [phase] at hphase; cases hphase
  | _ => cases hphase

/-- The call has sent a HelloRequest in its present attempt. -/
def requested (call : Call) : Bool :=
  match call.phase with
  | .registering => true
  | .waiting => true
  | .returned (.ok _) => true
  | _ => false

/-- Only sending a request brings a call there. -/
theorem CallMove.requested {l l' : ProtocolLayer} {queue queue' : List HelloItem}
    {call call' : Call} {effects : List Effect} {s : CallStep}
    (h : CallMove l queue call s call' l' queue' effects) (hsent : Node.requested call' = true) :
    Node.requested call = true ∨ (∃ env, s = .hello env) ∧ call'.phase = .registering := by
  cases h with
  | sent => exact Or.inr ⟨⟨_, rfl⟩, rfl⟩
  | register phase => exact Or.inl (by simp [Node.requested, phase])
  | received phase => exact Or.inl (by simp [Node.requested, phase])
  | discarded => exact Or.inl hsent
  | _ => cases hsent

/-! ## Requests and replies -/

/-- The step sends a HelloRequest of the call. -/
def SendsRequest (c : Codec) (i : Nat) (n : Node) (e : Event) : Prop :=
  ∃ env n' call, e = .call i (.hello env) ∧ step c n e = some n' ∧ n'.calls[i]? = some call ∧
    call.phase = .registering

/-- The peer has a direct UDP route at the address. -/
def DirectAt (n : Node) (addr : SocketAddr) (p : PeerId) : Prop :=
  ∃ k : RouteKey, k.protocol = .udp ∧ k.peerAddr = addr ∧ n.layer.HasRoute p k 0

/-- The event is a packet that came directly, over UDP, on a pending key. -/
def pendingDirect (n : Node) : Event → Bool
  | .packet _ data k =>
      match n.layer.screen data with
      | .ok (some packet) =>
          packet.metric = 0 ∧ k.protocol = .udp ∧ (n.layer.pendingHelloRoutes.get k).isSome
      | _ => false
  | _ => false

/-- If the event is a HelloReply from the address, it came directly on a pending
UDP key, or the peer it names has its direct route already. -/
def ReplyConfirms (c : Codec) (addr : SocketAddr) (n : Node) (e : Event) : Prop :=
  ∀ p, replied c n e = some (addr, p) → n.pendingDirect e = true ∨ n.DirectAt addr p

/-- A run in which a HelloReply of the peer from the address was handled. -/
def RepliedIn (c : Codec) (n₀ : Node) (es : List Event) (addr : SocketAddr) (p : PeerId) : Prop :=
  ∃ pre e post m, es = pre ++ e :: post ∧ Transition.run (step c) n₀ pre = some m ∧
    replied c m e = some (addr, p)

theorem RepliedIn.append {n₀ : Node} (h : RepliedIn c n₀ es addr p) (fs : List Event) :
    RepliedIn c n₀ (es ++ fs) addr p := by
  obtain ⟨pre, e, post, m, rfl, hm, hreplied⟩ := h
  exact ⟨pre, e, post ++ fs, m, by simp, hm, hreplied⟩

theorem DirectAt.step (h : n.DirectAt addr p) (hstep : step c n e = some n') :
    n'.DirectAt addr p := by
  obtain ⟨k, hudp, haddr, hroute⟩ := h
  exact ⟨k, hudp, haddr, (adds_step hstep).kept hroute⟩

/-- A reply that came directly on a pending key leaves its peer with the route. -/
theorem directAt_of_pendingDirect (hstep : step c n e = some n')
    (hreplied : replied c n e = some (addr, p)) (hpending : n.pendingDirect e = true) :
    n'.DirectAt addr p := by
  cases e with
  | packet env data k =>
      obtain ⟨packet, hello, hscreen, hlocal, htype, hdecode, heq⟩ := helloItem_eq_some.mp hreplied
      cases heq
      simp only [pendingDirect, hscreen, decide_eq_true_eq] at hpending
      obtain ⟨hdirect, hudp, hkey⟩ := hpending
      cases Move.of_step hstep
      refine ⟨k, hudp, rfl, ?_⟩
      rw [handlePacket_layer, handleTransportPacket_of_screen hscreen,
        handlePacket_local hlocal htype]
      simp only [dispatch, onHelloReply, hdecode, Handling.layer, confirmHello,
        learnHello_pendingHelloRoutes, arrive_pendingHelloRoutes, hdirect, hkey, and_self, if_true]
      exact hasRoute_confirmDirectAndPromote _ env hello.peer k
  | _ => cases hreplied

/-! ## The promise -/

/-- The peer replied from the address in the run, and it has the direct route. -/
structure Answered (c : Codec) (n₀ : Node) (es : List Event) (addr : SocketAddr) (n : Node)
    (p : PeerId) : Prop where
  replied : RepliedIn c n₀ es addr p
  direct : n.DirectAt addr p

theorem Answered.step {n₀ : Node} (h : Answered c n₀ es addr n p)
    (hstep : step c n e = some n') : Answered c n₀ (es ++ [e]) addr n' p :=
  ⟨h.replied.append [e], h.direct.step hstep⟩

/-- The invariant from the request on: the items in flight from the address, and
the peer the call returned, are answered. -/
structure Backed (c : Codec) (n₀ : Node) (i : Nat) (addr : SocketAddr) (es : List Event)
    (n : Node) : Prop where
  run : Transition.run (Node.step c) n₀ es = some n
  inFlight : ∀ p, (addr, p) ∈ n.inFlight → Answered c n₀ es addr n p
  call : ∃ call, n.calls[i]? = some call ∧ call.addr = addr ∧
    ∀ p, call.phase = .returned (.ok p) → Answered c n₀ es addr n p

/-- What comes into flight was just handled, and `ReplyConfirms` gives its route. -/
theorem Backed.step {n₀ : Node} (h : Backed c n₀ i addr es n) (hconfirms : ReplyConfirms c addr n e)
    (hstep : Node.step c n e = some n') : Backed c n₀ i addr (es ++ [e]) n' := by
  have hqueue := inFlight_step hstep
  refine ⟨Transition.run_snoc h.run hstep, ?_, ?_⟩
  · intro p hp
    have hmem : (addr, p) ∈ n.inFlight ++ (Node.replied c n e).toList := by
      rw [hqueue]
      exact List.mem_append_right _ hp
    rcases List.mem_append.mp hmem with hold | hnew
    · exact (h.inFlight p hold).step hstep
    · have hreplied : Node.replied c n e = some (addr, p) := Option.mem_toList.mp hnew
      refine ⟨⟨es, e, [], n, rfl, h.run, hreplied⟩, ?_⟩
      rcases hconfirms p hreplied with hpending | hdirect
      · exact directAt_of_pendingDirect hstep hreplied hpending
      · exact hdirect.step hstep
  · obtain ⟨call, hcall, rfl, hreturned⟩ := h.call
    rcases call_step hstep hcall with hsame | ⟨s, call', effects, -, hcall', hmove⟩
    · exact ⟨call, hsame, rfl, fun p hp => (hreturned p hp).step hstep⟩
    · refine ⟨call', hcall', hmove.addr_eq, fun p hp => ?_⟩
      have hmem := (hmove.returned hp).2
      exact (h.inFlight p (List.mem_append_left _ hmem)).step hstep

/-- A call that has sent its request did so at some step of the run. -/
theorem exists_sendsRequest (s : Startup) (hrun : Transition.run (step c) s.node es = some n)
    {call : Call} (hcall : n.calls[i]? = some call) (hsent : requested call = true) :
    ∃ pre e post m, es = pre ++ e :: post ∧ Transition.run (step c) s.node pre = some m ∧
      SendsRequest c i m e := by
  refine Transition.run_history (P := fun es n => ∀ call, n.calls[i]? = some call →
    requested call = true → ∃ pre e post m, es = pre ++ e :: post ∧
      Transition.run (step c) s.node pre = some m ∧ SendsRequest c i m e)
    ?_ ?_ hrun call hcall hsent
  · intro call hcall
    cases hcall
  · intro es m e n hm ih hstep call' hcall' hsent
    -- Either the call had sent before this step, or this step sends.
    suffices hcases : (∃ call, m.calls[i]? = some call ∧ requested call = true) ∨
        SendsRequest c i m e by
      rcases hcases with ⟨call, hcall, hold⟩ | hsends
      · obtain ⟨pre, e', post, m', rfl, hm', hsends⟩ := ih call hcall hold
        exact ⟨pre, e', post ++ [e], m', by simp, hm', hsends⟩
      · exact ⟨es, e, [], m, rfl, hm, hsends⟩
    cases hcall : m.calls[i]? with
    | none =>
        have hphase := call_new hstep hcall hcall'
        simp [requested, hphase] at hsent
    | some call =>
        rcases call_step hstep hcall with hsame | ⟨s, _, effects, rfl, hget, hmove⟩
        · obtain rfl : call = call' := Option.some.inj (hsame.symm.trans hcall')
          exact Or.inl ⟨call, rfl, hsent⟩
        · cases hget.symm.trans hcall'
          rcases hmove.requested hsent with hold | ⟨⟨env, rfl⟩, hphase⟩
          · exact Or.inl ⟨call, rfl, hold⟩
          · exact Or.inr ⟨env, n, call', rfl, hstep, hcall', hphase⟩

/-- A call that returned a peer sent a request.  If nothing from its address was
in flight at a request, and every reply from the address since then confirmed
its route or found it there, then the peer replied since then, and it has a
direct UDP route at the address. -/
theorem bootstrap_postcondition (c : Codec) (s : Startup) {es : List Event} {n : Node} {i : Nat}
    {call : Call} {p : PeerId} (hrun : Transition.run (step c) s.node es = some n)
    (hcall : n.calls[i]? = some call) (hreturned : call.phase = .returned (.ok p)) :
    (∃ pre e post m, es = pre ++ e :: post ∧ Transition.run (step c) s.node pre = some m ∧
      SendsRequest c i m e) ∧
    ∀ pre e post m m', es = pre ++ e :: post → Transition.run (step c) s.node pre = some m →
      SendsRequest c i m e → step c m e = some m' → (∀ q, (call.addr, q) ∉ m.inFlight) →
      Transition.Along (step c) (ReplyConfirms c call.addr) m' post →
      RepliedIn c m' post call.addr p ∧ n.DirectAt call.addr p := by
  refine ⟨exists_sendsRequest s hrun hcall (by simp [requested, hreturned]), ?_⟩
  rintro pre e post m m' rfl hpre ⟨env, n', start, rfl, hsend, hstart, hphase⟩ hstep hfresh
    hconfirms
  cases hsend.symm.trans hstep
  rw [Transition.run_append, hpre, Option.bind_some, Transition.run_cons, hstep,
    Option.bind_some] at hrun
  obtain ⟨call', hcall', haddr⟩ := call_run hrun hstart
  cases hcall'.symm.trans hcall
  have hbase : Backed c m' i call.addr [] m' := by
    refine ⟨rfl, ?_, start, hstart, haddr.symm, ?_⟩
    · intro q hq
      have hqueue : m.inFlight = m'.inFlight := by
        simpa [replied, taken, takenBy] using inFlight_step hstep
      exact absurd (hqueue ▸ hq) (hfresh q)
    · intro q hq
      rw [hphase] at hq
      cases hq
  have hbacked : Backed c m' i call.addr post n :=
    Transition.run_history_along (P := Backed c m' i call.addr) hbase
      (fun _ _ _ _ _ hconfirms hbacked hstep => hbacked.step hconfirms hstep) hrun hconfirms
  obtain ⟨last, hlast, -, hanswered⟩ := hbacked.call
  cases hlast.symm.trans hcall
  exact ⟨(hanswered p hreturned).replied, (hanswered p hreturned).direct⟩

/-- The rest of a bootstrap once its request is sent: the reply comes on the key,
and the call receives it. -/
def replyRun (key : RouteKey) : List Event :=
  .call 0 .register :: helloRound key ++ [.call 0 .receive]

/-- A bootstrap of the peer address of the key, from its start to its return. -/
def bootstrapRun (key : RouteKey) : List Event :=
  [.bootstrap key.peerAddr] ++ .call 0 (.hello (Env.atMillis 1)) :: replyRun key

/-- On IPv4 the reply arrives on the pending key. -/
theorem bootstrap_postcondition_ipv4 :
    ∃ m n, Transition.run (step helloCodec) Startup.nodeA.node
        [.bootstrap helloKey.peerAddr, .call 0 (.hello (Env.atMillis 1))] = some m ∧
      Transition.run (step helloCodec) Startup.nodeA.node (bootstrapRun helloKey) = some n ∧
      RepliedIn helloCodec m (replyRun helloKey) helloKey.peerAddr ⟨"b"⟩ ∧
      n.DirectAt helloKey.peerAddr ⟨"b"⟩ := by
  obtain ⟨n, hrun, hcall⟩ :
      ∃ n, Transition.run (step helloCodec) Startup.nodeA.node (bootstrapRun helloKey) = some n ∧
        n.calls[0]? = some ⟨helloKey.peerAddr, 0, .returned (.ok ⟨"b"⟩)⟩ := by
    decide +kernel
  obtain ⟨m', hm', hregistering, halong⟩ :
      ∃ m, Transition.run (step helloCodec) Startup.nodeA.node
          [.bootstrap helloKey.peerAddr, .call 0 (.hello (Env.atMillis 1))] = some m ∧
        m.calls[0]? = some ⟨helloKey.peerAddr, 0, .registering⟩ ∧
        Transition.Along (step helloCodec)
          (fun n e => replied helloCodec n e = none ∨ n.pendingDirect e = true) m
          (replyRun helloKey) := by
    decide +kernel
  refine ⟨m', n, hm', hrun, ?_⟩
  have hlast : Transition.run (step helloCodec) Startup.nodeA.node
      ([.bootstrap helloKey.peerAddr] ++ [.call 0 (.hello (Env.atMillis 1))]) = some m' := hm'
  obtain ⟨m, hm, hstep⟩ := Transition.run_concat hlast
  refine (bootstrap_postcondition helloCodec .nodeA hrun hcall rfl).2
    [.bootstrap helloKey.peerAddr] _ (replyRun helloKey) m m' rfl hm
    ⟨_, m', _, rfl, hstep, hregistering, rfl⟩ hstep ?_ (halong.mono ?_)
  · cases hm
    intro q hq
    cases hq
  · rintro m e (hnone | hpending) q hq
    · rw [hnone] at hq
      cases hq
    · exact Or.inl hpending

/-- The key of `b` on the IPv6 socket of `a`. -/
def helloKeyV6 : RouteKey :=
  ⟨.udp, .v6 .unspecified 5000 0 0, .v6 ⟨#v[8193, 3512, 0, 0, 0, 0, 0, 2]⟩ 5000 0 0⟩

/-- On IPv6 it does not: the call returns `b`, and `b` has no route. -/
theorem bootstrap_without_route :
    ¬ ∀ (c : Codec) (s : Startup) (es : List Event) (n : Node) (i : Nat) (call : Call) (p : PeerId),
      Transition.run (step c) s.node es = some n → n.calls[i]? = some call →
      call.phase = .returned (.ok p) → n.DirectAt call.addr p := by
  intro h
  obtain ⟨n, hrun, hcall, hnone⟩ :
      ∃ n, Transition.run (step helloCodec) Startup.nodeA.node (bootstrapRun helloKeyV6) = some n ∧
        n.calls[0]? = some ⟨helloKeyV6.peerAddr, 0, .returned (.ok ⟨"b"⟩)⟩ ∧
        n.layer.transport.routes.route ⟨"b"⟩ = [] := by
    decide +kernel
  obtain ⟨k, -, -, route, hroute, -⟩ := h helloCodec .nodeA _ n 0 _ ⟨"b"⟩ hrun hcall rfl
  rw [hnone] at hroute
  cases hroute

end Node

end RustP2p
