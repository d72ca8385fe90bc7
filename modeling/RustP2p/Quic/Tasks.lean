import RustP2p.Quic.Protocol
import Mathlib.Data.List.Perm.Basic

/-!
# Timers and calls

Everything that runs besides the packet dispatcher and the bootstrap calls: the
maintenance, heartbeat and observation loops, the STUN loop, the probe tasks,
the core sender, and the calls of the interface.

A loop works on a snapshot and waits for the network at each item, so another
task can run between two items.  Its state is what is left of the snapshot, and
one step treats one item (`Task.run`).

None of them confirms a route: `same_run`.
-/

namespace RustP2p

namespace ProtocolLayer

/-! ## The bodies of the loops -/

/-- The candidates `start_maintenance_loop` probes. -/
def candidates (l : ProtocolLayer) : List (PeerId × RouteKey) :=
  l.routeCandidates.pairs.filter fun e => e.1 ≠ l.peerId

/-- The probe of one candidate, unless it has a route by now. -/
def probeCandidate (l : ProtocolLayer) (env : Env) (peerId : PeerId) (routeKey : RouteKey) :
    Outcome ProtocolLayer :=
  match l.transport.routeFor peerId with
  | (.ok _, t) => .ok { l with transport := t }
  | (.error _, t) =>
      (({ l with transport := t } : ProtocolLayer).insertPendingHello routeKey).sendProtocolToRoute
        env peerId routeKey .helloRequest []

/-- Peers with usable public addresses. -/
def canExecute (natInfo : NatInfo) : Bool := natInfo.publicIps ≠ [] ∧ natInfo.publicUdpPorts ≠ []

/-- The punch itself: always a request over the overlay, and a direct punch when
the peer's addresses are known. -/
def sendAutoPunch (c : Codec) (l : ProtocolLayer) (env : Env) (now : UInt64) (peerId : PeerId) :
    Outcome ProtocolLayer :=
  let peerNat := l.peerNat.get peerId
  let payload := l.punchPayloadWithRequestId peerId env.requestId
  let l := (l.insertLastPunchTime peerId now).insertPendingPunch payload.requestId peerId
  (l.sendProtocol env peerId .punchRequest (encodePunchPayload c payload)).ignoring fun l =>
    match peerNat with
    | some natInfo => if canExecute natInfo then executePunch c l env peerId natInfo else .ok l
    | none => .ok l

/-- Lookup found a direct route. -/
def foundDirect : IoResult Route → Bool
  | .ok route => route.isDirect
  | .error _ => false

/-- The automatic punch of one known peer.  `now` was read before the loop. -/
def autoPunch (c : Codec) (l : ProtocolLayer) (env : Env) (now : UInt64) (peerId : PeerId) :
    Outcome ProtocolLayer :=
  if peerId = l.peerId ∨ ¬ l.punchAllowed peerId then .ok l
  else
    let (route, t) := l.transport.routeFor peerId
    let l := { l with transport := t }
    if foundDirect route ∨ l.punchedWithin now peerId 10 then .ok l
    else sendAutoPunch c l env now peerId

/-- The peers and keys of one heartbeat. -/
def directPeers (l : ProtocolLayer) : List (PeerId × RouteKey) :=
  (l.transport.knownPeers.filter fun p => p.peerId ≠ l.peerId).filterMap fun p =>
    ((l.transport.routesOf p.peerId).find? Route.isDirect).map fun r => (p.peerId, r.routeKey)

/-- One peer of the observation loop of `start_nat_maintenance`. -/
def requestObservation (l : ProtocolLayer) (env : Env) (peerId : PeerId) :
    Outcome ProtocolLayer :=
  if l.shouldObserveWith peerId ∧ l.hasDirectRoute peerId then
    let l := match l.transport.routeFor peerId with
      | (.ok route, t) =>
          ({ l with transport := t } : ProtocolLayer).insertPendingNatObserve peerId route.routeKey
      | (.error _, t) => { l with transport := t }
    l.sendProtocol env peerId .natObserveRequest []
  else .ok l

/-- The maps the code iterates over, in another order. -/
def rehash (l : ProtocolLayer) (peers : DashMap PeerId PeerInfo)
    (routeCandidates : DashMap PeerId RouteKey) (routeTable : DashMap PeerId PeerRoutes) :
    Option ProtocolLayer :=
  if l.transport.peers.entries.Perm peers.entries ∧
      l.routeCandidates.entries.Perm routeCandidates.entries ∧
      l.transport.routes.routeTable.entries.Perm routeTable.entries then
    some { l with
      transport := { l.transport with
        peers := peers
        routes := { l.transport.routes with routeTable := routeTable } }
      routeCandidates := routeCandidates }
  else none

end ProtocolLayer

/-! ## The tasks -/

/-- Where the maintenance loop stands. -/
inductive Maintenance where
  | waiting
  | querying (peers : List PeerInfo)
  | probing (candidates : List (PeerId × RouteKey))
  | punching (now : UInt64) (peers : List PeerInfo)
  | stopped

/-- What is left of the snapshots of the three loops. -/
structure Loops where
  maintenance : Maintenance
  heartbeat : List (PeerId × RouteKey)
  observation : List PeerInfo

/-- A step of one of the tasks, or a call of the interface. -/
inductive Task where
  | maintain
  | heartbeat
  | observe
  | stun (result : StunResult)
  | probe (index : Nat)
  | coreSend
  | allowPunch (peerId : PeerId)
  | denyPunch (peerId : PeerId)
  | setPunchWhitelist (peers : Option (List PeerId))
  | punch (peerId : PeerId)
  | lookup (peerId : PeerId)
  | sendQuic (peerId : PeerId) (payload : List UInt8)
  | sendQuicVia (peerId : PeerId) (routeKey : RouteKey) (payload : List UInt8)
  | close
  | rehash (peers : DashMap PeerId PeerInfo) (routeCandidates : DashMap PeerId RouteKey)
      (routeTable : DashMap PeerId PeerRoutes)

namespace Task

open ProtocolLayer

/-- One step of the maintenance loop. -/
def runMaintenance (c : Codec) (env : Env) (l : ProtocolLayer) :
    Maintenance → Option (Outcome ProtocolLayer × Maintenance)
  | .waiting =>
      if l.closed then some (.ok l, .stopped)
      else some (.ok l, .querying l.transport.knownPeers)
  | .querying [] => some (.ok l, .probing l.candidates)
  | .querying (peer :: rest) =>
      if peer.peerId = l.peerId then some (.ok l, .querying rest)
      else some (l.queryRoutes env peer.peerId, .querying rest)
  | .probing [] => some (.ok l, .punching env.nowSecs l.transport.knownPeers)
  | .probing ((peerId, routeKey) :: rest) =>
      some (l.probeCandidate env peerId routeKey, .probing rest)
  | .punching _ [] => some (.ok l, .waiting)
  | .punching now (peer :: rest) =>
      some (autoPunch c l env now peer.peerId, .punching now rest)
  | .stopped => none

/-- One step of a task, with the loops after it. -/
def run (c : Codec) (env : Env) (l : ProtocolLayer) (loops : Loops) :
    Task → Option (Outcome ProtocolLayer × Loops)
  | maintain => (runMaintenance c env l loops.maintenance).map fun (o, m) =>
      (o, { loops with maintenance := m })
  | heartbeat =>
      match loops.heartbeat with
      | [] => if l.closed then none else some (.ok l, { loops with heartbeat := l.directPeers })
      | (peerId, routeKey) :: rest =>
          some (l.sendEcho env peerId routeKey, { loops with heartbeat := rest })
  | observe =>
      match loops.observation with
      | [] =>
          if l.closed then none
          else some (.ok l, { loops with observation := l.transport.knownPeers })
      | peer :: rest =>
          some (l.requestObservation env peer.peerId, { loops with observation := rest })
  | stun result => some (.ok (l.applyStunResult result), loops)
  | probe index =>
      match l.probeTasks[index]? with
      | some (peerId, routeKey) =>
          some (({ l with probeTasks := l.probeTasks.eraseIdx index } : ProtocolLayer).sendEcho env
            peerId routeKey, loops)
      | none => none
  | coreSend => (l.transport.coreSend env).map fun o =>
      (o.map fun t => { l with transport := t }, loops)
  | allowPunch peerId => some (.ok (l.allowPunch peerId), loops)
  | denyPunch peerId => some (.ok (l.denyPunch peerId), loops)
  | setPunchWhitelist peers => some (.ok (l.setPunchWhitelist peers), loops)
  | punch peerId => some (ProtocolLayer.punch c l env peerId, loops)
  | lookup peerId => some (.ok (l.routeMetricFor peerId).2, loops)
  | sendQuic peerId payload => some (l.trySendQuicPayload peerId payload, loops)
  | sendQuicVia peerId routeKey payload =>
      some (l.trySendQuicPayloadVia peerId routeKey payload, loops)
  | close => some (.ok l.close, loops)
  | rehash peers routeCandidates routeTable =>
      (l.rehash peers routeCandidates routeTable).map fun l => (.ok l, loops)

end Task

/-! ## No task writes to the stores -/

namespace ProtocolLayer

variable {l l' : ProtocolLayer}

theorem same_routeFor (l : ProtocolLayer) (p : PeerId) :
    SameStores l { l with transport := (l.transport.routeFor p).2 } :=
  same_transport (l.transport.sameStores_routeFor p)

theorem same_probeCandidate (l : ProtocolLayer) (env : Env) (p : PeerId) (k : RouteKey) :
    SameStores l (l.probeCandidate env p k).state := by
  have hlookup := same_routeFor l p
  simp only [probeCandidate]
  split
  next heq =>
    rw [heq] at hlookup
    exact hlookup
  next heq =>
    rw [heq] at hlookup
    rw [sendProtocolToRoute_state]
    exact hlookup.trans (same_insertPendingHello _ k)

theorem same_sendAutoPunch (c : Codec) (l : ProtocolLayer) (env : Env) (now : UInt64)
    (p : PeerId) : SameStores l (sendAutoPunch c l env now p).state := by
  have hsent := ((same_insertLastPunchTime l p now).trans
    (same_insertPendingPunch _ env.requestId p)).trans (same_sendProtocol _ env p .punchRequest
      (encodePunchPayload c (l.punchPayloadWithRequestId p env.requestId)))
  refine hsent.trans ?_
  simp only [sendAutoPunch]
  simp only [Outcome.ignoring_state]
  split
  next natInfo _ =>
    split
    next => exact same_executePunch c _ env p natInfo
    next => exact SameStores.refl _
  next => exact SameStores.refl _

theorem same_autoPunch (c : Codec) (l : ProtocolLayer) (env : Env) (now : UInt64) (p : PeerId) :
    SameStores l (autoPunch c l env now p).state := by
  unfold autoPunch
  split
  next => exact SameStores.refl l
  next =>
    simp only
    split
    next => exact same_routeFor l p
    next => exact (same_routeFor l p).trans (same_sendAutoPunch c _ env now p)

theorem same_requestObservation (l : ProtocolLayer) (env : Env) (p : PeerId) :
    SameStores l (l.requestObservation env p).state := by
  have hlookup := same_routeFor l p
  simp only [requestObservation]
  split
  next =>
    refine SameStores.trans ?_ (same_sendProtocol _ env p .natObserveRequest _)
    split
    next heq =>
      rw [heq] at hlookup
      exact hlookup.trans (same_insertPendingNatObserve _ p _)
    next heq =>
      rw [heq] at hlookup
      exact hlookup
  next => exact SameStores.refl l

theorem same_rehash {peers : DashMap PeerId PeerInfo} {candidates : DashMap PeerId RouteKey}
    {routeTable : DashMap PeerId PeerRoutes}
    (h : l.rehash peers candidates routeTable = some l') : SameStores l l' := by
  simp only [rehash] at h
  split at h
  next hperm =>
    cases h
    obtain ⟨hpeers, hcandidates, htable⟩ := hperm
    have hentry (p : PeerId) : routeTable.get p = l.transport.routes.routeTable.get p :=
      (DashMap.get_perm htable p).symm
    refine ⟨rfl, rfl, ⟨rfl, rfl, ?_, ?_, ?_⟩, ?_⟩
    · intro p
      exact (DashMap.get_perm hpeers p).symm
    · intro p
      simp only [RouteTable.exists_, hentry]
    · intro p k m
      simp only [Transport.HasRoute, RouteTable.has_iff_listed, RouteTable.timedRoutes, hentry]
    · intro p
      exact (DashMap.get_perm hcandidates p).symm
  next => cases h

end ProtocolLayer

namespace Task

open ProtocolLayer

theorem same_runMaintenance {c : Codec} {env : Env} {l : ProtocolLayer} {m m' : Maintenance}
    {o : Outcome ProtocolLayer} (h : runMaintenance c env l m = some (o, m')) :
    SameStores l o.state := by
  simp only [runMaintenance] at h
  split at h
  next => split at h <;> (cases h; exact SameStores.refl l)
  next => cases h; exact SameStores.refl l
  next =>
    split at h
    next => cases h; exact SameStores.refl l
    next => cases h; exact same_sendProtocol l env _ .idRouteQuery []
  next => cases h; exact SameStores.refl l
  next => cases h; exact same_probeCandidate l env _ _
  next => cases h; exact SameStores.refl l
  next => cases h; exact same_autoPunch c l env _ _
  next => cases h

/-- A step of any task leaves the stores alone. -/
theorem same_run {c : Codec} {env : Env} {l : ProtocolLayer} {loops loops' : Loops} {task : Task}
    {o : Outcome ProtocolLayer} (h : run c env l loops task = some (o, loops')) :
    SameStores l o.state := by
  cases task with
  | maintain =>
      obtain ⟨⟨o', m⟩, hrun, heq⟩ := Option.map_eq_some_iff.mp h
      cases heq
      exact same_runMaintenance hrun
  | heartbeat =>
      simp only [run] at h
      split at h
      next => split at h <;> cases h; exact SameStores.refl l
      next => cases h; exact same_sendEcho l env _ _
  | observe =>
      simp only [run] at h
      split at h
      next => split at h <;> cases h; exact SameStores.refl l
      next => cases h; exact same_requestObservation l env _
  | stun result => cases h; exact same_applyStunResult l result
  | probe index =>
      simp only [run] at h
      split at h
      next =>
        cases h
        refine SameStores.trans ?_ (same_sendEcho _ env _ _)
        exact SameStores.of_fields rfl rfl rfl rfl
      next => cases h
  | coreSend =>
      obtain ⟨o', hsend, heq⟩ := Option.map_eq_some_iff.mp h
      cases heq
      exact same_transport (Transport.sameStores_coreSend hsend)
  | allowPunch peerId => cases h; exact SameStores.of_fields rfl rfl rfl rfl
  | denyPunch peerId => cases h; exact SameStores.of_fields rfl rfl rfl rfl
  | setPunchWhitelist peers => cases h; exact SameStores.of_fields rfl rfl rfl rfl
  | punch peerId => cases h; exact same_punch c l env peerId
  | lookup peerId => cases h; exact same_routeMetricFor l peerId
  | sendQuic peerId payload => cases h; exact same_trySendQuicPayload l peerId payload
  | sendQuicVia peerId routeKey payload =>
      cases h
      exact same_trySendQuicPayloadVia l peerId routeKey payload
  | close => cases h; exact SameStores.of_fields rfl rfl rfl rfl
  | rehash peers candidates routeTable =>
      obtain ⟨l', hrehash, heq⟩ := Option.map_eq_some_iff.mp h
      cases heq
      exact same_rehash hrehash

end Task

end RustP2p
