import Mathlib.Data.Finset.Insert
import Mathlib.Data.List.Destutter
import Mathlib.Data.List.Sort
import RustP2p.Core.PunchScan

/-!
# One round of punching

`punch_now` tries to reach a peer in all ways its NAT information allows: with UDP
probes (`punch_udp`) to its mapped, local, public and IPv6 addresses, to predicted
ports and to the next ports of the scan, and with TCP connections.  The punch model
says which address families and transports may be used.

What a round does is a list of `PunchEffect`s, and for UDP these are calls on the pool.
The pool may have no IPv6 socket, and then it sends nothing to an IPv6 address:
`FullPuncher.attempts` are the calls that come to a send.  `UdpProbe` and `TcpAttempt` list
where the calls come from (`punchUdp_spec`, `mem_punchTcp`, `punchNow_spec`).  A round is
a round of the global scan (`scan_punchNow`), and `punch` a call on the backoff
(`step_of_punch`).
-/

namespace RustP2p

/-! ## The punch model -/

/-- `PunchPolicy`. -/
inductive PunchPolicy where
  | ipv4Tcp
  | ipv4Udp
  | ipv6Tcp
  | ipv6Udp
deriving DecidableEq, Repr

/-- `PunchPolicySet`. -/
structure PunchPolicySet where
  models : Finset PunchPolicy
deriving DecidableEq

namespace PunchPolicySet

/-- `PunchPolicySet::empty`. -/
def empty : PunchPolicySet := ⟨∅⟩

/-- `PunchPolicySet::or`. -/
def or (s : PunchPolicySet) (punchModel : PunchPolicy) : PunchPolicySet :=
  ⟨insert punchModel s.models⟩

/-- `PunchPolicySet::all`. -/
def all : PunchPolicySet := (((empty.or .ipv4Tcp).or .ipv4Udp).or .ipv6Tcp).or .ipv6Udp

/-- `PunchPolicySet::is_match`. -/
def isMatch (s : PunchPolicySet) (punchModel : PunchPolicy) : Bool := punchModel ∈ s.models

end PunchPolicySet

/-- `PunchModel`. -/
structure PunchModel where
  set : List PunchPolicySet
deriving DecidableEq

namespace PunchModel

/-- `PunchModel::all`. -/
def all : PunchModel := ⟨[PunchPolicySet.all]⟩

/-- `PunchModel::empty`. -/
def empty : PunchModel := ⟨[]⟩

/-- `PunchModel::and`. -/
def and (m : PunchModel) (punchModelBox : PunchPolicySet) : PunchModel := ⟨m.set ++ [punchModelBox]⟩

/-- `PunchModel::is_match`. -/
def isMatch (m : PunchModel) (punchModel : PunchPolicy) : Bool :=
  if m.set.isEmpty then false else m.set.all fun x => x.isMatch punchModel

/-- The model is not empty, and the policy is in all its sets. -/
def Allows (m : PunchModel) (policy : PunchPolicy) : Prop :=
  m.set ≠ [] ∧ ∀ x ∈ m.set, policy ∈ x.models

instance (m : PunchModel) (policy : PunchPolicy) : Decidable (m.Allows policy) :=
  inferInstanceAs (Decidable (_ ∧ _))

theorem isMatch_iff {m : PunchModel} {policy : PunchPolicy} :
    m.isMatch policy = true ↔ m.Allows policy := by
  simp only [isMatch, Allows, PunchPolicySet.isMatch]
  cases m.set with
  | nil => simp
  | cons x set => simp

end PunchModel

/-- `PunchInfo`. -/
structure PunchInfo where
  punchModel : PunchModel
  peerNatInfo : NatInfo

namespace SocketAddr

/-- The policy for UDP to the address. -/
def udpPolicy (addr : SocketAddr) : PunchPolicy := if addr.isIpv4 then .ipv4Udp else .ipv6Udp

/-- The policy for TCP to the address. -/
def tcpPolicy (addr : SocketAddr) : PunchPolicy := if addr.isIpv4 then .ipv4Tcp else .ipv6Tcp

end SocketAddr

/-! ## Attempts -/

/-- What a round hands to the pool and to TCP.  A UDP effect is a call to the pool, whether or
not the pool has a socket for it. -/
inductive PunchEffect where
  /-- `SocketPool::send_to`: by the main socket of the family, an error without one. -/
  | sendTo (buf : List UInt8) (addr : SocketAddr)
  /-- `SocketPool::try_send_via_all`: by all sockets of the family, if there are any. -/
  | trySendViaAll (buf : List UInt8) (addr : SocketAddr)
  /-- `socket::connect_tcp` with a timeout in milliseconds, then `publish_tcp`. -/
  | connectTcp (addr bindAddr : SocketAddr) (ttl : Option UInt8) (timeout : Nat)
      (initialData : Option (List UInt8))
deriving DecidableEq, Repr

namespace PunchEffect

/-- The policy that has to allow the attempt. -/
def policy : PunchEffect → PunchPolicy
  | sendTo _ addr => addr.udpPolicy
  | trySendViaAll _ addr => addr.udpPolicy
  | connectTcp addr .. => addr.tcpPolicy

/-- The call comes to a send or a connection.  A pool has a main IPv4 socket, and maybe one
for IPv6. -/
def attempted (mainUdpV6 : Bool) : PunchEffect → Bool
  | sendTo _ addr => addr.isIpv4 || mainUdpV6
  | trySendViaAll _ addr => addr.isIpv4 || mainUdpV6
  | connectTcp .. => true

/-- The target of a UDP probe. -/
def udpTarget : PunchEffect → Option SocketAddr
  | sendTo _ addr => some addr
  | trySendViaAll _ addr => some addr
  | connectTcp .. => none

end PunchEffect

/-- The targets of the UDP probes among some effects, as they are handed to the pool. -/
def udpTargets (effects : List PunchEffect) : List SocketAddr :=
  effects.filterMap PunchEffect.udpTarget

/-! ## UDP -/

/-- `rand::rng()` during one round: the size of the batch and the shuffle. -/
structure PunchRng where
  maxK2 : Nat
  maxK2_range : 1200 ≤ maxK2 ∧ maxK2 < 1500
  shuffle : List UInt16 → List UInt16
  shuffle_perm : ∀ ports, (shuffle ports).Perm ports

/-- `sort_unstable`, then `dedup`. -/
def sortDedup (ports : List UInt16) : List UInt16 :=
  (ports.mergeSort fun a b => a ≤ b).destutter (· ≠ ·)

/-- `symmetric_prediction_candidates`. -/
def symmetricPredictionCandidates (n : NatInfo) (predictRange : Nat) :
    List UInt16 × List UInt16 :=
  let knownPorts := sortDedup ((n.publicUdpPorts ++ n.stunMappedPorts).filter (· ≠ 0))
  let predictedPorts := knownPorts.flatMap fun basePort =>
    portRange (max (basePort.toNat - predictRange) 1) (min (basePort.toNat + predictRange) 65535)
  (knownPorts, sortDedup predictedPorts)

theorem mem_sortDedup {ports : List UInt16} {port : UInt16} :
    port ∈ sortDedup ports ↔ port ∈ ports := by
  have hsorted : (ports.mergeSort fun a b => a ≤ b).Pairwise (· ≤ ·) :=
    List.pairwise_mergeSort' (· ≤ ·) ports
  rw [sortDedup, hsorted.destutter_eq_dedup, List.mem_dedup, List.mem_mergeSort]

/-- The predicted ports are those in the window around a known one, without `0`. -/
theorem mem_symmetricPredictionCandidates {n : NatInfo} {predictRange : Nat} {port : UInt16} :
    port ∈ (symmetricPredictionCandidates n predictRange).2 ↔
      port ≠ 0 ∧ ∃ base ∈ n.publicUdpPorts ++ n.stunMappedPorts, base ≠ 0 ∧
        base.toNat ≤ port.toNat + predictRange ∧ port.toNat ≤ base.toNat + predictRange := by
  have hzero : port ≠ 0 ↔ 1 ≤ port.toNat := by
    rw [Ne, ← UInt16.toNat_inj, UInt16.toNat_zero]
    omega
  have hlt := port.toNat_lt
  simp only [symmetricPredictionCandidates, mem_sortDedup, List.mem_flatMap, List.mem_filter,
    decide_eq_true_eq]
  constructor
  · rintro ⟨base, ⟨hbase, hne⟩, hport⟩
    rw [mem_portRange (by omega)] at hport
    exact ⟨hzero.mpr (by omega), base, hbase, hne, by omega, by omega⟩
  · rintro ⟨hport, base, hbase, hne, hlow, hhigh⟩
    have hone := hzero.mp hport
    refine ⟨base, ⟨hbase, hne⟩, ?_⟩
    rw [mem_portRange (by omega)]
    omega

/-- The window around a port, in the saturating arithmetic of `u16`. -/
def predictionWindow (basePort predictRange : UInt16) : UInt16 × UInt16 :=
  let minPort := max (if basePort ≤ predictRange then 0 else basePort - predictRange) 1
  let maxPort := if basePort.toNat + predictRange.toNat ≤ 65535 then basePort + predictRange
    else 65535
  (minPort, maxPort)

/-- Neither end of the window wraps around. -/
theorem predictionWindow_toNat (basePort predictRange : UInt16) :
    (predictionWindow basePort predictRange).1.toNat =
        max (basePort.toNat - predictRange.toNat) 1 ∧
      (predictionWindow basePort predictRange).2.toNat =
        min (basePort.toNat + predictRange.toNat) 65535 := by
  have hlow : (if basePort ≤ predictRange then 0 else basePort - predictRange).toNat =
      basePort.toNat - predictRange.toNat := by
    split
    next h =>
      rw [UInt16.le_iff_toNat_le] at h
      rw [UInt16.toNat_zero]
      omega
    next h =>
      rw [UInt16.le_iff_toNat_le] at h
      exact UInt16.toNat_sub_of_le _ _ (UInt16.le_iff_toNat_le.mpr (by omega))
  have hmax : ∀ port : UInt16, (max port 1).toNat = max port.toNat 1 := by
    intro port
    have hdef : max port 1 = if port ≤ 1 then 1 else port := rfl
    simp only [hdef, apply_ite UInt16.toNat, UInt16.le_iff_toNat_le, UInt16.toNat_one, Nat.max_def]
  refine ⟨(hmax _).trans (by rw [hlow]), ?_⟩
  simp only [predictionWindow]
  split
  next h =>
    rw [UInt16.toNat_add, Nat.mod_eq_of_lt (by omega), Nat.min_eq_left h]
  next h => exact (Nat.min_eq_right (Nat.le_of_not_le h)).symm

theorem pairwise_sortDedup (ports : List UInt16) : (sortDedup ports).Pairwise (· < ·) := by
  have hsorted : (ports.mergeSort fun a b => a ≤ b).Pairwise (· ≤ ·) :=
    List.pairwise_mergeSort' (· ≤ ·) ports
  have hle : (sortDedup ports).Pairwise (· ≤ ·) := hsorted.sublist (List.destutter_sublist _ _)
  have hnodup : (sortDedup ports).Nodup := by
    rw [sortDedup, hsorted.destutter_eq_dedup]
    exact List.nodup_dedup _
  exact (hle.and hnodup).imp fun h => UInt16.lt_of_le_of_ne h.1 h.2

/-- The known ports are the non-zero public and STUN-mapped ports, each once and in
increasing order.  The predicted ports are those at most `predictRange` away from a known
one, each once and in increasing order, and they come from windows without wrap-around. -/
theorem symmetric_prediction (n : NatInfo) (predictRange : UInt16) :
    let candidates := symmetricPredictionCandidates n predictRange.toNat
    candidates.1.Pairwise (· < ·) ∧
      (∀ port, port ∈ candidates.1 ↔
        port ≠ 0 ∧ (port ∈ n.publicUdpPorts ∨ port ∈ n.stunMappedPorts)) ∧
      candidates.2.Pairwise (· < ·) ∧
      (∀ port, port ∈ candidates.2 ↔ 1 ≤ port.toNat ∧ port.toNat ≤ 65535 ∧
        ∃ base ∈ candidates.1, ((port.toNat : Int) - base.toNat).natAbs ≤ predictRange.toNat) ∧
      candidates.2 = sortDedup (candidates.1.flatMap fun basePort =>
        portRange (predictionWindow basePort predictRange).1.toNat
          (predictionWindow basePort predictRange).2.toNat) := by
  intro candidates
  have hknown : ∀ port, port ∈ candidates.1 ↔
      port ≠ 0 ∧ (port ∈ n.publicUdpPorts ∨ port ∈ n.stunMappedPorts) := by
    intro port
    simp only [candidates, symmetricPredictionCandidates, mem_sortDedup, List.mem_filter,
      List.mem_append, decide_eq_true_eq, and_comm]
  refine ⟨pairwise_sortDedup _, hknown, pairwise_sortDedup _, ?_, ?_⟩
  · intro port
    have hlt := port.toNat_lt
    rw [mem_symmetricPredictionCandidates, Ne, ← UInt16.toNat_inj, UInt16.toNat_zero]
    constructor
    · rintro ⟨hzero, base, hbase, hne, hlow, hhigh⟩
      exact ⟨by omega, by omega, base, (hknown base).mpr ⟨hne, List.mem_append.mp hbase⟩, by omega⟩
    · rintro ⟨hone, -, base, hbase, hnear⟩
      obtain ⟨hne, hmem⟩ := (hknown base).mp hbase
      exact ⟨by omega, base, List.mem_append.mpr hmem, hne, by omega, by omega⟩
  · simp only [(predictionWindow_toNat _ _).1, (predictionWindow_toNat _ _).2]
    rfl

/-- `max_k1`. -/
def MAX_K1 : Nat := 60

/-- The two phases of `punch_udp` for a peer behind a symmetric NAT. -/
def punchPhases (scan : PortScan) (rng : PunchRng) (n : NatInfo) (h : n.publicIps ≠ []) :
    Option (PortScan × List SocketAddr) :=
  let predictRange := min (max (n.publicPortRange.toNat * 10) 100) (MAX_K1 * 3 - 1)
  let predictedPorts := rng.shuffle (symmetricPredictionCandidates n predictRange).2
  let k := min MAX_K1 predictedPorts.length
  let phase1 := if 0 < k then (punchSymmetric (predictedPorts.take k) n.publicIps k).1 else []
  (scan.globalScan ⟨n.publicIps, rng.maxK2, h, rng.maxK2_range⟩).map fun phase2 =>
    (phase2.1, phase1 ++ phase2.2)

/-- The probes of `punch_udp` to the mapping addresses. -/
def mappingProbes (buf : List UInt8) (n : NatInfo) (m : PunchModel) : List PunchEffect :=
  let allowV4 := m.isMatch .ipv4Udp
  let allowV6 := m.isMatch .ipv6Udp
  (n.mappingUdpAddr.filter fun addr => if addr.isIpv4 then allowV4 else allowV6).map (.sendTo buf)

/-- The probes of `punch_udp` to the addresses on the same LAN. -/
def lanProbes (buf : List UInt8) (n : NatInfo) : List PunchEffect :=
  n.localIpv4Addrs.map (.sendTo buf)

/-- The probes of `punch_udp` to the IPv6 addresses. -/
def ipv6Probes (buf : List UInt8) (n : NatInfo) (m : PunchModel) : List PunchEffect :=
  if m.isMatch .ipv6Udp then n.ipv6UdpAddr.map (.trySendViaAll buf) else []

/-- `punch_udp`, `none` for a panic.  The probes are its calls to the pool. -/
def punchUdp (scan : PortScan) (rng : PunchRng) (buf : List UInt8) (n : NatInfo)
    (m : PunchModel) : Option (PortScan × List PunchEffect) :=
  if m.isMatch .ipv4Udp then
    match n.natType with
    | .symmetric =>
        -- Without a public IP the function returns here.
        if h : n.publicIps = [] then some (scan, mappingProbes buf n m ++ lanProbes buf n)
        else (punchPhases scan rng n h).map fun probed =>
          (probed.1, mappingProbes buf n m ++ lanProbes buf n ++
            probed.2.map (.trySendViaAll buf) ++ ipv6Probes buf n m)
    | .cone =>
        some (scan, mappingProbes buf n m ++ lanProbes buf n ++
          n.publicIpv4Addr.map (.trySendViaAll buf) ++ ipv6Probes buf n m)
  else some (scan, mappingProbes buf n m ++ ipv6Probes buf n m)

/-- `punch_udp` returns before the IPv6 probes. -/
def ReturnsEarly (m : PunchModel) (n : NatInfo) : Prop :=
  m.Allows .ipv4Udp ∧ n.natType = .symmetric ∧ n.publicIps = []

instance (m : PunchModel) (n : NatInfo) : Decidable (ReturnsEarly m n) :=
  inferInstanceAs (Decidable (_ ∧ _))

/-- The peer is scanned. -/
def ScansPorts (m : PunchModel) (n : NatInfo) : Prop :=
  m.Allows .ipv4Udp ∧ n.natType = .symmetric ∧ n.publicIps ≠ []

instance (m : PunchModel) (n : NatInfo) : Decidable (ScansPorts m n) :=
  inferInstanceAs (Decidable (_ ∧ _))

/-- Where the probes of `punch_udp` come from, with the targets of both phases. -/
inductive UdpProbe (buf : List UInt8) (n : NatInfo) (m : PunchModel)
    (scanned : List SocketAddr) : PunchEffect → Prop where
  | mapping {addr : SocketAddr} (known : addr ∈ n.mappingUdpAddr)
      (allowed : m.Allows addr.udpPolicy) : UdpProbe buf n m scanned (.sendTo buf addr)
  | lan {addr : SocketAddr} (known : addr ∈ n.localIpv4Addrs) (allowed : m.Allows .ipv4Udp) :
      UdpProbe buf n m scanned (.sendTo buf addr)
  | scan {addr : SocketAddr} (known : addr ∈ scanned) :
      UdpProbe buf n m scanned (.trySendViaAll buf addr)
  | cone {addr : SocketAddr} (known : addr ∈ n.publicIpv4Addr) (natType : n.natType = .cone)
      (allowed : m.Allows .ipv4Udp) : UdpProbe buf n m scanned (.trySendViaAll buf addr)
  | ipv6 {addr : SocketAddr} (known : addr ∈ n.ipv6UdpAddr) (allowed : m.Allows .ipv6Udp)
      (reached : ¬ ReturnsEarly m n) : UdpProbe buf n m scanned (.trySendViaAll buf addr)

theorem mem_mappingProbes {buf : List UInt8} {n : NatInfo} {m : PunchModel} {e : PunchEffect} :
    e ∈ mappingProbes buf n m ↔
      ∃ addr ∈ n.mappingUdpAddr, m.Allows addr.udpPolicy ∧ e = .sendTo buf addr := by
  simp only [mappingProbes, List.mem_map, List.mem_filter, and_assoc, eq_comm (a := e)]
  refine exists_congr fun addr => and_congr_right fun _ => and_congr_left fun _ => ?_
  rw [SocketAddr.udpPolicy]
  split
  next => exact PunchModel.isMatch_iff
  next => exact PunchModel.isMatch_iff

theorem mem_ipv6Probes {buf : List UInt8} {n : NatInfo} {m : PunchModel} {e : PunchEffect} :
    e ∈ ipv6Probes buf n m ↔
      m.Allows .ipv6Udp ∧ ∃ addr ∈ n.ipv6UdpAddr, e = .trySendViaAll buf addr := by
  rw [ipv6Probes, ← PunchModel.isMatch_iff]
  split
  next h => simp only [h, true_and, List.mem_map, eq_comm (a := e)]
  next h => simp only [h, Bool.false_eq_true, false_and, List.not_mem_nil]

/-- The sources of the probes, by the lists of `punch_udp`. -/
theorem udpProbe_iff {buf : List UInt8} {n : NatInfo} {m : PunchModel}
    {scanned : List SocketAddr} {e : PunchEffect} :
    UdpProbe buf n m scanned e ↔
      e ∈ mappingProbes buf n m ∨ (m.Allows .ipv4Udp ∧ e ∈ lanProbes buf n) ∨
        e ∈ scanned.map (.trySendViaAll buf) ∨
        (n.natType = .cone ∧ m.Allows .ipv4Udp ∧
          e ∈ n.publicIpv4Addr.map (.trySendViaAll buf)) ∨
        (¬ ReturnsEarly m n ∧ e ∈ ipv6Probes buf n m) := by
  simp only [mem_mappingProbes, mem_ipv6Probes, lanProbes, List.mem_map]
  constructor
  · intro h
    cases h with
    | mapping known allowed => exact .inl ⟨_, known, allowed, rfl⟩
    | lan known allowed => exact .inr (.inl ⟨allowed, _, known, rfl⟩)
    | scan known => exact .inr (.inr (.inl ⟨_, known, rfl⟩))
    | cone known natType allowed =>
        exact .inr (.inr (.inr (.inl ⟨natType, allowed, _, known, rfl⟩)))
    | ipv6 known allowed reached =>
        exact .inr (.inr (.inr (.inr ⟨reached, allowed, _, known, rfl⟩)))
  · rintro (⟨addr, known, allowed, rfl⟩ | ⟨allowed, addr, known, rfl⟩ | ⟨addr, known, rfl⟩ |
      ⟨natType, allowed, addr, known, rfl⟩ | ⟨reached, allowed, addr, known, rfl⟩)
    · exact .mapping known allowed
    · exact .lan known allowed
    · exact .scan known
    · exact .cone known natType allowed
    · exact .ipv6 known allowed reached

/-- A port at one of the IPs, but not port `0`. -/
def ScanTarget (ips : List Ipv4Addr) (addr : SocketAddr) : Prop :=
  ∃ ip ∈ ips, ∃ port ≠ 0, addr = .v4 ip port

theorem scanTarget_of_mem {ports : List UInt16} {ips : List Ipv4Addr} {addr : SocketAddr}
    (hports : ∀ port ∈ ports, port ≠ 0) {budget : Nat}
    (h : addr ∈ (probeTargets ports ips).take budget) : ScanTarget ips addr := by
  obtain ⟨port, hport, ip, hip, rfl⟩ := mem_probeTargets.mp (List.mem_of_mem_take h)
  exact ⟨ip, hip, port, hports port hport, rfl⟩

/-- The probes of a round of the global scan: there are some, and they go to the public IPs. -/
theorem PortScan.Scans.probes_spec {s s' : PortScan} {r : ScanRound} {probes : List SocketAddr}
    (h : s.Scans r s' probes) :
    probes ≠ [] ∧ ∀ addr ∈ probes, ScanTarget r.pubIps addr := by
  have hlow := r.maxK2_range.1
  rw [h.probes_eq]
  constructor
  · have hlt := s.cursor_lt r.cursorKey
    have hbatch : 0 < (s.batch r).length := by
      rw [PortScan.batch, List.length_take, List.length_drop]
      omega
    have htargets : 0 < (probeTargets (s.batch r) r.pubIps).length := by
      rw [length_probeTargets]
      exact Nat.mul_pos hbatch (List.length_pos_of_ne_nil r.pubIps_ne_nil)
    apply List.ne_nil_of_length_pos
    rw [List.length_take]
    omega
  · intro addr haddr
    refine scanTarget_of_mem (fun port hport => ?_) haddr
    have hmem := s.perm.mem_iff.mp (List.mem_of_mem_drop (List.mem_of_mem_take hport))
    rintro rfl
    exact absurd ((mem_portRange (by decide)).mp hmem).1 (by decide)

theorem punchPhases_spec (scan : PortScan) (rng : PunchRng) {n : NatInfo} (h : n.publicIps ≠ []) :
    ∃ scan' scanned, punchPhases scan rng n h = some (scan', scanned) ∧ scanned ≠ [] ∧
      ∀ addr ∈ scanned, ScanTarget n.publicIps addr := by
  obtain ⟨scan', probes, hscan⟩ :=
    scan.exists_globalScan ⟨n.publicIps, rng.maxK2, h, rng.maxK2_range⟩
  obtain ⟨hsome, htargets⟩ := (PortScan.Scans.of_globalScan hscan).probes_spec
  rw [punchPhases, hscan]
  refine ⟨scan', _, rfl, ?_, ?_⟩
  · intro hnil
    exact hsome (List.append_eq_nil_iff.mp hnil).2
  · intro addr haddr
    rcases List.mem_append.mp haddr with haddr | haddr
    · -- The first phase goes to some of the predicted ports.
      split at haddr
      next hk =>
        rw [punchSymmetric_eq h hk] at haddr
        refine scanTarget_of_mem (fun port hport => ?_) haddr
        have hpredicted := (rng.shuffle_perm _).mem_iff.mp (List.mem_of_mem_take hport)
        exact (mem_symmetricPredictionCandidates.mp hpredicted).1
      next => cases haddr
    · exact htargets addr haddr

/-- `punch_udp` does not panic.  Its probes, and the targets of the scan among them. -/
theorem punchUdp_spec (scan : PortScan) (rng : PunchRng) (buf : List UInt8) (n : NatInfo)
    (m : PunchModel) :
    ∃ scan' effects scanned, punchUdp scan rng buf n m = some (scan', effects) ∧
      (∀ e, e ∈ effects ↔ UdpProbe buf n m scanned e) ∧
      (scanned ≠ [] ↔ ScansPorts m n) ∧
      ∀ addr ∈ scanned, ScanTarget n.publicIps addr := by
  by_cases hv4 : m.Allows .ipv4Udp
  · have hmatch := PunchModel.isMatch_iff.mpr hv4
    cases hnat : n.natType with
    | cone =>
        refine ⟨scan, mappingProbes buf n m ++ lanProbes buf n ++
          n.publicIpv4Addr.map (.trySendViaAll buf) ++ ipv6Probes buf n m, [], ?_, ?_, ?_, by simp⟩
        · simp only [punchUdp, hmatch, hnat, if_true]
        · intro e
          simp [udpProbe_iff, ReturnsEarly, hv4, hnat]
        · simp [ScansPorts, hnat]
    | symmetric =>
        by_cases hips : n.publicIps = []
        · refine ⟨scan, mappingProbes buf n m ++ lanProbes buf n, [], ?_, ?_, ?_, by simp⟩
          · simp [punchUdp, hmatch, hnat, hips]
          · intro e
            simp [udpProbe_iff, ReturnsEarly, hv4, hnat, hips]
          · simp [ScansPorts, hips]
        · obtain ⟨scan', scanned, hphases, hsome, htargets⟩ := punchPhases_spec scan rng hips
          refine ⟨scan', mappingProbes buf n m ++ lanProbes buf n ++
            scanned.map (.trySendViaAll buf) ++ ipv6Probes buf n m, scanned, ?_, ?_, ?_, htargets⟩
          · simp [punchUdp, hmatch, hnat, hips, hphases]
          · intro e
            simp [udpProbe_iff, ReturnsEarly, hv4, hnat, hips]
          · simp [ScansPorts, hv4, hnat, hips, hsome]
  · have hmatch : m.isMatch .ipv4Udp = false :=
      Bool.eq_false_iff.mpr (mt PunchModel.isMatch_iff.mp hv4)
    refine ⟨scan, mappingProbes buf n m ++ ipv6Probes buf n m, [], ?_, ?_, ?_, by simp⟩
    · simp [punchUdp, hmatch]
    · intro e
      simp [udpProbe_iff, ReturnsEarly, hv4]
    · simp [ScansPorts, hv4]

/-- The round of the global scan that `punch_udp` makes. -/
theorem punchUdp_of_scans (scan : PortScan) (rng : PunchRng) (buf : List UInt8) {n : NatInfo}
    {m : PunchModel} (h : ScansPorts m n) :
    ∃ scan' probes,
      scan.globalScan ⟨n.publicIps, rng.maxK2, h.2.2, rng.maxK2_range⟩ = some (scan', probes) ∧
      ∃ effects, punchUdp scan rng buf n m = some (scan', effects) ∧
        ∀ addr ∈ probes, .trySendViaAll buf addr ∈ effects := by
  obtain ⟨hallowed, hnat, hips⟩ := h
  obtain ⟨scan', probes, hscan⟩ :=
    scan.exists_globalScan ⟨n.publicIps, rng.maxK2, hips, rng.maxK2_range⟩
  have hmatch := PunchModel.isMatch_iff.mpr hallowed
  obtain ⟨phase1, hphases⟩ : ∃ phase1,
      punchPhases scan rng n hips = some (scan', phase1 ++ probes) := by
    rw [punchPhases, hscan]
    exact ⟨_, rfl⟩
  refine ⟨scan', probes, hscan, mappingProbes buf n m ++ lanProbes buf n ++
    (phase1 ++ probes).map (.trySendViaAll buf) ++ ipv6Probes buf n m, ?_, ?_⟩
  · simp [punchUdp, hmatch, hnat, hips, hphases]
  · intro addr haddr
    refine List.mem_append_left _ (List.mem_append_right _ (List.mem_map_of_mem ?_))
    exact List.mem_append_right _ haddr

theorem punchUdp_of_not_scans (scan : PortScan) (rng : PunchRng) (buf : List UInt8) {n : NatInfo}
    {m : PunchModel} (h : ¬ ScansPorts m n) :
    ∃ effects, punchUdp scan rng buf n m = some (scan, effects) := by
  simp only [punchUdp]
  split
  next hmatch =>
    split
    next hnat =>
      split
      next => exact ⟨_, rfl⟩
      next hips => exact absurd ⟨PunchModel.isMatch_iff.mp hmatch, hnat, hips⟩ h
    next => exact ⟨_, rfl⟩
  next => exact ⟨_, rfl⟩

/-! ## TCP -/

/-- `NatQueryConfig`, as far as punching goes. -/
structure NatQueryConfig where
  bindIpv4 : Option Ipv4Addr
  bindIpv6 : Option Ipv6Addr
  enableIpv6 : Bool
deriving DecidableEq, Repr

namespace NatQueryConfig

/-- `tcp_bind_addr`. -/
def tcpBindAddr (c : NatQueryConfig) (remote : SocketAddr) (port : UInt16) : IoResult SocketAddr :=
  match remote with
  | .v4 .. => .ok (.v4 (c.bindIpv4.getD .unspecified) port)
  | .v6 .. =>
      if c.enableIpv6 then .ok (.v6 (c.bindIpv6.getD .unspecified) port 0 0)
      else .error ⟨.unsupported, "IPv6 TCP is disabled by Config::enable_ipv6"⟩

/-- TCP connections to the address are made. -/
def Connects (c : NatQueryConfig) (addr : SocketAddr) : Prop :=
  addr.isIpv4 = true ∨ c.enableIpv6 = true

instance (c : NatQueryConfig) (addr : SocketAddr) : Decidable (c.Connects addr) :=
  inferInstanceAs (Decidable (_ ∨ _))

theorem connects_iff {c : NatQueryConfig} {addr : SocketAddr} {port : UInt16} :
    c.Connects addr ↔ ∃ bindAddr, c.tcpBindAddr addr port = .ok bindAddr := by
  cases addr with
  | v4 ip p => simp [Connects, tcpBindAddr, SocketAddr.isIpv4]
  | v6 ip p flowinfo scopeId =>
      cases h : c.enableIpv6 with
      | true => simp [Connects, tcpBindAddr, h]
      | false => simp [Connects, tcpBindAddr, SocketAddr.isIpv4, h]

end NatQueryConfig

/-- `connect_tcp_punch`.  An error is only logged. -/
def connectTcpPunch (c : NatQueryConfig) (buf : Option (List UInt8)) (ttl : Option UInt8)
    (timeout : Nat) (addr : SocketAddr) : List PunchEffect :=
  match c.tcpBindAddr addr 0 with
  | .ok bindAddr => [.connectTcp addr bindAddr ttl timeout buf]
  | .error _ => []

/-- The TCP part of `punch_now`, in the order in which the tasks are spawned. -/
def punchTcp (c : NatQueryConfig) (buf : Option (List UInt8)) (ttl : Option UInt8) (n : NatInfo)
    (m : PunchModel) : List PunchEffect :=
  n.mappingTcpAddr.flatMap (connectTcpPunch c buf ttl 3000) ++
    (if m.isMatch .ipv4Tcp then
      n.localIpv4Tcp.toList.flatMap (connectTcpPunch c buf ttl 100) ++
        n.publicIpv4Tcp.flatMap (connectTcpPunch c buf ttl 3000)
    else []) ++
    (if m.isMatch .ipv6Tcp then n.ipv6TcpAddr.toList.flatMap (connectTcpPunch c buf ttl 3000)
    else [])

/-- Where the TCP connections of `punch_now` come from: the address and the timeout. -/
inductive TcpAttempt (n : NatInfo) (m : PunchModel) : SocketAddr → Nat → Prop where
  | mapping {addr : SocketAddr} (known : addr ∈ n.mappingTcpAddr) : TcpAttempt n m addr 3000
  | lan {addr : SocketAddr} (known : n.localIpv4Tcp = some addr) (allowed : m.Allows .ipv4Tcp) :
      TcpAttempt n m addr 100
  | wan {addr : SocketAddr} (known : addr ∈ n.publicIpv4Tcp) (allowed : m.Allows .ipv4Tcp) :
      TcpAttempt n m addr 3000
  | ipv6 {addr : SocketAddr} (known : n.ipv6TcpAddr = some addr) (allowed : m.Allows .ipv6Tcp) :
      TcpAttempt n m addr 3000

theorem mem_connectTcpPunch {c : NatQueryConfig} {buf : Option (List UInt8)} {ttl : Option UInt8}
    {timeout : Nat} {addr : SocketAddr} {e : PunchEffect} :
    e ∈ connectTcpPunch c buf ttl timeout addr ↔
      ∃ bindAddr, c.tcpBindAddr addr 0 = .ok bindAddr ∧
        e = .connectTcp addr bindAddr ttl timeout buf := by
  rw [connectTcpPunch]
  cases c.tcpBindAddr addr 0 with
  | ok bindAddr => simp
  | error error => simp

theorem mem_punchTcp {c : NatQueryConfig} {buf : Option (List UInt8)} {ttl : Option UInt8}
    {n : NatInfo} {m : PunchModel} {e : PunchEffect} :
    e ∈ punchTcp c buf ttl n m ↔
      ∃ addr timeout bindAddr, TcpAttempt n m addr timeout ∧
        c.tcpBindAddr addr 0 = .ok bindAddr ∧ e = .connectTcp addr bindAddr ttl timeout buf := by
  have hmatch : ∀ policy (effects : List PunchEffect),
      e ∈ (if m.isMatch policy then effects else []) ↔ m.Allows policy ∧ e ∈ effects := by
    intro policy effects
    rw [← PunchModel.isMatch_iff]
    split
    next h => simp [h]
    next h => simp [h]
  simp only [punchTcp, List.mem_append, hmatch, List.mem_flatMap, mem_connectTcpPunch,
    Option.mem_toList]
  constructor
  · rintro ((⟨addr, known, h⟩ | ⟨allowed, ⟨addr, known, h⟩ | ⟨addr, known, h⟩⟩) |
      ⟨allowed, addr, known, h⟩)
    · exact ⟨addr, _, h.choose, .mapping known, h.choose_spec⟩
    · exact ⟨addr, _, h.choose, .lan known allowed, h.choose_spec⟩
    · exact ⟨addr, _, h.choose, .wan known allowed, h.choose_spec⟩
    · exact ⟨addr, _, h.choose, .ipv6 known allowed, h.choose_spec⟩
  · rintro ⟨addr, timeout, bindAddr, attempt, hbind⟩
    cases attempt with
    | mapping known => exact .inl (.inl ⟨addr, known, bindAddr, hbind⟩)
    | lan known allowed => exact .inl (.inr ⟨allowed, .inl ⟨addr, known, bindAddr, hbind⟩⟩)
    | wan known allowed =>
        exact .inl (.inr ⟨allowed, .inr ⟨addr, known, bindAddr, hbind⟩⟩)
    | ipv6 known allowed => exact .inr ⟨allowed, addr, known, bindAddr, hbind⟩

/-! ## The round -/

/-- `Puncher`, with all that a round reads and writes. -/
structure FullPuncher where
  backoff : Puncher
  scan : PortScan
  natConfig : NatQueryConfig
  /-- `pool` has a `main_udp_v6`. -/
  mainUdpV6 : Bool

namespace FullPuncher

/-- UDP to the address has a socket. -/
def Sends (p : FullPuncher) (addr : SocketAddr) : Prop := addr.isIpv4 = true ∨ p.mainUdpV6 = true

instance (p : FullPuncher) (addr : SocketAddr) : Decidable (p.Sends addr) :=
  inferInstanceAs (Decidable (_ ∨ _))

/-- The effects that come to a send or a connection. -/
def attempts (p : FullPuncher) (effects : List PunchEffect) : List PunchEffect :=
  effects.filter (PunchEffect.attempted p.mainUdpV6)

/-- The TTL of the TCP connections of a round: its number, when it fits. -/
def ttl (backoff : Puncher) (r : Round) : Option UInt8 :=
  let count := ((backoff.punchStats.get r.peer).getD .default).batchCount
  if count < 255 then some (UInt8.ofNat count) else none

/-- `punch_now`. -/
def punchNow (p : FullPuncher) (rng : PunchRng) (time : Nat) (tcpBuf : Option (List UInt8))
    (udpBuf : List UInt8) (info : PunchInfo) : Option (FullPuncher × List PunchEffect) :=
  let r : Round := ⟨info.peerNatInfo, time⟩
  let backoff := p.backoff.punchNow r
  (punchUdp p.scan rng udpBuf info.peerNatInfo info.punchModel).map fun udp =>
    ({ p with backoff := backoff, scan := udp.1 },
      udp.2 ++ punchTcp p.natConfig tcpBuf (ttl backoff r) info.peerNatInfo info.punchModel)

/-- `need_punch`. -/
def needPunch (p : FullPuncher) (time : Nat) (info : PunchInfo) : Bool :=
  p.backoff.needPunch ⟨info.peerNatInfo, time⟩

/-- `punch`.  It reads the clock twice, for `need_punch` and for the round. -/
def punch (p : FullPuncher) (rng : PunchRng) (asked started : Nat) (buf : List UInt8)
    (info : PunchInfo) : Option (FullPuncher × List PunchEffect) :=
  if p.needPunch asked info then p.punchNow rng started (some buf) buf info else some (p, [])

/-- Where the effects of a round come from, with the targets of the scan. -/
def Attempt (c : NatQueryConfig) (tcpBuf : Option (List UInt8)) (udpBuf : List UInt8)
    (ttl : Option UInt8) (info : PunchInfo) (scanned : List SocketAddr) (e : PunchEffect) : Prop :=
  UdpProbe udpBuf info.peerNatInfo info.punchModel scanned e ∨
    ∃ addr timeout bindAddr, TcpAttempt info.peerNatInfo info.punchModel addr timeout ∧
      c.tcpBindAddr addr 0 = .ok bindAddr ∧ e = .connectTcp addr bindAddr ttl timeout tcpBuf

/-- `punch_now` does not panic.  Its effects, and the targets of the scan among them. -/
theorem punchNow_spec (p : FullPuncher) (rng : PunchRng) (time : Nat)
    (tcpBuf : Option (List UInt8)) (udpBuf : List UInt8) (info : PunchInfo) :
    ∃ p' effects scanned ttl, p.punchNow rng time tcpBuf udpBuf info = some (p', effects) ∧
      (∀ e, e ∈ effects ↔ Attempt p.natConfig tcpBuf udpBuf ttl info scanned e) ∧
      (scanned ≠ [] ↔ ScansPorts info.punchModel info.peerNatInfo) ∧
      ∀ addr ∈ scanned, ScanTarget info.peerNatInfo.publicIps addr := by
  obtain ⟨scan', effects, scanned, hudp, hmem, hsome, htargets⟩ :=
    punchUdp_spec p.scan rng udpBuf info.peerNatInfo info.punchModel
  simp only [punchNow, hudp, Option.map_some]
  refine ⟨_, _, scanned, ttl (p.backoff.punchNow ⟨info.peerNatInfo, time⟩)
    ⟨info.peerNatInfo, time⟩, rfl, ?_, hsome, htargets⟩
  intro e
  rw [List.mem_append, hmem, mem_punchTcp]
  rfl

variable {p p' : FullPuncher} {rng : PunchRng} {time asked started : Nat} {info : PunchInfo}
  {tcpBuf : Option (List UInt8)} {udpBuf buf : List UInt8} {effects : List PunchEffect}

/-- A round counts in the backoff. -/
theorem backoff_punchNow (h : p.punchNow rng time tcpBuf udpBuf info = some (p', effects)) :
    p'.backoff = p.backoff.punchNow ⟨info.peerNatInfo, time⟩ := by
  obtain ⟨udp, -, heq⟩ := Option.map_eq_some_iff.mp h
  cases heq
  rfl

/-- The part of a round that goes on with the scan: its probes are sent, and the cursor is kept.
Other rounds leave the scan alone. -/
theorem scan_punchNow (h : p.punchNow rng time tcpBuf udpBuf info = some (p', effects)) :
    (∀ hscans : ScansPorts info.punchModel info.peerNatInfo, ∃ probes,
        p.scan.globalScan ⟨info.peerNatInfo.publicIps, rng.maxK2, hscans.2.2, rng.maxK2_range⟩ =
          some (p'.scan, probes) ∧ ∀ addr ∈ probes, .trySendViaAll udpBuf addr ∈ effects) ∧
      (¬ ScansPorts info.punchModel info.peerNatInfo → p'.scan = p.scan) := by
  obtain ⟨udp, hudp, heq⟩ := Option.map_eq_some_iff.mp h
  cases heq
  refine ⟨fun hscans => ?_, fun hscans => ?_⟩
  · obtain ⟨scan', probes, hscan, hsent⟩ := punchUdp_of_scans p.scan rng udpBuf hscans
    obtain ⟨effects, hround, hsent⟩ := hsent
    rw [hround] at hudp
    cases hudp
    exact ⟨probes, hscan, fun addr haddr => List.mem_append_left _ (hsent addr haddr)⟩
  · obtain ⟨effects, hround⟩ := punchUdp_of_not_scans p.scan rng udpBuf hscans
    rw [hround] at hudp
    cases hudp
    rfl

/-- `punch` is a call on the backoff. -/
theorem step_of_punch {s : PunchHistory} (hs : s.puncher = p.backoff) (hclock : s.clock ≤ asked)
    (hstart : asked ≤ started) (h : p.punch rng asked started buf info = some (p', effects)) :
    ∃ s', s.step (.punch info.peerNatInfo asked started) = some s' ∧ s'.puncher = p'.backoff := by
  simp only [PunchHistory.step, hs, hclock, hstart, and_self, if_true]
  rw [punch, needPunch] at h
  split at h
  next hneeded =>
    rw [if_pos hneeded]
    exact ⟨_, rfl, (backoff_punchNow h).symm⟩
  next hearly =>
    cases h
    rw [if_neg hearly]
    exact ⟨_, rfl, rfl⟩

end FullPuncher

end RustP2p
