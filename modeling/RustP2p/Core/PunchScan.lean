import Mathlib.Data.List.Count
import Mathlib.Logic.Function.Iterate
import Mathlib.Order.Bounds.Defs
import RustP2p.Core.PunchBackoff

/-!
# The port scan of symmetric punching

A peer behind a symmetric NAT can be behind any port.  `punch_symmetric` probes every
port of a list at every IP of the peer, with a budget of probes, and says at which
port to go on.  It tests the budget before a probe, so the probe that uses it up is
not sent: `spends_budget_iff` says when this does not matter.

The global scan walks through all ports in one shuffled order, a batch in each round.
`port_cursor` keeps, for the first IP of each peer, where the next batch starts.
`global_scan_coverage` is about the rounds for one peer, among rounds for others.
-/

namespace RustP2p

/-! ## Ports -/

/-- The ports `first..=last`. -/
def portRange (first last : Nat) : List UInt16 :=
  (List.range' first (last + 1 - first)).map UInt16.ofNat

/-- The ports `1..=65535`. -/
def allPorts : List UInt16 := portRange 1 65535

theorem length_portRange (first last : Nat) : (portRange first last).length = last + 1 - first := by
  rw [portRange, List.length_map, List.length_range']

theorem mem_portRange {first last : Nat} (hlast : last < 65536) {port : UInt16} :
    port ∈ portRange first last ↔ first ≤ port.toNat ∧ port.toNat ≤ last := by
  simp only [portRange, List.mem_map, List.mem_range'_1]
  constructor
  · rintro ⟨n, hn, rfl⟩
    rw [UInt16.toNat_ofNat', Nat.mod_eq_of_lt (by omega)]
    omega
  · intro h
    exact ⟨port.toNat, by omega, UInt16.ofNat_toNat⟩

theorem nodup_portRange {first last : Nat} (hlast : last < 65536) :
    (portRange first last).Nodup := by
  refine List.Nodup.map_on ?_ List.nodup_range'
  intro a ha b hb heq
  rw [List.mem_range'_1] at ha hb
  have htoNat := congrArg UInt16.toNat heq
  rwa [UInt16.toNat_ofNat', UInt16.toNat_ofNat', Nat.mod_eq_of_lt (by omega),
    Nat.mod_eq_of_lt (by omega)] at htoNat

/-! ## Probing with a budget -/

/-- Every port at every IP, the IPs of one port together. -/
def probeTargets (ports : List UInt16) (ips : List Ipv4Addr) : List SocketAddr :=
  ports.flatMap fun port => ips.map fun pubIp => .v4 pubIp port

/-- The loop of `punch_symmetric` over the IPs, for one port: the probes, and the count
after them unless the budget is used up. -/
def probePort (max : Nat) (port : UInt16) : List Ipv4Addr → Nat → List SocketAddr × Option Nat
  | [], count => ([], some count)
  | pubIp :: ips, count =>
      if count + 1 = max then ([], none)
      else
        let rest := probePort max port ips (count + 1)
        (.v4 pubIp port :: rest.1, rest.2)

/-- The loop of `punch_symmetric` over the ports: the probes, and the index of the port at
which the budget is used up. -/
def probePorts (ips : List Ipv4Addr) (max : Nat) :
    List UInt16 → Nat → Nat → List SocketAddr × Option Nat
  | [], _, _ => ([], none)
  | port :: ports, index, count =>
      let probed := probePort max port ips count
      match probed.2 with
      | none => (probed.1, some index)
      | some count =>
          let rest := probePorts ips max ports (index + 1) count
          (probed.1 ++ rest.1, rest.2)

/-- `punch_symmetric`: the probes and the number of ports to skip the next time. -/
def punchSymmetric (ports : List UInt16) (ips : List Ipv4Addr) (max : Nat) :
    List SocketAddr × Nat :=
  let probed := probePorts ips max ports 0 0
  (probed.1, probed.2.getD ports.length)

theorem probeTargets_cons (port : UInt16) (ports : List UInt16) (ips : List Ipv4Addr) :
    probeTargets (port :: ports) ips =
      ips.map (fun pubIp => .v4 pubIp port) ++ probeTargets ports ips := by
  rw [probeTargets, List.flatMap_cons, probeTargets]

theorem probeTargets_append (ports more : List UInt16) (ips : List Ipv4Addr) :
    probeTargets (ports ++ more) ips = probeTargets ports ips ++ probeTargets more ips := by
  simp only [probeTargets, List.flatMap_append]

theorem length_probeTargets (ports : List UInt16) (ips : List Ipv4Addr) :
    (probeTargets ports ips).length = ports.length * ips.length := by
  induction ports with
  | nil => simp [probeTargets]
  | cons port ports ih =>
      rw [probeTargets_cons, List.length_append, List.length_map, ih, List.length_cons,
        Nat.succ_mul, Nat.add_comm]

theorem mem_probeTargets {ports : List UInt16} {ips : List Ipv4Addr} {addr : SocketAddr} :
    addr ∈ probeTargets ports ips ↔ ∃ port ∈ ports, ∃ ip ∈ ips, addr = .v4 ip port := by
  simp only [probeTargets, List.mem_flatMap, List.mem_map]
  constructor
  · rintro ⟨port, hport, ip, hip, rfl⟩
    exact ⟨port, hport, ip, hip, rfl⟩
  · rintro ⟨port, hport, ip, hip, rfl⟩
    exact ⟨port, hport, ip, hip, rfl⟩

/-- The first targets are those of the first port. -/
theorem take_probeTargets_cons (port : UInt16) (ports : List UInt16) (ips : List Ipv4Addr)
    (n : Nat) :
    (probeTargets (port :: ports) ips).take (n + ips.length) =
      ips.map (fun pubIp => .v4 pubIp port) ++ (probeTargets ports ips).take n := by
  have hlen : n + ips.length =
      (ips.map fun pubIp => SocketAddr.v4 pubIp port).length + n := by
    rw [List.length_map, Nat.add_comm]
  rw [probeTargets_cons, hlen, List.take_length_add_append]

/-- The targets of some leading ports lead the targets. -/
theorem probeTargets_take (ports : List UInt16) (ips : List Ipv4Addr) (k : Nat) :
    probeTargets (ports.take k) ips = (probeTargets ports ips).take (k * ips.length) := by
  induction ports generalizing k with
  | nil => simp [probeTargets]
  | cons port ports ih =>
      cases k with
      | zero => simp [probeTargets]
      | succ k =>
          rw [List.take_succ_cons, probeTargets_cons, ih, Nat.succ_mul, take_probeTargets_cons]

/-- One port is probed at all IPs when the budget is not used up there. -/
theorem probePort_of_lt {max : Nat} {port : UInt16} {ips : List Ipv4Addr} {count : Nat}
    (h : count + ips.length < max) :
    probePort max port ips count =
      (ips.map fun pubIp => .v4 pubIp port, some (count + ips.length)) := by
  induction ips generalizing count with
  | nil => rfl
  | cons ip ips ih =>
      rw [List.length_cons] at h
      rw [probePort, if_neg (by omega), ih (by omega), List.map_cons, List.length_cons]
      simp only [Nat.add_assoc, Nat.add_comm 1]

/-- Otherwise the probe that uses it up is the first one not sent. -/
theorem probePort_of_le {max : Nat} {port : UInt16} {ips : List Ipv4Addr} {count : Nat}
    (hcount : count < max) (h : max ≤ count + ips.length) :
    probePort max port ips count =
      ((ips.map fun pubIp => SocketAddr.v4 pubIp port).take (max - 1 - count), none) := by
  induction ips generalizing count with
  | nil =>
      rw [List.length_nil] at h
      omega
  | cons ip ips ih =>
      rw [List.length_cons] at h
      rw [probePort]
      split
      next hlast =>
        have hzero : max - 1 - count = 0 := by omega
        rw [hzero, List.take_zero]
      next hlast =>
        have hsucc : max - 1 - count = (max - 1 - (count + 1)) + 1 := by omega
        rw [ih (by omega) (by omega), hsucc, List.map_cons, List.take_succ_cons]

/-- The probes of the loops, and where they end. -/
theorem probePorts_eq {ips : List Ipv4Addr} (hips : ips ≠ []) {max : Nat} (ports : List UInt16)
    (index : Nat) {count : Nat} (hcount : count < max) :
    (probePorts ips max ports index count).1 =
        (probeTargets ports ips).take (max - 1 - count) ∧
      (probePorts ips max ports index count).2.getD (index + ports.length) =
        index + min ports.length ((max - 1 - count) / ips.length) := by
  have hpos : 0 < ips.length := List.length_pos_of_ne_nil hips
  induction ports generalizing index count with
  | nil => simp [probePorts, probeTargets]
  | cons port ports ih =>
      rw [probePorts]
      by_cases hroom : count + ips.length < max
      · -- This port is probed at all IPs, and the loop goes on.
        obtain ⟨hprobes, hnext⟩ := ih (index + 1) hroom
        have hsplit : max - 1 - count = (max - 1 - (count + ips.length)) + ips.length := by omega
        rw [probePort_of_lt hroom]
        dsimp only
        constructor
        · rw [hprobes, hsplit, take_probeTargets_cons]
        · have hlen : index + (port :: ports).length = index + 1 + ports.length := by
            rw [List.length_cons]
            omega
          rw [hlen, hnext, hsplit, Nat.add_div_right _ hpos, List.length_cons]
          omega
      · -- The budget is used up at this port.
        have hle : max - 1 - count < ips.length := by omega
        rw [probePort_of_le hcount (by omega)]
        constructor
        · rw [probeTargets_cons, List.take_append_of_le_length (by rw [List.length_map]; omega)]
        · rw [Option.getD_some, Nat.div_eq_of_lt hle, Nat.min_zero, Nat.add_zero]

/-- `punch_symmetric` sends all probes of its budget but the last, and skips the ports that
are done. -/
theorem punchSymmetric_eq {ips : List Ipv4Addr} (hips : ips ≠ []) {max : Nat} (hmax : 1 ≤ max)
    (ports : List UInt16) :
    punchSymmetric ports ips max =
      ((probeTargets ports ips).take (max - 1), min ports.length ((max - 1) / ips.length)) := by
  obtain ⟨hprobes, hnext⟩ := probePorts_eq hips ports 0 (show 0 < max from hmax)
  rw [Nat.zero_add, Nat.zero_add, Nat.sub_zero] at hnext
  rw [Nat.sub_zero] at hprobes
  rw [punchSymmetric, hprobes, hnext]

/-- The number of leading ports that are probed at every IP. -/
theorem isGreatest_probed {ips : List Ipv4Addr} (hips : ips ≠ []) (ports : List UInt16)
    (sent : Nat) :
    IsGreatest
      {k | k ≤ ports.length ∧
        probeTargets (ports.take k) ips <+: (probeTargets ports ips).take sent}
      (min ports.length (sent / ips.length)) := by
  have hpos : 0 < ips.length := List.length_pos_of_ne_nil hips
  have hiff : ∀ k ≤ ports.length,
      probeTargets (ports.take k) ips <+: (probeTargets ports ips).take sent ↔
        k * ips.length ≤ sent := by
    intro k hk
    rw [probeTargets_take, List.prefix_take_iff, List.length_take, length_probeTargets]
    have hle : k * ips.length ≤ ports.length * ips.length := Nat.mul_le_mul_right _ hk
    rw [Nat.min_eq_left hle]
    exact and_iff_right (List.take_prefix _ _)
  constructor
  · refine ⟨Nat.min_le_left _ _, (hiff _ (Nat.min_le_left _ _)).mpr ?_⟩
    calc min ports.length (sent / ips.length) * ips.length
        ≤ sent / ips.length * ips.length := Nat.mul_le_mul_right _ (Nat.min_le_right _ _)
      _ ≤ sent := Nat.div_mul_le_self _ _
  · rintro k ⟨hk, hprefix⟩
    have hle : k ≤ sent / ips.length := (Nat.le_div_iff_mul_le hpos).mpr ((hiff k hk).mp hprefix)
    exact Nat.le_min.mpr ⟨hk, hle⟩

/-- The budget is spent exactly: the probes are the leading ones of the budget, and the result
counts the leading ports that were probed at every IP. -/
def SpendsBudget (ports : List UInt16) (ips : List Ipv4Addr) (max : Nat) : Prop :=
  (punchSymmetric ports ips max).1 =
      (probeTargets ports ips).take (min max (ports.length * ips.length)) ∧
    IsGreatest
      {k | k ≤ ports.length ∧
        probeTargets (ports.take k) ips <+: (punchSymmetric ports ips max).1}
      (punchSymmetric ports ips max).2

/-- The budget is spent exactly when there are fewer targets than probes in it. -/
theorem spends_budget_iff {ips : List Ipv4Addr} (hips : ips ≠ []) {max : Nat} (hmax : 1 ≤ max)
    (ports : List UInt16) :
    SpendsBudget ports ips max ↔ ports.length * ips.length < max := by
  rw [SpendsBudget, punchSymmetric_eq hips hmax]
  constructor
  · rintro ⟨hsent, -⟩
    have hlen := congrArg List.length hsent
    simp only [List.length_take, length_probeTargets] at hlen
    omega
  · intro hlt
    refine ⟨?_, isGreatest_probed hips ports (max - 1)⟩
    rw [List.take_of_length_le (by rw [length_probeTargets]; omega),
      List.take_of_length_le (by rw [length_probeTargets]; omega)]

/-- Two ports at one IP with a budget of three. -/
theorem spends_budget_iff_two : SpendsBudget [1, 2] [⟨10, 0, 0, 1⟩] 3 :=
  (spends_budget_iff (by decide) (by decide) [1, 2]).mpr (by decide)

/-- Of sixty ports with a budget of sixty, the last one is not probed. -/
theorem budget_not_spent : ¬ SpendsBudget (portRange 1 60) [⟨10, 0, 0, 1⟩] 60 := by
  intro h
  exact absurd h.1 (by decide)

/-! ## The global scan -/

/-- What the puncher keeps for the global scan: all ports in the order of the scan, and for
the first IP of a peer where the next batch starts. -/
structure PortScan where
  shuffledPorts : List UInt16
  perm : shuffledPorts.Perm allPorts
  portCursor : DashMap SocketAddr Nat
  inRange : ∀ key cursor, portCursor.get key = some cursor → cursor < shuffledPorts.length

/-- One round of the global scan: the public IPs of the peer and the size of the batch. -/
structure ScanRound where
  pubIps : List Ipv4Addr
  maxK2 : Nat
  pubIps_ne_nil : pubIps ≠ []
  maxK2_range : 1200 ≤ maxK2 ∧ maxK2 < 1500

/-- The key of the cursor: the first public IP, without a port. -/
def ScanRound.cursorKey (r : ScanRound) : SocketAddr := .v4 (r.pubIps.head r.pubIps_ne_nil) 0

/-- The number of ports that the budget of a round is enough for. -/
theorem ScanRound.skip_spec (r : ScanRound) (hfew : r.pubIps.length < 1200) :
    let skip := (r.maxK2 - 1) / r.pubIps.length
    1 ≤ skip ∧ skip < r.maxK2 ∧ skip * r.pubIps.length ≤ r.maxK2 - 1 := by
  have hpos : 0 < r.pubIps.length := List.length_pos_of_ne_nil r.pubIps_ne_nil
  have hlow := r.maxK2_range.1
  refine ⟨(Nat.le_div_iff_mul_le hpos).mpr (by omega), ?_, Nat.div_mul_le_self _ _⟩
  calc (r.maxK2 - 1) / r.pubIps.length
      ≤ r.maxK2 - 1 := Nat.div_le_self _ _
    _ < r.maxK2 := by omega

/-- `ports[start..stop]`, `none` for a panic. -/
def portSlice? (ports : List UInt16) (start stop : Nat) : Option (List UInt16) :=
  if start ≤ stop ∧ stop ≤ ports.length then some ((ports.drop start).take (stop - start)) else none

namespace PortScan

variable {s s' : PortScan} {r : ScanRound} {probes : List SocketAddr}

theorem length_shuffledPorts (s : PortScan) : s.shuffledPorts.length = 65535 := by
  rw [s.perm.length_eq, allPorts, length_portRange]

theorem inRange_empty (n : Nat) :
    ∀ key cursor, (∅ : DashMap SocketAddr Nat).get key = some cursor → cursor < n := by
  intro key cursor h
  cases h

/-- The scan of a new puncher. -/
def new (shuffledPorts : List UInt16) (perm : shuffledPorts.Perm allPorts) : PortScan where
  shuffledPorts := shuffledPorts
  perm := perm
  portCursor := ∅
  inRange := inRange_empty shuffledPorts.length

/-- Where the next batch starts. -/
def cursor (s : PortScan) (key : SocketAddr) : Nat := (s.portCursor.get key).getD 0

theorem cursor_lt (s : PortScan) (key : SocketAddr) : s.cursor key < s.shuffledPorts.length := by
  rw [cursor]
  cases h : s.portCursor.get key with
  | none =>
      rw [Option.getD_none, s.length_shuffledPorts]
      decide
  | some cursor => exact s.inRange key cursor h

/-- The cursor for an index, `0` at the end of the ports. -/
def wrap (s : PortScan) (index : Nat) : Nat := if s.shuffledPorts.length ≤ index then 0 else index

theorem wrap_lt (s : PortScan) (index : Nat) : s.wrap index < s.shuffledPorts.length := by
  simp only [wrap, s.length_shuffledPorts]
  split
  next => decide
  next h => omega

/-- The cursor for the key makes the puncher forget the others. -/
def Clears (s : PortScan) (key : SocketAddr) : Prop :=
  s.portCursor.get key = none ∧ MAX_PUNCH_ENTRIES ≤ s.portCursor.entries.length

instance (s : PortScan) (key : SocketAddr) : Decidable (s.Clears key) :=
  inferInstanceAs (Decidable (_ ∧ _))

theorem inRange_insert {n : Nat} {m : DashMap SocketAddr Nat} {key : SocketAddr} {index : Nat}
    (hm : ∀ key cursor, m.get key = some cursor → cursor < n) (h : index < n) :
    ∀ key' cursor, (m.insert key index).get key' = some cursor → cursor < n := by
  intro key' cursor hget
  rw [DashMap.get_insert] at hget
  split at hget
  next => cases hget; exact h
  next => exact hm key' cursor hget

theorem inRange_kept (s : PortScan) (key : SocketAddr) :
    ∀ key' cursor, (if s.Clears key then ∅ else s.portCursor).get key' = some cursor →
      cursor < s.shuffledPorts.length := by
  intro key' cursor hget
  split at hget
  next => cases hget
  next => exact s.inRange key' cursor hget

/-- The end of a round: the cursor is stored. -/
def storeCursor (s : PortScan) (key : SocketAddr) (index : Nat) : PortScan where
  shuffledPorts := s.shuffledPorts
  perm := s.perm
  portCursor := (if s.Clears key then ∅ else s.portCursor).insert key (s.wrap index)
  inRange := inRange_insert (s.inRange_kept key) (s.wrap_lt index)

/-- The global scan of `punch_udp`, `none` when the slice is out of range. -/
def globalScan (s : PortScan) (r : ScanRound) : Option (PortScan × List SocketAddr) :=
  let start := s.cursor r.cursorKey
  let stop := min (start + r.maxK2) s.shuffledPorts.length
  (portSlice? s.shuffledPorts start stop).map fun ports =>
    let probed := punchSymmetric ports r.pubIps r.maxK2
    (s.storeCursor r.cursorKey (start + probed.2), probed.1)

theorem cursor_storeCursor (s : PortScan) (key : SocketAddr) (index : Nat) :
    (s.storeCursor key index).cursor key = s.wrap index := by
  simp only [cursor, storeCursor, DashMap.get_insert_self, Option.getD_some]

/-- The cursors of other peers stay, unless they are forgotten. -/
theorem cursor_storeCursor_of_ne {key key' : SocketAddr} (hne : key' ≠ key)
    (hkept : ¬ s.Clears key) (index : Nat) :
    (s.storeCursor key index).cursor key' = s.cursor key' := by
  simp only [cursor, storeCursor, DashMap.get_insert, if_neg hne, if_neg hkept]

/-- The ports of a batch, from the cursor on. -/
def batch (s : PortScan) (r : ScanRound) : List UInt16 :=
  (s.shuffledPorts.drop (s.cursor r.cursorKey)).take r.maxK2

/-- The slice of a round is in range. -/
theorem portSlice?_eq (s : PortScan) (r : ScanRound) :
    portSlice? s.shuffledPorts (s.cursor r.cursorKey)
      (min (s.cursor r.cursorKey + r.maxK2) s.shuffledPorts.length) = some (s.batch r) := by
  have hlt := s.cursor_lt r.cursorKey
  rw [portSlice?, if_pos ⟨by omega, by omega⟩, batch, Option.some_inj]
  by_cases hend : s.cursor r.cursorKey + r.maxK2 ≤ s.shuffledPorts.length
  · rw [Nat.min_eq_left hend, Nat.add_sub_cancel_left]
  · rw [Nat.min_eq_right (by omega), List.take_of_length_le (by rw [List.length_drop]),
      List.take_of_length_le (by rw [List.length_drop]; omega)]

/-- Where a round at this cursor leaves it. -/
def advance (r : ScanRound) (cursor : Nat) : Nat :=
  let index := cursor + min (min r.maxK2 (65535 - cursor)) ((r.maxK2 - 1) / r.pubIps.length)
  if 65535 ≤ index then 0 else index

/-- What a round does. -/
structure Scans (s : PortScan) (r : ScanRound) (s' : PortScan) (probes : List SocketAddr) :
    Prop where
  state : ∃ index, s' = s.storeCursor r.cursorKey index
  cursor_eq : s'.cursor r.cursorKey = advance r (s.cursor r.cursorKey)
  probes_eq : probes = (probeTargets (s.batch r) r.pubIps).take (r.maxK2 - 1)

/-- No round panics. -/
theorem exists_globalScan (s : PortScan) (r : ScanRound) :
    ∃ s' probes, s.globalScan r = some (s', probes) := by
  rw [globalScan, portSlice?_eq]
  exact ⟨_, _, rfl⟩

theorem Scans.of_globalScan (h : s.globalScan r = some (s', probes)) : Scans s r s' probes := by
  have hmax : 1 ≤ r.maxK2 := Nat.le_trans (by decide) r.maxK2_range.1
  rw [globalScan, portSlice?_eq, Option.map_some, punchSymmetric_eq r.pubIps_ne_nil hmax] at h
  cases h
  refine ⟨⟨_, rfl⟩, ?_, rfl⟩
  rw [cursor_storeCursor, wrap, advance, batch, List.length_take, List.length_drop,
    s.length_shuffledPorts]

/-! ## Coverage -/

/-- The ports are probed at all IPs, and when there is one IP nothing else is probed. -/
def Covers (ips : List Ipv4Addr) (ports : List UInt16) (probes : List SocketAddr) : Prop :=
  (∀ addr ∈ probeTargets ports ips, addr ∈ probes) ∧
    (ips.length = 1 → probes = probeTargets ports ips)

theorem Covers.append {ips : List Ipv4Addr} {ports more : List UInt16}
    {probes rest : List SocketAddr} (h : Covers ips ports probes) (hrest : Covers ips more rest) :
    Covers ips (ports ++ more) (probes ++ rest) := by
  rw [Covers, probeTargets_append]
  refine ⟨?_, fun hone => by rw [h.2 hone, hrest.2 hone]⟩
  intro addr haddr
  rcases List.mem_append.mp haddr with haddr | haddr
  · exact List.mem_append_left _ (h.1 addr haddr)
  · exact List.mem_append_right _ (hrest.1 addr haddr)

/-- A round covers all remaining ports and wraps, or it covers the ports it moves over. -/
theorem Scans.covers (h : Scans s r s' probes) (hfew : r.pubIps.length < 1200) :
    (s'.cursor r.cursorKey = 0 ∧
        Covers r.pubIps (s.shuffledPorts.drop (s.cursor r.cursorKey)) probes) ∨
      (s.cursor r.cursorKey < s'.cursor r.cursorKey ∧
        Covers r.pubIps ((s.shuffledPorts.drop (s.cursor r.cursorKey)).take
          (s'.cursor r.cursorKey - s.cursor r.cursorKey)) probes) := by
  have hlen := s.length_shuffledPorts
  have hbudget := h.probes_eq
  have hmove := h.cursor_eq
  rw [batch] at hbudget
  rw [advance] at hmove
  generalize s'.cursor r.cursorKey = next at hmove ⊢
  generalize s.cursor r.cursorKey = start at hmove hbudget ⊢
  obtain ⟨hskip, hle, hmul⟩ := r.skip_spec hfew
  have hwhole : r.pubIps.length = 1 → (r.maxK2 - 1) / r.pubIps.length = r.maxK2 - 1 := by
    intro hone
    rw [hone, Nat.div_one]
  generalize (r.maxK2 - 1) / r.pubIps.length = skip at hmove hskip hle hmul hwhole
  by_cases hend : 65535 ≤ start + skip
  · -- The remaining ports fit into the budget.
    have hall : (s.shuffledPorts.drop start).take r.maxK2 = s.shuffledPorts.drop start := by
      rw [List.take_of_length_le (by rw [List.length_drop]; omega)]
    have hfits : (probeTargets (s.shuffledPorts.drop start) r.pubIps).length ≤ r.maxK2 - 1 := by
      rw [length_probeTargets, List.length_drop]
      exact Nat.le_trans (Nat.mul_le_mul_right _ (by omega)) hmul
    rw [hall, List.take_of_length_le hfits] at hbudget
    subst hbudget
    left
    refine ⟨?_, fun _ haddr => haddr, fun _ => rfl⟩
    rw [hmove, if_pos (by omega)]
  · -- The round stops before the end, and the ports it moves over fit into the budget.
    have hnext : next = start + skip := by
      rw [hmove, if_neg (by omega)]
      omega
    have htake : ((s.shuffledPorts.drop start).take r.maxK2).take skip =
        (s.shuffledPorts.drop start).take skip := by
      rw [List.take_take, Nat.min_eq_left (by omega)]
    right
    rw [hnext, Nat.add_sub_cancel_left, ← htake]
    refine ⟨by omega, ?_, ?_⟩
    · intro addr haddr
      rw [probeTargets_take] at haddr
      rw [hbudget]
      exact List.take_subset_take_left _ hmul haddr
    · intro hone
      rw [hbudget, probeTargets_take _ _ skip, hwhole hone, hone, Nat.mul_one]

/-- The rounds of a puncher, one after the other. -/
def step (s : PortScan) (r : ScanRound) : Option PortScan := (s.globalScan r).map Prod.fst

/-- The probes of a round, if it is for the peer of the key. -/
def probesFor (key : SocketAddr) (s : PortScan) (r : ScanRound) : Option (List SocketAddr) :=
  if r.cursorKey = key then (s.globalScan r).map Prod.snd else none

/-- All probes of a list of rounds for the peer of the key. -/
def probed (key : SocketAddr) (s : PortScan) (rounds : List ScanRound) : List SocketAddr :=
  (Transition.outputs step (probesFor key) s rounds).flatten

theorem exists_step (s : PortScan) (r : ScanRound) :
    ∃ s' probes, s.step r = some s' ∧ Scans s r s' probes ∧
      ∀ key, probesFor key s r = if r.cursorKey = key then some probes else none := by
  obtain ⟨s', probes, h⟩ := s.exists_globalScan r
  refine ⟨s', probes, ?_, .of_globalScan h, ?_⟩
  · rw [step, h, Option.map_some]
  · intro key
    rw [probesFor, h, Option.map_some]

theorem probed_cons {key : SocketAddr} {rounds : List ScanRound} (hstep : s.step r = some s')
    (hprobes : probesFor key s r = if r.cursorKey = key then some probes else none) :
    probed key s (r :: rounds) =
      (if r.cursorKey = key then probes else []) ++ probed key s' rounds := by
  simp only [probed, Transition.outputs, hstep, hprobes]
  split
  next => simp
  next => simp

/-- Rounds are always possible. -/
theorem exists_run (s : PortScan) (rounds : List ScanRound) :
    ∃ t, Transition.run step s rounds = some t := by
  induction rounds generalizing s with
  | nil => exact ⟨s, rfl⟩
  | cons r rounds ih =>
      obtain ⟨s', -, hstep, -⟩ := s.exists_step r
      obtain ⟨t, ht⟩ := ih s'
      exact ⟨t, by rw [Transition.run_cons, hstep, Option.bind_some, ht]⟩

theorem Scans.shuffledPorts_eq (h : Scans s r s' probes) : s'.shuffledPorts = s.shuffledPorts := by
  obtain ⟨index, rfl⟩ := h.state
  rfl

theorem Scans.cursor_of_ne (h : Scans s r s' probes) {key : SocketAddr} (hne : key ≠ r.cursorKey)
    (hkept : ¬ s.Clears r.cursorKey) : s'.cursor key = s.cursor key := by
  obtain ⟨index, rfl⟩ := h.state
  exact cursor_storeCursor_of_ne hne hkept index

/-- While the scan for the peer is on its way: the cursor is not back at the start, and no
round makes the puncher forget it. -/
def UnderWay (key : SocketAddr) (s : PortScan) (r : ScanRound) : Prop :=
  s.cursor key ≠ 0 ∧ ¬ s.Clears r.cursorKey

instance (key : SocketAddr) (s : PortScan) (r : ScanRound) : Decidable (s.UnderWay key r) :=
  inferInstanceAs (Decidable (_ ∧ _))

/-- What the rounds after one for the peer have to do when they bring the cursor back. -/
def Rest (ips : List Ipv4Addr) (key : SocketAddr) (s : PortScan) (probes : List SocketAddr) :
    Prop :=
  (s.cursor key = 0 → probes = []) ∧
    (s.cursor key ≠ 0 → Covers ips (s.shuffledPorts.drop (s.cursor key)) probes)

/-- One round for the peer, and the rest. -/
theorem Scans.covers_rest (h : Scans s r s' probes) (hfew : r.pubIps.length < 1200)
    {rest : List SocketAddr} (hrest : Rest r.pubIps r.cursorKey s' rest) :
    Covers r.pubIps (s.shuffledPorts.drop (s.cursor r.cursorKey)) (probes ++ rest) := by
  rcases h.covers hfew with ⟨hzero, hcovers⟩ | ⟨hlt, hcovers⟩
  · rw [hrest.1 hzero, List.append_nil]
    exact hcovers
  · have hdrop : s'.shuffledPorts.drop (s'.cursor r.cursorKey) =
        (s.shuffledPorts.drop (s.cursor r.cursorKey)).drop
          (s'.cursor r.cursorKey - s.cursor r.cursorKey) := by
      rw [h.shuffledPorts_eq, List.drop_drop, Nat.add_sub_cancel' (Nat.le_of_lt hlt)]
    have hmore := hrest.2 (Nat.ne_of_gt (Nat.lt_of_le_of_lt (Nat.zero_le _) hlt))
    rw [hdrop] at hmore
    have happend := hcovers.append hmore
    rwa [List.take_append_drop] at happend

/-- The rounds that bring the cursor back to the start cover the ports from the cursor on. -/
theorem rest_of_run {ips : List Ipv4Addr} (hfew : ips.length < 1200) {key : SocketAddr}
    {rounds : List ScanRound} {t : PortScan}
    (hsame : ∀ r ∈ rounds, r.cursorKey = key → r.pubIps = ips)
    (hunder : Transition.Along step (UnderWay key) s rounds)
    (hrun : Transition.run step s rounds = some t) (hend : t.cursor key = 0) :
    Rest ips key s (probed key s rounds) := by
  induction rounds generalizing s with
  | nil =>
      cases hrun
      exact ⟨fun _ => rfl, fun hne => absurd hend hne⟩
  | cons r rounds ih =>
      obtain ⟨s', probes, hstep, hscans, hprobes⟩ := s.exists_step r
      obtain ⟨hnow, hlater⟩ := hunder
      rw [hstep] at hlater
      rw [Transition.run_cons, hstep, Option.bind_some] at hrun
      have hrest := ih (fun r' hr' => hsame r' (List.mem_cons_of_mem _ hr')) hlater hrun
      refine ⟨fun hzero => absurd hzero hnow.1, fun _ => ?_⟩
      rw [probed_cons hstep (hprobes key)]
      by_cases hkey : r.cursorKey = key
      · obtain rfl := hsame r List.mem_cons_self hkey
        subst hkey
        rw [if_pos rfl]
        exact hscans.covers_rest hfew hrest
      · have hcursor := hscans.cursor_of_ne (Ne.symm hkey) hnow.2
        rw [if_neg hkey, List.nil_append, ← hcursor, ← hscans.shuffledPorts_eq]
        exact hrest.2 (by rw [hcursor]; exact hnow.1)

/-- Every port from `1` to `65535` is in the scan, once. -/
theorem count_shuffledPorts (s : PortScan) {port : UInt16} (h : port ≠ 0) :
    s.shuffledPorts.count port = 1 := by
  rw [s.perm.count_eq, allPorts]
  refine List.count_eq_one_of_mem (nodup_portRange (by decide)) ((mem_portRange (by decide)).mpr ?_)
  have hlt := port.toNat_lt
  have hpos : port.toNat ≠ 0 := fun hzero => h (UInt16.toNat_inj.mp hzero)
  omega

/-- From one visit of the start to the next, the scan goes through all ports. -/
theorem Covers.all {ips : List Ipv4Addr} (h : Covers ips s.shuffledPorts probes) {port : UInt16}
    (hport : port ≠ 0) :
    (∀ ip ∈ ips, .v4 ip port ∈ probes) ∧
      ∀ ip, ips = [ip] → probes.count (.v4 ip port) = 1 := by
  have hcount := s.count_shuffledPorts hport
  constructor
  · intro ip hip
    have hmem : port ∈ s.shuffledPorts := List.count_pos_iff.mp (by omega)
    exact h.1 _ (mem_probeTargets.mpr ⟨port, hmem, ip, hip, rfl⟩)
  · rintro ip rfl
    have hinj : Function.Injective fun port => SocketAddr.v4 ip port := by
      intro a b heq
      exact (SocketAddr.v4.inj heq).2
    have htargets : probeTargets s.shuffledPorts [ip] =
        s.shuffledPorts.map fun port => SocketAddr.v4 ip port := by
      simp only [probeTargets, List.map_cons, List.map_nil]
      exact List.flatMap_pure_eq_map _ _
    rw [h.2 rfl, htargets]
    exact (List.count_map_of_injective _ _ hinj port).trans hcount

/-- Whatever rounds there were: no slice was out of range, and all cursors are below `65535`.
A round for a peer with fewer than 1200 IPs moves its cursor on, or probes the rest of the ports
and sets it to `0`.  When the cursor is at `0`, a round for the peer starts, and the first time
that the cursor is at `0` again, every port from `1` to `65535` has been probed at every IP, and
once if there is one IP. -/
theorem global_scan_coverage {shuffledPorts : List UInt16} (perm : shuffledPorts.Perm allPorts)
    {ips : List Ipv4Addr} (hips : ips ≠ []) (hfew : ips.length < 1200)
    (earlier : List ScanRound) :
    let key : SocketAddr := .v4 (ips.head hips) 0
    ∃ s, Transition.run step (new shuffledPorts perm) earlier = some s ∧
      (∀ key' cursor, s.portCursor.get key' = some cursor → cursor < 65535) ∧
      ∀ first, first.pubIps = ips →
        ∃ s' probes, s.globalScan first = some (s', probes) ∧
          (s.cursor key < s'.cursor key ∨
            s'.cursor key = 0 ∧ ∀ port ∈ s.shuffledPorts.drop (s.cursor key), ∀ ip ∈ ips,
              .v4 ip port ∈ probes) ∧
          (s.cursor key = 0 → ∀ rounds t,
            (∀ r ∈ rounds, r.cursorKey = key → r.pubIps = ips) →
            Transition.Along step (UnderWay key) s' rounds →
            Transition.run step s' rounds = some t → t.cursor key = 0 →
            ∀ port ≠ 0,
              (∀ ip ∈ ips, .v4 ip port ∈ probes ++ probed key s' rounds) ∧
              ∀ ip, ips = [ip] → (probes ++ probed key s' rounds).count (.v4 ip port) = 1) := by
  intro key
  obtain ⟨s, hs⟩ := (new shuffledPorts perm).exists_run earlier
  refine ⟨s, hs, ?_, ?_⟩
  · intro key' cursor hget
    have hlt := s.inRange key' cursor hget
    rwa [s.length_shuffledPorts] at hlt
  · rintro first rfl
    obtain ⟨s', probes, hscan⟩ := s.exists_globalScan first
    have hscans := Scans.of_globalScan hscan
    refine ⟨s', probes, hscan, ?_, ?_⟩
    · rcases hscans.covers hfew with ⟨hzero, hcovers⟩ | ⟨hlt, -⟩
      · refine .inr ⟨hzero, fun port hport ip hip => ?_⟩
        exact hcovers.1 _ (mem_probeTargets.mpr ⟨port, hport, ip, hip, rfl⟩)
      · exact .inl hlt
    · intro hstart rounds t hsame hunder hrun hend port hport
      have hcovers := hscans.covers_rest hfew (rest_of_run hfew hsame hunder hrun hend)
      rw [show s.cursor first.cursorKey = 0 from hstart, List.drop_zero] at hcovers
      exact hcovers.all hport

/-- Rounds of the same kind, as long as the cursor is not back at the start. -/
theorem run_replicate {n : Nat} (hkept : s.portCursor.get r.cursorKey ≠ none)
    (hunder : ∀ i < n, (advance r)^[i] (s.cursor r.cursorKey) ≠ 0) :
    Transition.Along step (UnderWay r.cursorKey) s (List.replicate n r) ∧
      ∃ t, Transition.run step s (List.replicate n r) = some t ∧
        t.cursor r.cursorKey = (advance r)^[n] (s.cursor r.cursorKey) := by
  induction n generalizing s with
  | zero => exact ⟨trivial, s, rfl, rfl⟩
  | succ n ih =>
      obtain ⟨s', probes, hstep, hscans, -⟩ := s.exists_step r
      have hkept' : s'.portCursor.get r.cursorKey ≠ none := by
        obtain ⟨index, rfl⟩ := hscans.state
        simp [storeCursor]
      have hunder' : ∀ i < n, (advance r)^[i] (s'.cursor r.cursorKey) ≠ 0 := by
        intro i hi
        rw [hscans.cursor_eq, ← Function.iterate_succ_apply]
        exact hunder (i + 1) (by omega)
      obtain ⟨halong, t, ht, hcursor⟩ := ih hkept' hunder'
      rw [List.replicate_succ, Transition.Along, Transition.run_cons, hstep, Option.bind_some]
      refine ⟨⟨⟨hunder 0 (by omega), fun hclears => hkept hclears.1⟩, halong⟩, t, ht, ?_⟩
      rw [hcursor, hscans.cursor_eq, ← Function.iterate_succ_apply]

/-- A round for a peer with one IP. -/
def oneIpRound : ScanRound := ⟨[⟨10, 0, 0, 1⟩], 1499, by decide, by decide⟩

/-- Forty-four rounds from a new puncher on. -/
theorem global_scan_coverage_cycle :
    ∃ s' probes t, (new allPorts (.refl _)).globalScan oneIpRound = some (s', probes) ∧
      Transition.run step s' (List.replicate 43 oneIpRound) = some t ∧
      ∀ port ≠ 0, (probes ++ probed oneIpRound.cursorKey s' (List.replicate 43 oneIpRound)).count
        (.v4 ⟨10, 0, 0, 1⟩ port) = 1 := by
  obtain ⟨s, hs, -, hround⟩ :=
    global_scan_coverage (.refl allPorts) oneIpRound.pubIps_ne_nil (by decide) []
  cases hs
  obtain ⟨s', probes, hscan, -, hcycle⟩ := hround oneIpRound rfl
  have hscans := Scans.of_globalScan hscan
  have hcursor : s'.cursor oneIpRound.cursorKey = 1498 := by
    rw [hscans.cursor_eq]
    decide
  have hkept : s'.portCursor.get oneIpRound.cursorKey ≠ none := by
    obtain ⟨index, rfl⟩ := hscans.state
    simp [storeCursor]
  obtain ⟨halong, t, ht, hend⟩ := run_replicate (n := 43) hkept (by rw [hcursor]; decide)
  refine ⟨s', probes, t, hscan, ht, fun port hport => ?_⟩
  refine (hcycle rfl _ t ?_ halong ht ?_ port hport).2 _ rfl
  · intro r hr _
    rw [List.eq_of_mem_replicate hr]
  · refine hend.trans ?_
    rw [hcursor]
    decide

end PortScan

end RustP2p
