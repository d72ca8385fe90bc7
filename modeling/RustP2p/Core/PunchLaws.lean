import RustP2p.Core.PunchRound

/-!
# What a round owes to the peer and to the model

Three laws about the rounds of a puncher, read off the sources of their attempts.
The code does not keep them in general, and the theorems tell exactly when it does.

* `ipv6_probing_iff`: the IPv6 probes do not depend on what is known about IPv4.
* `respects_model_iff`: every attempt is allowed by the punch model.
* `not_skipped_iff`: a peer that a round would try to reach is not skipped.
-/

namespace RustP2p

/-! ## IPv6 probing -/

/-- Both rounds probe all IPv6 addresses, and the same ones. -/
def SameIpv6Probes (n n' : NatInfo) (effects effects' : List PunchEffect) : Prop :=
  (∀ addr ∈ n.ipv6UdpAddr, addr ∈ udpTargets effects) ∧
    (∀ addr ∈ n'.ipv6UdpAddr, addr ∈ udpTargets effects') ∧
    ∀ addr, addr ∈ n.ipv6UdpAddr ∧ addr ∈ udpTargets effects ↔
      addr ∈ n'.ipv6UdpAddr ∧ addr ∈ udpTargets effects'

/-- `punch_udp` gets to the IPv6 addresses, or they are also mapping addresses. -/
def Ipv6Reached (m : PunchModel) (n : NatInfo) : Prop :=
  ¬ ReturnsEarly m n ∨ ∀ addr ∈ n.ipv6UdpAddr, addr ∈ n.mappingUdpAddr

theorem mem_udpTargets {buf : List UInt8} {n : NatInfo} {m : PunchModel}
    {scanned : List SocketAddr} {effects : List PunchEffect}
    (h : ∀ e, e ∈ effects ↔ UdpProbe buf n m scanned e) {addr : SocketAddr} :
    addr ∈ udpTargets effects ↔ ∃ e, UdpProbe buf n m scanned e ∧ e.udpTarget = some addr := by
  simp only [udpTargets, List.mem_filterMap, h]

theorem ipv6Reached_iff {buf : List UInt8} {n : NatInfo} {m : PunchModel}
    {scanned : List SocketAddr} {effects : List PunchEffect} (hv6 : m.Allows .ipv6Udp)
    (hmem : ∀ e, e ∈ effects ↔ UdpProbe buf n m scanned e)
    (hscanned : ∀ addr ∈ scanned, ScanTarget n.publicIps addr) :
    (∀ addr ∈ n.ipv6UdpAddr, addr ∈ udpTargets effects) ↔ Ipv6Reached m n := by
  constructor
  · intro h
    by_cases hearly : ReturnsEarly m n
    · right
      intro addr haddr
      obtain ⟨e, he, htarget⟩ := (mem_udpTargets hmem).mp (h addr haddr)
      obtain ⟨ip, -, -, port, -, rfl⟩ := NatInfo.mem_ipv6UdpAddr.mp haddr
      -- The other probes go to IPv4 addresses, or they are not reached.
      cases he with
      | mapping known allowed =>
          cases htarget
          exact known
      | lan known allowed =>
          cases htarget
          obtain ⟨_, _, _, _, _, heq⟩ := NatInfo.mem_localIpv4Addrs.mp known
          cases heq
      | scan known =>
          cases htarget
          obtain ⟨_, _, _, _, heq⟩ := hscanned _ known
          cases heq
      | cone known natType allowed =>
          cases htarget
          obtain ⟨_, _, _, _, heq, _⟩ := NatInfo.mem_publicIpv4Addr.mp known
          cases heq
      | ipv6 known allowed reached => exact absurd hearly reached
    · exact .inl hearly
  · rintro (hreached | hmapping) addr haddr
    · exact (mem_udpTargets hmem).mpr ⟨_, .ipv6 haddr hv6 hreached, rfl⟩
    · have hpolicy : m.Allows addr.udpPolicy := by
        obtain ⟨ip, -, -, port, -, rfl⟩ := NatInfo.mem_ipv6UdpAddr.mp haddr
        exact hv6
      exact (mem_udpTargets hmem).mpr ⟨_, .mapping (hmapping addr haddr) hpolicy, rfl⟩

/-- Two rounds of `punch_udp` that agree about IPv6 probe all IPv6 addresses, and the same ones,
exactly when neither returns before it gets to them, unless they are also mapping addresses. -/
theorem ipv6_probing_iff {n n' : NatInfo} {m : PunchModel} (hv6 : m.Allows .ipv6Udp)
    (hipv6 : n.ipv6 = n'.ipv6) (hports : n.localUdpPorts = n'.localUdpPorts)
    (scan scan' : PortScan) (rng rng' : PunchRng) (buf buf' : List UInt8) :
    ∃ s effects s' effects', punchUdp scan rng buf n m = some (s, effects) ∧
      punchUdp scan' rng' buf' n' m = some (s', effects') ∧
      (SameIpv6Probes n n' effects effects' ↔ Ipv6Reached m n ∧ Ipv6Reached m n') := by
  obtain ⟨s, effects, scanned, hudp, hmem, -, hscanned⟩ := punchUdp_spec scan rng buf n m
  obtain ⟨s', effects', scanned', hudp', hmem', -, hscanned'⟩ :=
    punchUdp_spec scan' rng' buf' n' m
  have haddrs : n.ipv6UdpAddr = n'.ipv6UdpAddr := by
    simp only [NatInfo.ipv6UdpAddr, hipv6, hports]
  refine ⟨s, effects, s', effects', hudp, hudp', ?_⟩
  rw [SameIpv6Probes, ← ipv6Reached_iff hv6 hmem hscanned,
    ← ipv6Reached_iff hv6 hmem' hscanned']
  constructor
  · rintro ⟨h, h', -⟩
    exact ⟨h, h'⟩
  · rintro ⟨h, h'⟩
    refine ⟨h, h', fun addr => ⟨fun haddr => ?_, fun haddr => ?_⟩⟩
    · have hmem : addr ∈ n'.ipv6UdpAddr := haddrs ▸ haddr.1
      exact ⟨hmem, h' addr hmem⟩
    · have hmem : addr ∈ n.ipv6UdpAddr := haddrs ▸ haddr.1
      exact ⟨hmem, h addr hmem⟩

/-- A peer behind a cone NAT whose IPv6 address is known, too. -/
def dualStackNat : NatInfo :=
  { NatInfo.default with ipv6 := some ⟨#v[0x2400, 0, 0, 0, 0, 0, 0, 1]⟩, localUdpPorts := [5000] }

/-- The same peer behind a symmetric NAT. -/
def symmetricDualStackNat : NatInfo := { dualStackNat with natType := .symmetric }

/-- The choices of a round that shuffles nothing. -/
def plainRng : PunchRng := ⟨1200, by decide, id, fun ports => .refl ports⟩

/-- A new puncher that walks through the ports in their order. -/
def plainScan : PortScan := .new allPorts (.refl allPorts)

/-- When the model leaves out UDP over IPv4, the NAT type plays no part. -/
theorem ipv6_probing_iff_ipv6_only :
    ∃ s effects s' effects',
      punchUdp plainScan plainRng [] dualStackNat ⟨[⟨{.ipv6Udp}⟩]⟩ = some (s, effects) ∧
      punchUdp plainScan plainRng [] symmetricDualStackNat ⟨[⟨{.ipv6Udp}⟩]⟩ = some (s', effects') ∧
      SameIpv6Probes dualStackNat symmetricDualStackNat effects effects' := by
  have hallowed : PunchModel.Allows ⟨[⟨{.ipv6Udp}⟩]⟩ .ipv6Udp := by decide
  have hagree : dualStackNat.ipv6 = symmetricDualStackNat.ipv6 := rfl
  obtain ⟨s, effects, s', effects', h, h', hiff⟩ :=
    ipv6_probing_iff hallowed hagree rfl plainScan plainScan plainRng plainRng [] []
  exact ⟨s, effects, s', effects', h, h', hiff.mpr ⟨.inl (by decide), .inl (by decide)⟩⟩

/-- Behind a symmetric NAT without a known IP, the IPv6 address is not probed. -/
theorem ipv6_not_probed :
    ¬ ∀ s effects s' effects',
      punchUdp plainScan plainRng [] dualStackNat .all = some (s, effects) →
      punchUdp plainScan plainRng [] symmetricDualStackNat .all = some (s', effects') →
      SameIpv6Probes dualStackNat symmetricDualStackNat effects effects' := by
  intro h
  have hsame := h _ _ _ _ rfl rfl
  exact absurd (hsame.2.1 (.v6 ⟨#v[0x2400, 0, 0, 0, 0, 0, 0, 1]⟩ 5000 0 0) (by decide +kernel))
    (by decide +kernel)

/-! ## The punch model and the attempts -/

/-- Every attempt is allowed, and nothing is attempted with an empty model. -/
def RespectsModel (m : PunchModel) (effects : List PunchEffect) : Prop :=
  (∀ e ∈ effects, m.Allows e.policy) ∧ (m.set = [] → effects = [])

/-- The UDP probes are allowed. -/
theorem UdpProbe.allowed {buf : List UInt8} {n : NatInfo} {m : PunchModel}
    {scanned : List SocketAddr} {e : PunchEffect} (h : UdpProbe buf n m scanned e)
    (hsome : scanned ≠ [] ↔ ScansPorts m n)
    (hscanned : ∀ addr ∈ scanned, ScanTarget n.publicIps addr) :
    m.Allows e.policy := by
  cases h with
  | mapping known allowed => exact allowed
  | lan known allowed =>
      obtain ⟨ip, -, -, port, -, rfl⟩ := NatInfo.mem_localIpv4Addrs.mp known
      exact allowed
  | scan known =>
      obtain ⟨ip, -, port, -, rfl⟩ := hscanned _ known
      exact (hsome.mp (List.ne_nil_of_mem known)).1
  | cone known natType allowed =>
      obtain ⟨ip, -, port, -, rfl, -⟩ := NatInfo.mem_publicIpv4Addr.mp known
      exact allowed
  | ipv6 known allowed reached =>
      obtain ⟨ip, -, -, port, -, rfl⟩ := NatInfo.mem_ipv6UdpAddr.mp known
      exact allowed

/-- The TCP connections are allowed, but those to mapping addresses only if these are. -/
theorem TcpAttempt.allowed {n : NatInfo} {m : PunchModel} {addr : SocketAddr} {timeout : Nat}
    (h : TcpAttempt n m addr timeout)
    (hmapping : addr ∈ n.mappingTcpAddr → m.Allows addr.tcpPolicy) : m.Allows addr.tcpPolicy := by
  cases h with
  | mapping known => exact hmapping known
  | lan known allowed =>
      obtain ⟨-, -, rfl⟩ := NatInfo.localIpv4Tcp_eq_some.mp known
      exact allowed
  | wan known allowed =>
      obtain ⟨-, ip, -, rfl⟩ := NatInfo.mem_publicIpv4Tcp.mp known
      exact allowed
  | ipv6 known allowed =>
      obtain ⟨ip, -, rfl⟩ := Option.map_eq_some_iff.mp known
      exact allowed

/-- A round respects the model exactly when the model allows TCP to all mapping addresses that
it connects to. -/
theorem respects_model_iff (p : FullPuncher) (rng : PunchRng) (time : Nat)
    (tcpBuf : Option (List UInt8)) (udpBuf : List UInt8) (info : PunchInfo) :
    ∃ p' effects, p.punchNow rng time tcpBuf udpBuf info = some (p', effects) ∧
      (RespectsModel info.punchModel effects ↔
        ∀ addr ∈ info.peerNatInfo.mappingTcpAddr, p.natConfig.Connects addr →
          info.punchModel.Allows addr.tcpPolicy) := by
  obtain ⟨p', effects, scanned, ttl, hpunch, hmem, hsome, hscanned⟩ :=
    p.punchNow_spec rng time tcpBuf udpBuf info
  refine ⟨p', effects, hpunch, ?_⟩
  constructor
  · rintro ⟨hallowed, -⟩ addr haddr hconnects
    obtain ⟨bindAddr, hbind⟩ := NatQueryConfig.connects_iff.mp hconnects
    exact hallowed (.connectTcp addr bindAddr ttl 3000 tcpBuf)
      ((hmem _).mpr (.inr ⟨addr, 3000, bindAddr, .mapping haddr, hbind, rfl⟩))
  · intro hmapping
    have hallowed : ∀ e ∈ effects, info.punchModel.Allows e.policy := by
      intro e he
      rcases (hmem e).mp he with hudp | ⟨addr, timeout, bindAddr, htcp, hbind, rfl⟩
      · exact hudp.allowed hsome hscanned
      · exact htcp.allowed fun known =>
          hmapping addr known (NatQueryConfig.connects_iff.mpr ⟨bindAddr, hbind⟩)
    refine ⟨hallowed, fun hempty => ?_⟩
    rw [List.eq_nil_iff_forall_not_mem]
    intro e he
    exact (hallowed e he).1 hempty

/-- A new puncher without IPv6. -/
def plainPuncher : FullPuncher := ⟨⟨∅⟩, plainScan, ⟨none, none, false⟩, false⟩

/-- A peer with one mapped TCP address. -/
def mappedTcpNat : NatInfo :=
  { NatInfo.default with mappingTcpAddr := [.v4 ⟨10, 0, 0, 1⟩ 4000] }

/-- The empty model does not keep a round from the mapped TCP address. -/
theorem model_not_respected :
    ¬ ∀ p effects, plainPuncher.punchNow plainRng 0 none [] ⟨.empty, mappedTcpNat⟩ =
      some (p, effects) → RespectsModel .empty effects := by
  intro h
  exact absurd ((h _ _ rfl).2 rfl) (by decide)

/-! ## Targets and the backoff -/

/-- Nothing is attempted but what `flag` looks at. -/
def NothingElse (p : FullPuncher) (m : PunchModel) (n : NatInfo) : Prop :=
  (∀ addr ∈ n.mappingUdpAddr, m.Allows addr.udpPolicy → ¬ p.Sends addr) ∧
    (∀ addr ∈ n.mappingTcpAddr, ¬ p.natConfig.Connects addr) ∧
    ¬ ScansPorts m n ∧
    (m.Allows .ipv6Udp → ReturnsEarly m n ∨ n.ipv6UdpAddr = [] ∨ p.mainUdpV6 = false) ∧
    (m.Allows .ipv6Tcp → n.ipv6 = none ∨ p.natConfig.enableIpv6 = false)

section

variable {p : FullPuncher} {tcpBuf : Option (List UInt8)} {udpBuf : List UInt8}
  {ttl : Option UInt8} {info : PunchInfo} {scanned : List SocketAddr} {effects : List PunchEffect}

theorem mem_attempts
    (hmem : ∀ e, e ∈ effects ↔ FullPuncher.Attempt p.natConfig tcpBuf udpBuf ttl info scanned e)
    (e : PunchEffect) : e ∈ p.attempts effects ↔
      FullPuncher.Attempt p.natConfig tcpBuf udpBuf ttl info scanned e ∧
        e.attempted p.mainUdpV6 = true := by
  rw [FullPuncher.attempts, List.mem_filter, hmem]

theorem nothingElse_of_nil
    (hmem : ∀ e, e ∈ effects ↔ FullPuncher.Attempt p.natConfig tcpBuf udpBuf ttl info scanned e)
    (hsome : scanned ≠ [] ↔ ScansPorts info.punchModel info.peerNatInfo)
    (hscanned : ∀ addr ∈ scanned, ScanTarget info.peerNatInfo.publicIps addr)
    (hnil : p.attempts effects = []) : NothingElse p info.punchModel info.peerNatInfo := by
  have hnone : ∀ e, FullPuncher.Attempt p.natConfig tcpBuf udpBuf ttl info scanned e →
      ¬ e.attempted p.mainUdpV6 = true := by
    intro e hattempt hattempted
    have he := (mem_attempts hmem e).mpr ⟨hattempt, hattempted⟩
    rw [hnil] at he
    cases he
  have htcp : ∀ {addr timeout}, TcpAttempt info.peerNatInfo info.punchModel addr timeout →
      ¬ p.natConfig.Connects addr := by
    intro addr timeout hattempt hconnects
    obtain ⟨bindAddr, hbind⟩ := NatQueryConfig.connects_iff.mp hconnects
    exact hnone _ (.inr ⟨addr, timeout, bindAddr, hattempt, hbind, rfl⟩) rfl
  refine ⟨?_, fun addr haddr => htcp (.mapping haddr), ?_, ?_, ?_⟩
  · intro addr haddr hallowed hsends
    exact hnone _ (.inl (.mapping haddr hallowed)) (Bool.or_eq_true_iff.mpr hsends)
  · intro hscan
    obtain ⟨addr, haddr⟩ := List.exists_mem_of_ne_nil _ (hsome.mpr hscan)
    obtain ⟨ip, -, port, -, rfl⟩ := hscanned addr haddr
    exact hnone _ (.inl (.scan haddr)) rfl
  · intro hallowed
    by_cases hearly : ReturnsEarly info.punchModel info.peerNatInfo
    · exact .inl hearly
    · right
      cases hmain : p.mainUdpV6 with
      | false => exact .inr rfl
      | true =>
          left
          rw [List.eq_nil_iff_forall_not_mem]
          intro addr haddr
          exact hnone _ (.inl (.ipv6 haddr hallowed hearly))
            (Bool.or_eq_true_iff.mpr (.inr hmain))
  · intro hallowed
    cases hipv6 : info.peerNatInfo.ipv6 with
    | none => exact .inl rfl
    | some ip =>
        right
        have haddr : info.peerNatInfo.ipv6TcpAddr =
            some (.v6 ip info.peerNatInfo.localTcpPort 0 0) := by
          rw [NatInfo.ipv6TcpAddr, hipv6, Option.map_some]
        have hrefused := htcp (.ipv6 haddr hallowed)
        simpa [NatQueryConfig.Connects, SocketAddr.isIpv4] using hrefused

theorem nil_of_nothingElse
    (hmem : ∀ e, e ∈ effects ↔ FullPuncher.Attempt p.natConfig tcpBuf udpBuf ttl info scanned e)
    (hsome : scanned ≠ [] ↔ ScansPorts info.punchModel info.peerNatInfo)
    (hflag : info.peerNatInfo.flag = none)
    (hnothing : NothingElse p info.punchModel info.peerNatInfo) : p.attempts effects = [] := by
  obtain ⟨hcone, hwan, hlan, hlanTcp⟩ := NatInfo.flag_eq_none_iff.mp hflag
  obtain ⟨hmapping, hmappingTcp, hscan, hipv6, hipv6Tcp⟩ := hnothing
  rw [List.eq_nil_iff_forall_not_mem]
  intro e he
  obtain ⟨hattempt, hattempted⟩ := (mem_attempts hmem e).mp he
  rcases hattempt with hudp | ⟨addr, timeout, bindAddr, hattempt, hbind, rfl⟩
  · cases hudp with
    | mapping known allowed =>
        exact hmapping _ known allowed (Bool.or_eq_true_iff.mp hattempted)
    | lan known allowed => rw [hlan] at known; cases known
    | scan known => exact hscan (hsome.mp (List.ne_nil_of_mem known))
    | cone known natType allowed => rw [hcone] at known; cases known
    | ipv6 known allowed reached =>
        rcases hipv6 allowed with hearly | hnil | hmain
        · exact reached hearly
        · rw [hnil] at known; cases known
        · obtain ⟨ip, -, -, port, -, rfl⟩ := NatInfo.mem_ipv6UdpAddr.mp known
          rw [hmain] at hattempted
          cases hattempted
  · have hconnects : p.natConfig.Connects addr := NatQueryConfig.connects_iff.mpr ⟨bindAddr, hbind⟩
    cases hattempt with
    | mapping known => exact hmappingTcp _ known hconnects
    | lan known allowed => rw [hlanTcp] at known; cases known
    | wan known allowed => rw [hwan] at known; cases known
    | ipv6 known allowed =>
        obtain ⟨ip, hip, rfl⟩ := Option.map_eq_some_iff.mp known
        rcases hipv6Tcp allowed with hnone | hdisabled
        · rw [hnone] at hip; cases hip
        · simp [NatQueryConfig.Connects, SocketAddr.isIpv4, hdisabled] at hconnects

/-- When `flag` finds nothing, a round attempts nothing exactly when there is nothing else. -/
theorem attempts_eq_nil_iff
    (hmem : ∀ e, e ∈ effects ↔ FullPuncher.Attempt p.natConfig tcpBuf udpBuf ttl info scanned e)
    (hsome : scanned ≠ [] ↔ ScansPorts info.punchModel info.peerNatInfo)
    (hscanned : ∀ addr ∈ scanned, ScanTarget info.peerNatInfo.publicIps addr)
    (hflag : info.peerNatInfo.flag = none) :
    p.attempts effects = [] ↔ NothingElse p info.punchModel info.peerNatInfo :=
  ⟨nothingElse_of_nil hmem hsome hscanned, nil_of_nothingElse hmem hsome hflag⟩

end

/-- A first round is needed exactly when `flag` finds something. -/
theorem FullPuncher.needPunch_iff {p : FullPuncher} {info : PunchInfo}
    (hfirst : ∀ id, info.peerNatInfo.flag = some id → p.backoff.punchStats.get id = none)
    (time : Nat) : p.needPunch time info = true ↔ info.peerNatInfo.Flagged := by
  rw [← NatInfo.flag_ne_none_iff, FullPuncher.needPunch, Puncher.needPunch]
  cases hflag : info.peerNatInfo.flag with
  | none => simp
  | some id => simp [hfirst id hflag, shouldPunch, PunchStats.default]

/-- If a round would attempt a send or a connection, then it is needed and `punch` runs it. -/
def NotSkipped (p : FullPuncher) (rng : PunchRng) (asked started : Nat) (buf : List UInt8)
    (info : PunchInfo) : Prop :=
  ∀ p' effects, p.punchNow rng started (some buf) buf info = some (p', effects) →
    p.attempts effects ≠ [] →
    p.needPunch asked info = true ∧ p.punch rng asked started buf info = some (p', effects)

/-- Before its first round a peer is not skipped exactly when `flag` finds an address, or nothing
else is attempted. -/
theorem not_skipped_iff {p : FullPuncher} {info : PunchInfo}
    (hfirst : ∀ id, info.peerNatInfo.flag = some id → p.backoff.punchStats.get id = none)
    (rng : PunchRng) (asked started : Nat) (buf : List UInt8) :
    NotSkipped p rng asked started buf info ↔
      info.peerNatInfo.Flagged ∨ NothingElse p info.punchModel info.peerNatInfo := by
  have hneed := FullPuncher.needPunch_iff hfirst asked
  by_cases hflagged : info.peerNatInfo.Flagged
  · -- `punch` runs the round.
    have hneeded := hneed.mpr hflagged
    refine iff_of_true ?_ (.inl hflagged)
    intro p' effects hpunch _
    exact ⟨hneeded, by rw [FullPuncher.punch, if_pos hneeded, hpunch]⟩
  · have hflag : info.peerNatInfo.flag = none := by
      by_contra hne
      exact hflagged (NatInfo.flag_ne_none_iff.mp hne)
    obtain ⟨p', effects, scanned, ttl, hpunch, hmem, hsome, hscanned⟩ :=
      p.punchNow_spec rng started (some buf) buf info
    rw [or_iff_right hflagged, ← attempts_eq_nil_iff hmem hsome hscanned hflag]
    constructor
    · intro h
      by_contra hne
      exact hflagged (hneed.mp (h p' effects hpunch hne).1)
    · intro hnil p'' effects' hpunch' hne
      rw [hpunch] at hpunch'
      cases hpunch'
      exact absurd hnil hne

/-- A peer whose public address is known. -/
theorem not_skipped_iff_cone :
    NotSkipped plainPuncher plainRng 0 0 [] ⟨.all, PunchHistory.coneNat⟩ := by
  refine (not_skipped_iff (p := plainPuncher) ?_ plainRng 0 0 []).mpr ?_
  · intro id _
    rfl
  · exact .inl (.inl (by decide))

/-- A new puncher with IPv6. -/
def dualStackPuncher : FullPuncher := ⟨⟨∅⟩, plainScan, ⟨none, none, true⟩, true⟩

/-- A peer of which only the IPv6 address is known is skipped. -/
theorem ipv6_peer_skipped :
    ¬ NotSkipped dualStackPuncher plainRng 0 0 [] ⟨.all, dualStackNat⟩ := by
  intro h
  exact absurd (h _ _ rfl (by decide +kernel)).1 (by decide)

end RustP2p
