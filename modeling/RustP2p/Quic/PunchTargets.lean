import RustP2p.Core.PunchRound
import RustP2p.Quic.Protocol

/-!
# Learned addresses as punch targets

A node learns public addresses of a peer from NAT observations, and from the source
of a punch that came directly.  `NatInfo` keeps their IPs and their ports in two lists,
and `public_ipv4_addr` pairs them again: one IP with all ports, or else every IP with
the first port.  `learned_targets_iff` says which histories this rule is good for.
-/

namespace RustP2p

/-! ## Lists without repetitions -/

section PushNew

variable {α : Type} [DecidableEq α] {l xs : List α} {x : α}

theorem mem_foldl_pushNew : x ∈ xs.foldl pushNew l ↔ x ∈ l ∨ x ∈ xs := by
  induction xs generalizing l with
  | nil => simp
  | cons y xs ih => rw [List.foldl_cons, ih, mem_pushNew, List.mem_cons, or_assoc]

/-- The first element is never replaced. -/
theorem head?_foldl_pushNew : (xs.foldl pushNew l).head? = (l ++ xs).head? := by
  induction xs generalizing l with
  | nil => simp
  | cons y xs ih =>
      rw [List.foldl_cons, ih, pushNew]
      split
      next hmem =>
        obtain ⟨a, l, rfl⟩ := List.exists_cons_of_ne_nil (List.ne_nil_of_mem hmem)
        rfl
      next => rw [List.append_assoc, List.singleton_append]

theorem prefix_foldl_pushNew : l <+: xs.foldl pushNew l := by
  induction xs generalizing l with
  | nil => exact List.prefix_refl l
  | cons y xs ih =>
      have hpush : l <+: pushNew l y := by
        rw [pushNew]
        split
        next => exact List.prefix_refl l
        next => exact List.prefix_append l [y]
      exact hpush.trans ih

/-- Pushing the only element again and again. -/
theorem foldl_pushNew_singleton (hall : ∀ y ∈ xs, y = x) : xs.foldl pushNew [x] = [x] := by
  induction xs with
  | nil => rfl
  | cons y xs ih =>
      obtain rfl := hall y List.mem_cons_self
      rw [List.foldl_cons, pushNew_eq_self.mpr List.mem_cons_self]
      exact ih fun y' hy' => hall y' (List.mem_cons_of_mem _ hy')

/-- There is one element in the end exactly when it was the only one all along. -/
theorem foldl_pushNew_eq_singleton (hx : x ∈ xs) :
    xs.foldl pushNew l = [x] ↔ (l = [] ∨ l = [x]) ∧ ∀ y ∈ xs, y = x := by
  constructor
  · intro h
    constructor
    · have hprefix : l <+: [x] := h ▸ prefix_foldl_pushNew
      rw [List.prefix_cons_iff] at hprefix
      rcases hprefix with hnil | ⟨t, rfl, ht⟩
      · exact .inl hnil
      · exact .inr (by rw [List.prefix_nil.mp ht])
    · intro y hy
      have hmem : y ∈ xs.foldl pushNew l := mem_foldl_pushNew.mpr (.inr hy)
      rw [h] at hmem
      exact List.mem_singleton.mp hmem
  · rintro ⟨rfl | rfl, hall⟩
    · cases xs with
      | nil => cases hx
      | cons y ys =>
          obtain rfl := hall y List.mem_cons_self
          exact foldl_pushNew_singleton fun y' hy' => hall y' (List.mem_cons_of_mem _ hy')
    · exact foldl_pushNew_singleton hall

end PushNew

/-! ## What a node learns -/

/-- An observation by another node, or the source of a punch that came directly. -/
inductive Learned where
  | observed (observation : NatObservation)
  | injected (addr : SocketAddr)
deriving DecidableEq, Repr

namespace Learned

/-- What is learned goes into the NAT information. -/
def apply (info : NatInfo) : Learned → NatInfo
  | observed observation => applyObservationToNatInfo info observation
  | injected addr => injectPeerAddr info addr

/-- The IP that is learned, if it is one of IPv4. -/
def ip : Learned → Option Ipv4Addr
  | observed ⟨_, .v4 ip _, _, _⟩ => some ip
  | injected (.v4 ip _) => some ip
  | _ => none

/-- The UDP port that is learned. -/
def udpPort : Learned → Option UInt16
  | observed ⟨.udp, addr, _, _⟩ => some addr.port
  | injected (.v4 _ port) => some port
  | _ => none

/-- The IPv4 UDP address that is learned. -/
def udpAddr : Learned → Option SocketAddr
  | observed ⟨.udp, .v4 ip port, _, _⟩ => some (.v4 ip port)
  | injected (.v4 ip port) => some (.v4 ip port)
  | _ => none

end Learned

/-- The NAT information after a history. -/
def learn (info : NatInfo) (history : List Learned) : NatInfo := history.foldl Learned.apply info

theorem publicIps_apply (info : NatInfo) (e : Learned) :
    (e.apply info).publicIps = e.ip.toList.foldl pushNew info.publicIps := by
  cases e with
  | observed o =>
      obtain ⟨protocol, addr, observer, time⟩ := o
      cases protocol <;> cases addr <;> rfl
  | injected addr => cases addr <;> rfl

theorem publicUdpPorts_apply (info : NatInfo) (e : Learned) :
    (e.apply info).publicUdpPorts = e.udpPort.toList.foldl pushNew info.publicUdpPorts := by
  cases e with
  | observed o =>
      obtain ⟨protocol, addr, observer, time⟩ := o
      cases protocol <;> cases addr <;> rfl
  | injected addr => cases addr <;> rfl

/-- A learned address comes with its IP and its port. -/
theorem Learned.udpAddr_eq_some {e : Learned} {addr : SocketAddr} (h : e.udpAddr = some addr) :
    ∃ ip port, addr = .v4 ip port ∧ e.ip = some ip ∧ e.udpPort = some port := by
  cases e with
  | observed o =>
      obtain ⟨protocol, addr, observer, time⟩ := o
      cases protocol with
      | udp =>
          cases addr with
          | v4 ip port => cases h; exact ⟨ip, port, rfl, rfl, rfl⟩
          | v6 => cases h
      | tcp => cases addr <;> cases h
  | injected addr =>
      cases addr with
      | v4 ip port => cases h; exact ⟨ip, port, rfl, rfl, rfl⟩
      | v6 => cases h

theorem publicIps_learn (info : NatInfo) (history : List Learned) :
    (learn info history).publicIps =
      (history.filterMap Learned.ip).foldl pushNew info.publicIps := by
  induction history generalizing info with
  | nil => rfl
  | cons e history ih =>
      rw [learn, List.foldl_cons, ← learn, ih, publicIps_apply]
      cases h : e.ip with
      | none => rw [List.filterMap_cons_none h]; rfl
      | some ip => rw [List.filterMap_cons_some h]; rfl

theorem publicUdpPorts_learn (info : NatInfo) (history : List Learned) :
    (learn info history).publicUdpPorts =
      (history.filterMap Learned.udpPort).foldl pushNew info.publicUdpPorts := by
  induction history generalizing info with
  | nil => rfl
  | cons e history ih =>
      rw [learn, List.foldl_cons, ← learn, ih, publicUdpPorts_apply]
      cases h : e.udpPort with
      | none => rw [List.filterMap_cons_none h]; rfl
      | some port => rw [List.filterMap_cons_some h]; rfl

/-! ## Targets -/

/-- Every IPv4 UDP address of the history is a public address in the end, and a peer behind a
cone NAT is punched there. -/
def Targeted (info : NatInfo) (history : List Learned) : Prop :=
  ∀ addr ∈ history.filterMap Learned.udpAddr,
    addr ∈ (learn info history).publicIpv4Addr ∧
    ∀ scan rng buf m, (learn info history).natType = .cone → m.Allows .ipv4Udp →
      ∃ scan' effects, punchUdp scan rng buf (learn info history) m = some (scan', effects) ∧
        .trySendViaAll buf addr ∈ effects

/-- At most one IP is ever known. -/
def OneIp (info : NatInfo) (history : List Learned) : Prop :=
  ∃ ip, (info.publicIps = [] ∨ info.publicIps = [ip]) ∧
    ∀ ip' ∈ history.filterMap Learned.ip, ip' = ip

/-- All IPv4 UDP addresses of the history have the first UDP port that is known. -/
def FirstPort (info : NatInfo) (history : List Learned) : Prop :=
  ∀ addr ∈ history.filterMap Learned.udpAddr,
    (info.publicUdpPorts ++ history.filterMap Learned.udpPort).head? = some addr.port

/-- A learned address is public exactly when its IP is the only one, or its port the first. -/
theorem mem_publicIpv4Addr_learn {info : NatInfo} {history : List Learned} {addr : SocketAddr}
    (h : addr ∈ history.filterMap Learned.udpAddr) :
    addr ∈ (learn info history).publicIpv4Addr ↔
      OneIp info history ∨
        (info.publicUdpPorts ++ history.filterMap Learned.udpPort).head? = some addr.port := by
  obtain ⟨e, he, haddr⟩ := List.mem_filterMap.mp h
  obtain ⟨ip, port, rfl, hip, hport⟩ := Learned.udpAddr_eq_some haddr
  have hips : ip ∈ history.filterMap Learned.ip := List.mem_filterMap.mpr ⟨e, he, hip⟩
  have hports : port ∈ history.filterMap Learned.udpPort := List.mem_filterMap.mpr ⟨e, he, hport⟩
  have hone : OneIp info history ↔ (learn info history).publicIps = [ip] := by
    rw [publicIps_learn, foldl_pushNew_eq_singleton hips]
    constructor
    · rintro ⟨ip', hinfo, hall⟩
      obtain rfl := hall ip hips
      exact ⟨hinfo, hall⟩
    · rintro ⟨hinfo, hall⟩
      exact ⟨ip, hinfo, hall⟩
  rw [NatInfo.mem_publicIpv4Addr, hone, ← head?_foldl_pushNew, ← publicUdpPorts_learn]
  constructor
  · rintro ⟨ip', -, port', -, heq, hrule⟩
    cases heq
    exact hrule
  · intro hrule
    refine ⟨ip, ?_, port, ?_, rfl, hrule⟩
    · rw [publicIps_learn]
      exact mem_foldl_pushNew.mpr (.inr hips)
    · rw [publicUdpPorts_learn]
      exact mem_foldl_pushNew.mpr (.inr hports)

/-- The addresses of a history become punch targets exactly when at most one IP is ever known,
or they all have the first UDP port that is known. -/
theorem learned_targets_iff (info : NatInfo) (history : List Learned) :
    Targeted info history ↔ OneIp info history ∨ FirstPort info history := by
  constructor
  · intro h
    by_cases hone : OneIp info history
    · exact .inl hone
    · right
      intro addr haddr
      exact ((mem_publicIpv4Addr_learn haddr).mp (h addr haddr).1).resolve_left hone
  · intro h addr haddr
    have hpublic : addr ∈ (learn info history).publicIpv4Addr :=
      (mem_publicIpv4Addr_learn haddr).mpr (h.imp_right fun hfirst => hfirst addr haddr)
    refine ⟨hpublic, fun scan rng buf m hcone hallowed => ?_⟩
    obtain ⟨scan', effects, scanned, hudp, hmem, -, -⟩ :=
      punchUdp_spec scan rng buf (learn info history) m
    exact ⟨scan', effects, hudp, (hmem _).mpr (.cone hpublic hcone hallowed)⟩

/-- Of two observed addresses that share nothing, the second is not a target. -/
theorem observed_address_lost :
    ¬ Targeted .default
      [.observed ⟨.udp, .v4 ⟨1, 1, 1, 1⟩ 10, ⟨"observer"⟩, 0⟩,
        .observed ⟨.udp, .v4 ⟨2, 2, 2, 2⟩ 20, ⟨"observer"⟩, 0⟩] := by
  intro h
  exact absurd (h (.v4 ⟨2, 2, 2, 2⟩ 20) (by decide)).1 (by decide)

end RustP2p
