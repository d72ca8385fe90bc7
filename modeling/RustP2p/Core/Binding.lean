import RustP2p.Core.Addr

/-!
# Binding the main sockets

`bind_main_udp` and `bind_tcp_with` of `endpoint/service.rs`.  Both bind a socket for
IPv4 and one for IPv6 that are to share a port.  On port zero the system chooses a
port for the first socket, which can be taken for the second one, so they try again
with a new port.

What the operating system answers is a `PortBinder`: the answer to each call may be
another one.  `tcp_pairing` says what two TCP listeners have in common.
`shared_port_iff` is about the UDP sockets.  After 20 conflicts they are bound to two
ports.
-/

namespace RustP2p

/-! ## What the operating system answers -/

/-- `std::io::Error` with the code of the operating system. -/
structure BindError extends IoError where
  rawOsError : Option Int
deriving DecidableEq, Repr

/-- A `TcpListener` or `UdpSocket`.  The system gives every bound socket a port of its own. -/
structure BoundSocket where
  port : UInt16
  port_ne_zero : port ≠ 0
  /-- The error of `local_addr`, if it fails. -/
  localAddrError : Option BindError
deriving DecidableEq

/-- The port of `local_addr`. -/
def BoundSocket.localPort (socket : BoundSocket) : Except BindError UInt16 :=
  match socket.localAddrError with
  | none => .ok socket.port
  | some e => .error e

theorem BoundSocket.eq_port {socket : BoundSocket} {port : UInt16}
    (h : socket.localPort = .ok port) : port = socket.port := by
  simp only [localPort] at h
  split at h
  next => exact (Except.ok.inj h).symm
  next => cases h

/-- The bind operations for one address family.  They are numbered, and each has its own
answer.  A success on a port other than zero has that port. -/
structure PortBinder where
  bind : Nat → UInt16 → Except BindError BoundSocket
  samePort : ∀ {n port socket}, port ≠ 0 → bind n port = .ok socket → socket.port = port

/-- The bind operations, by the socket address. -/
structure SocketBinder where
  bind : Nat → SocketAddr → Except BindError BoundSocket
  samePort : ∀ {n addr socket}, addr.port ≠ 0 → bind n addr = .ok socket →
    socket.port = addr.port

/-- `v4_addr`. -/
def v4Addr (ip : Option Ipv4Addr) (port : UInt16) : SocketAddr :=
  .v4 (ip.getD .unspecified) port

/-- `v6_addr`. -/
def v6Addr (ip : Option Ipv6Addr) (port : UInt16) : SocketAddr :=
  .v6 (ip.getD .unspecified) port 0 0

namespace SocketBinder

/-- The ports of one IPv4 address. -/
def atV4 (binder : SocketBinder) (ip : Option Ipv4Addr) : PortBinder where
  bind n port := binder.bind n (v4Addr ip port)
  samePort := @fun _ port _ h => @SocketBinder.samePort binder _ (v4Addr ip port) _ h

/-- The ports of one IPv6 address. -/
def atV6 (binder : SocketBinder) (ip : Option Ipv6Addr) : PortBinder where
  bind n port := binder.bind n (v6Addr ip port)
  samePort := @fun _ port _ h => @SocketBinder.samePort binder _ (v6Addr ip port) _ h

end SocketBinder

/-! ## TCP -/

/-- `is_tcp_port_conflict`. -/
def isTcpPortConflict (windows : Bool) (error : BindError) : Bool :=
  error.kind = .addrInUse || (windows && error.rawOsError = some 10013)

/-- A pair of listeners or the error of `bind_tcp_with`. -/
abbrev TcpResult := Except BindError (Option BoundSocket × Option BoundSocket)

section Tcp

variable (windows : Bool) (configuredPort udpPort : UInt16) (explicitIpv6 : Bool)
  (bindV4 bindV6 : PortBinder)

/-- `bind_v4_with_fallback`. -/
def bindV4WithFallback (preferredPort : UInt16) : Except BindError BoundSocket :=
  match bindV4.bind 0 preferredPort with
  | .ok listener => .ok listener
  | .error error =>
      if configuredPort = 0 ∧ isTcpPortConflict windows error then bindV4.bind 1 0
      else .error error

/-- The retry loop of `bind_tcp_with`, `none` when the fuel is used up.  `n4` and `n6` number
the next operations. -/
def bindTcpLoop : Nat → (attempts n4 n6 : Nat) → Option TcpResult
  | 0, _, _, _ => none
  | fuel + 1, attempts, n4, n6 =>
      match bindV4.bind n4 0 with
      | .error error => some (.error error)
      | .ok v4 =>
          match v4.localPort with
          | .error error => some (.error error)
          | .ok v4Port =>
              match bindV6.bind n6 v4Port with
              | .ok v6 => some (.ok (some v4, some v6))
              | .error error =>
                  if explicitIpv6 ∧ ¬ isTcpPortConflict windows error then some (.error error)
                  else if ¬ isTcpPortConflict windows error then some (.ok (some v4, none))
                  else if attempts = 20 then
                    if ¬ explicitIpv6 then some (.ok (some v4, none)) else some (.error error)
                  else bindTcpLoop fuel (attempts + 1) (n4 + 1) (n6 + 1)

/-- `bind_tcp_with` after the first IPv4 listener, which took `n4` operations. -/
def bindTcpV6 (fuel n4 : Nat) (v4 : BoundSocket) : Option TcpResult :=
  match v4.localPort with
  | .error error => some (.error error)
  | .ok v4Port =>
      match bindV6.bind 0 v4Port with
      | .ok v6 => some (.ok (some v4, some v6))
      | .error error =>
          if explicitIpv6 ∧ (configuredPort ≠ 0 ∨ ¬ isTcpPortConflict windows error) then
            some (.error error)
          else if configuredPort ≠ 0 ∨ ¬ isTcpPortConflict windows error then
            some (.ok (some v4, none))
          else bindTcpLoop windows explicitIpv6 bindV4 bindV6 fuel 1 n4 1

/-- `bind_tcp_with`. -/
def bindTcpWith (fuel : Nat) (enableIpv6 : Bool) : Option TcpResult :=
  let preferredPort := if configuredPort = 0 then udpPort else configuredPort
  if ¬ enableIpv6 then
    some ((bindV4WithFallback windows configuredPort bindV4 preferredPort).map
      fun listener => (some listener, none))
  else
    match bindV4.bind 0 preferredPort with
    | .ok v4 => bindTcpV6 windows configuredPort explicitIpv6 bindV4 bindV6 fuel 1 v4
    | .error error =>
        if configuredPort = 0 ∧ isTcpPortConflict windows error then
          match bindV4.bind 1 0 with
          | .ok v4 => bindTcpV6 windows configuredPort explicitIpv6 bindV4 bindV6 fuel 2 v4
          | .error error => some (.error error)
        else some (.error error)

end Tcp

/-- What the listeners have in common. -/
structure TcpPairing (configuredPort : UInt16) (enableIpv6 explicitIpv6 : Bool)
    (v4 v6 : Option BoundSocket) : Prop where
  ipv4 : v4.isSome = true
  samePort : ∀ s4 s6, v4 = some s4 → v6 = some s6 → s4.port = s6.port
  explicit : enableIpv6 = true → explicitIpv6 = true → v6.isSome = true
  disabled : enableIpv6 = false → v6 = none
  configured : configuredPort ≠ 0 → ∀ s4, v4 = some s4 → s4.port = configuredPort

/-- There is a result, and if it is two listeners, they are paired. -/
def Pairs (configuredPort : UInt16) (enableIpv6 explicitIpv6 : Bool) (r : Option TcpResult) :
    Prop :=
  ∃ result, r = some result ∧ ∀ v4 v6, result = .ok (v4, v6) →
    TcpPairing configuredPort enableIpv6 explicitIpv6 v4 v6

section TcpPairs

variable {windows : Bool} {configuredPort : UInt16} {explicitIpv6 : Bool}
  {bindV4 bindV6 : PortBinder} {v4 v6 : BoundSocket}

theorem pairs_error {enableIpv6 : Bool} (error : BindError) :
    Pairs configuredPort enableIpv6 explicitIpv6 (some (.error error)) := by
  refine ⟨_, rfl, ?_⟩
  intro v4 v6 h
  cases h

theorem pairs_both (hport : v6.port = v4.port)
    (hconf : configuredPort ≠ 0 → v4.port = configuredPort) :
    Pairs configuredPort true explicitIpv6 (some (.ok (some v4, some v6))) := by
  refine ⟨_, rfl, ?_⟩
  intro _ _ h
  cases h
  refine ⟨rfl, ?_, fun _ _ => rfl, ?_, ?_⟩
  · intro s4 s6 h4 h6
    cases h4
    cases h6
    exact hport.symm
  · intro h
    cases h
  · intro hne s4 h4
    cases h4
    exact hconf hne

theorem pairs_ipv4 {enableIpv6 : Bool} (himplicit : enableIpv6 = true → explicitIpv6 = false)
    (hconf : configuredPort ≠ 0 → v4.port = configuredPort) :
    Pairs configuredPort enableIpv6 explicitIpv6 (some (.ok (some v4, none))) := by
  refine ⟨_, rfl, ?_⟩
  intro _ _ h
  cases h
  refine ⟨rfl, ?_, ?_, fun _ => rfl, ?_⟩
  · intro s4 s6 h4 h6
    cases h6
  · intro henabled hexplicit
    rw [himplicit henabled] at hexplicit
    cases hexplicit
  · intro hne s4 h4
    cases h4
    exact hconf hne

/-- An IPv6 listener on the port of the IPv4 one. -/
theorem port_of_localPort {port : UInt16} {n : Nat} (hlocal : v4.localPort = .ok port)
    (hbind : bindV6.bind n port = .ok v6) : v6.port = v4.port := by
  obtain rfl := BoundSocket.eq_port hlocal
  exact bindV6.samePort v4.port_ne_zero hbind

/-- The loop ends at the latest with the 20th attempt. -/
theorem pairs_bindTcpLoop {fuel attempts n4 n6 : Nat} (hattempts : attempts ≤ 20)
    (hfuel : 20 < fuel + attempts) :
    Pairs 0 true explicitIpv6
      (bindTcpLoop windows explicitIpv6 bindV4 bindV6 fuel attempts n4 n6) := by
  induction fuel generalizing attempts n4 n6 with
  | zero => omega
  | succ fuel ih =>
      rw [bindTcpLoop]
      split
      next error _ => exact pairs_error error
      next v4 _ =>
        split
        next error _ => exact pairs_error error
        next port hlocal =>
          split
          next v6 hbind => exact pairs_both (port_of_localPort hlocal hbind) (absurd rfl)
          next error _ =>
            split
            next => exact pairs_error error
            next hexplicit =>
              split
              next hconflict =>
                refine pairs_ipv4 (fun _ => ?_) (absurd rfl)
                exact Bool.eq_false_iff.mpr fun h => hexplicit ⟨h, hconflict⟩
              next =>
                split
                next =>
                  split
                  next himplicit =>
                    exact pairs_ipv4 (fun _ => Bool.eq_false_iff.mpr himplicit) (absurd rfl)
                  next => exact pairs_error error
                next hmore => exact ih (by omega) (by omega)

theorem pairs_bindTcpV6 {fuel n4 : Nat} (hfuel : 20 ≤ fuel)
    (hconf : configuredPort ≠ 0 → v4.port = configuredPort) :
    Pairs configuredPort true explicitIpv6
      (bindTcpV6 windows configuredPort explicitIpv6 bindV4 bindV6 fuel n4 v4) := by
  simp only [bindTcpV6]
  split
  next error _ => exact pairs_error error
  next port hlocal =>
    split
    next v6 hbind => exact pairs_both (port_of_localPort hlocal hbind) hconf
    next error _ =>
      split
      next => exact pairs_error error
      next hexplicit =>
        split
        next hfinal =>
          refine pairs_ipv4 (fun _ => ?_) hconf
          exact Bool.eq_false_iff.mpr fun h => hexplicit ⟨h, hfinal⟩
        next hretry =>
          obtain rfl : configuredPort = 0 := by
            by_contra hne
            exact hretry (Or.inl hne)
          exact pairs_bindTcpLoop (by decide) (by omega)

theorem pairs_bindV4WithFallback {preferredPort : UInt16}
    (hpreferred : configuredPort ≠ 0 → preferredPort = configuredPort) :
    Pairs configuredPort false explicitIpv6
      (some ((bindV4WithFallback windows configuredPort bindV4 preferredPort).map
        fun listener => (some listener, none))) := by
  simp only [bindV4WithFallback]
  split
  next v4 hbind =>
    refine pairs_ipv4 (fun h => by cases h) ?_
    intro hne
    obtain rfl := hpreferred hne
    exact bindV4.samePort hne hbind
  next error _ =>
    split
    next hfree =>
      cases hbind : bindV4.bind 1 0 with
      | error error => exact pairs_error error
      | ok v4 => exact pairs_ipv4 (fun h => by cases h) (absurd hfree.1)
    next => exact pairs_error error

end TcpPairs

/-- Whatever the system answers, `bind_tcp_with` comes to an end after at most 20 turns of its
loop, and the listeners it returns are paired. -/
theorem tcp_pairing (windows : Bool) (configuredPort udpPort : UInt16)
    (enableIpv6 explicitIpv6 : Bool) (bindV4 bindV6 : PortBinder) (more : Nat) :
    ∃ result,
      bindTcpWith windows configuredPort udpPort explicitIpv6 bindV4 bindV6 (20 + more)
        enableIpv6 = some result ∧
      ∀ v4 v6, result = .ok (v4, v6) →
        TcpPairing configuredPort enableIpv6 explicitIpv6 v4 v6 := by
  have hfuel : 20 ≤ 20 + more := Nat.le_add_right 20 more
  have hpreferred : configuredPort ≠ 0 →
      (if configuredPort = 0 then udpPort else configuredPort) = configuredPort := fun h => if_neg h
  change Pairs configuredPort enableIpv6 explicitIpv6 _
  simp only [bindTcpWith]
  cases enableIpv6 with
  | false => exact pairs_bindV4WithFallback hpreferred
  | true =>
      rw [if_neg (by decide)]
      split
      next v4 hbind =>
        refine pairs_bindTcpV6 hfuel ?_
        intro hne
        rw [hpreferred hne] at hbind
        exact bindV4.samePort hne hbind
      next error _ =>
        split
        next hfree =>
          split
          next v4 _ => exact pairs_bindTcpV6 hfuel (absurd hfree.1)
          next error _ => exact pairs_error error
        next => exact pairs_error error

/-! ## UDP -/

/-- The two main sockets or the error of `bind_main_udp`. -/
abbrev UdpResult := Except BindError (BoundSocket × Option BoundSocket)

/-- The pairing loop of `bind_main_udp` and what follows it.  `n` attempts were made, so that
`n` is the number of the next IPv4 operation. -/
def pairMainUdp (bindV4 bindV6 : PortBinder) : (left n : Nat) → BoundSocket → UdpResult
  | 0, n, mainV6 =>
      match bindV4.bind n 0 with
      | .ok mainV4 => .ok (mainV4, some mainV6)
      | .error error => .error error
  | left + 1, n, mainV6 =>
      match mainV6.localPort with
      | .error error => .error error
      | .ok port =>
          match bindV4.bind n port with
          | .ok mainV4 => .ok (mainV4, some mainV6)
          | .error _ =>
              match bindV6.bind (n + 1) 0 with
              | .ok mainV6 => pairMainUdp bindV4 bindV6 left (n + 1) mainV6
              | .error error => .error error

/-- `bind_v6_same_port`. -/
def bindV6SamePort (bindUdpV6 : SocketBinder) (mainV4 : BoundSocket) (addr : SocketAddr)
    (explicit : Bool) : UdpResult :=
  match bindUdpV6.bind 0 addr with
  | .ok mainV6 => .ok (mainV4, some mainV6)
  | .error error => if ¬ explicit then .ok (mainV4, none) else .error error

/-- `bind_main_udp`. -/
def bindMainUdp (bindUdpV4 bindUdpV6 : SocketBinder) (port : UInt16) (enableIpv6 : Bool)
    (bindIpv4 : Option Ipv4Addr) (bindIpv6 : Option Ipv6Addr) : UdpResult :=
  if ¬ enableIpv6 then
    (bindUdpV4.bind 0 (v4Addr bindIpv4 port)).map fun mainV4 => (mainV4, none)
  else if port ≠ 0 then
    match bindUdpV4.bind 0 (v4Addr bindIpv4 port) with
    | .ok mainV4 => bindV6SamePort bindUdpV6 mainV4 (v6Addr bindIpv6 port) bindIpv6.isSome
    | .error error => .error error
  else
    match bindUdpV6.bind 0 (v6Addr bindIpv6 0) with
    | .ok mainV6 => pairMainUdp (bindUdpV4.atV4 bindIpv4) (bindUdpV6.atV6 bindIpv6) 20 0 mainV6
    | .error error =>
        if bindIpv6 = none then
          (bindUdpV4.bind 0 (v4Addr bindIpv4 0)).map fun mainV4 => (mainV4, none)
        else .error error

/-! ### When the ports differ -/

/-- A pair whose ports differ. -/
def Apart (r : UdpResult) : Prop :=
  ∃ mainV4 mainV6, r = .ok (mainV4, some mainV6) ∧ mainV4.port ≠ mainV6.port

theorem not_apart_error (error : BindError) : ¬ Apart (.error error) := by
  rintro ⟨_, _, h, -⟩
  cases h

theorem not_apart_ipv4 (r : Except BindError BoundSocket) :
    ¬ Apart (r.map fun mainV4 => (mainV4, none)) := by
  rintro ⟨_, _, h, -⟩
  cases r with
  | error e => cases h
  | ok s => cases h

theorem apart_ok_iff {mainV4 mainV6 : BoundSocket} :
    Apart (.ok (mainV4, some mainV6)) ↔ mainV4.port ≠ mainV6.port := by
  constructor
  · rintro ⟨_, _, h, hne⟩
    cases h
    exact hne
  · intro hne
    exact ⟨_, _, rfl, hne⟩

section Attempts

variable (bindV4 bindV6 : PortBinder)

/-- In attempt `n` the IPv6 socket is bound, and its port is taken for IPv4. -/
def PortTaken (n : Nat) : Prop :=
  ∃ mainV6 port error, bindV6.bind n 0 = .ok mainV6 ∧ mainV6.localPort = .ok port ∧
    bindV4.bind n port = .error error

/-- After `n` attempts both are bound on port zero, and the system gives them two ports. -/
def BoundApart (n : Nat) : Prop :=
  ∃ mainV6 mainV4, bindV6.bind n 0 = .ok mainV6 ∧ bindV4.bind n 0 = .ok mainV4 ∧
    mainV4.port ≠ mainV6.port

variable {bindV4 bindV6}

/-- The pairing ends with two ports exactly if no attempt gets the port of its IPv6 socket
and the sockets bound in the end have two ports. -/
theorem apart_pairMainUdp_iff {left n : Nat} {mainV6 : BoundSocket}
    (hheld : bindV6.bind n 0 = .ok mainV6) :
    Apart (pairMainUdp bindV4 bindV6 left n mainV6) ↔
      (∀ i < left, PortTaken bindV4 bindV6 (n + i)) ∧ BoundApart bindV4 bindV6 (n + left) := by
  induction left generalizing n mainV6 with
  | zero =>
      rw [pairMainUdp]
      constructor
      · intro h
        refine ⟨fun i hi => absurd hi (Nat.not_lt_zero i), ?_⟩
        split at h
        next mainV4 hv4 => exact ⟨mainV6, mainV4, hheld, hv4, apart_ok_iff.mp h⟩
        next error _ => exact absurd h (not_apart_error error)
      · rintro ⟨-, _, mainV4, hbind, hv4, hne⟩
        cases hbind.symm.trans hheld
        rw [Nat.add_zero] at hv4
        rw [hv4]
        exact apart_ok_iff.mpr hne
  | succ left ih =>
      have hshift : (∀ i < left + 1, PortTaken bindV4 bindV6 (n + i)) ↔
          PortTaken bindV4 bindV6 n ∧ ∀ i < left, PortTaken bindV4 bindV6 (n + 1 + i) := by
        rw [Nat.forall_lt_succ_left]
        simp only [Nat.add_zero, Nat.add_assoc, Nat.add_comm 1]
      have hlast : n + (left + 1) = n + 1 + left := by omega
      rw [hshift, hlast, pairMainUdp]
      constructor
      · intro h
        split at h
        next error _ => exact absurd h (not_apart_error error)
        next port hlocal =>
          split at h
          next mainV4 hv4 =>
            obtain rfl := BoundSocket.eq_port hlocal
            exact absurd (bindV4.samePort mainV6.port_ne_zero hv4) (apart_ok_iff.mp h)
          next error hv4 =>
            split at h
            next next hv6 =>
              obtain ⟨htaken, hapart⟩ := (ih hv6).mp h
              exact ⟨⟨⟨mainV6, port, error, hheld, hlocal, hv4⟩, htaken⟩, hapart⟩
            next error _ => exact absurd h (not_apart_error error)
      · rintro ⟨⟨⟨_, port, error, hbind, hlocal, hv4⟩, htaken⟩, hapart⟩
        cases hbind.symm.trans hheld
        -- The next IPv6 socket is the one of the next attempt, or the last one.
        obtain ⟨next, hv6⟩ : ∃ next, bindV6.bind (n + 1) 0 = .ok next := by
          cases left with
          | zero =>
              obtain ⟨next, _, hbind, -⟩ := hapart
              exact ⟨next, hbind⟩
          | succ left =>
              obtain ⟨next, _, _, hbind, -⟩ := htaken 0 (Nat.succ_pos left)
              exact ⟨next, hbind⟩
        simp only [hlocal, hv4, hv6]
        exact (ih hv6).mpr ⟨htaken, hapart⟩

end Attempts

/-- Two sockets that `bind_main_udp` returns share their port, unless it pairs them on port
zero, finds the port of the IPv6 socket taken in all 20 attempts, and then gets two ports. -/
theorem shared_port_iff (bindUdpV4 bindUdpV6 : SocketBinder) (port : UInt16) (enableIpv6 : Bool)
    (bindIpv4 : Option Ipv4Addr) (bindIpv6 : Option Ipv6Addr) :
    (∀ mainV4 mainV6,
      bindMainUdp bindUdpV4 bindUdpV6 port enableIpv6 bindIpv4 bindIpv6 =
        .ok (mainV4, some mainV6) → mainV4.port = mainV6.port) ↔
      ¬ (enableIpv6 = true ∧ port = 0 ∧
        (∀ n < 20, PortTaken (bindUdpV4.atV4 bindIpv4) (bindUdpV6.atV6 bindIpv6) n) ∧
        BoundApart (bindUdpV4.atV4 bindIpv4) (bindUdpV6.atV6 bindIpv6) 20) := by
  have hapart : (∀ mainV4 mainV6,
      bindMainUdp bindUdpV4 bindUdpV6 port enableIpv6 bindIpv4 bindIpv6 =
        .ok (mainV4, some mainV6) → mainV4.port = mainV6.port) ↔
      ¬ Apart (bindMainUdp bindUdpV4 bindUdpV6 port enableIpv6 bindIpv4 bindIpv6) := by
    simp only [Apart, not_exists, not_and, not_not]
  rw [hapart, not_iff_not]
  simp only [bindMainUdp]
  cases enableIpv6 with
  | false => exact iff_of_false (not_apart_ipv4 _) fun h => by cases h.1
  | true =>
      rw [if_neg (by decide)]
      by_cases hport : port = 0
      · rw [if_neg (not_not.mpr hport), hport]
        cases hv6 : bindUdpV6.bind 0 (v6Addr bindIpv6 0) with
        | ok mainV6 =>
            have hheld : (bindUdpV6.atV6 bindIpv6).bind 0 0 = .ok mainV6 := hv6
            refine (apart_pairMainUdp_iff hheld).trans ?_
            simp only [Nat.zero_add, true_and]
        | error error =>
            refine iff_of_false ?_ ?_
            · simp only
              split
              next => exact not_apart_ipv4 _
              next => exact not_apart_error error
            · rintro ⟨-, -, htaken, -⟩
              obtain ⟨_, _, _, hbind, -⟩ := htaken 0 (by decide)
              cases hbind.symm.trans hv6
      · rw [if_pos hport]
        refine iff_of_false ?_ fun h => hport h.2.1
        cases hv4 : bindUdpV4.bind 0 (v4Addr bindIpv4 port) with
        | error error => exact not_apart_error error
        | ok mainV4 =>
            simp only [bindV6SamePort]
            split
            next mainV6 hv6 =>
              have h4 : mainV4.port = port := (bindUdpV4.atV4 bindIpv4).samePort hport hv4
              have h6 : mainV6.port = port := (bindUdpV6.atV6 bindIpv6).samePort hport hv6
              exact fun h => apart_ok_iff.mp h (h4.trans h6.symm)
            next error _ =>
              split
              next => exact not_apart_ipv4 (.ok mainV4)
              next => exact not_apart_error error

/-- Port `6000 + n`, or `5000 + n` for IPv6. -/
def freePort (ipv4 : Bool) (n : Nat) : UInt16 :=
  .ofNat ((if ipv4 then 6000 else 5000) + n % 1000)

theorem freePort_ne_zero (ipv4 : Bool) (n : Nat) : freePort ipv4 n ≠ 0 := by
  rw [Ne, ← UInt16.toNat_inj, freePort, UInt16.toNat_ofNat', UInt16.toNat_zero]
  split <;> omega

/-- A system that gives out these ports for port zero, and where all others are taken. -/
def busySystem (ipv4 : Bool) : SocketBinder where
  bind n addr :=
    if addr.port = 0 then .ok ⟨freePort ipv4 n, freePort_ne_zero ipv4 n, none⟩
    else .error ⟨⟨.addrInUse, "address in use"⟩, none⟩
  samePort hne h := by
    rw [if_neg hne] at h
    cases h

/-- After 20 conflicts the IPv4 socket is on port 6020 and the IPv6 socket on port 5020. -/
theorem main_udp_apart :
    ¬ ∀ (bindUdpV4 bindUdpV6 : SocketBinder) (port : UInt16) (enableIpv6 : Bool)
      (bindIpv4 : Option Ipv4Addr) (bindIpv6 : Option Ipv6Addr) (mainV4 mainV6 : BoundSocket),
      bindMainUdp bindUdpV4 bindUdpV6 port enableIpv6 bindIpv4 bindIpv6 =
        .ok (mainV4, some mainV6) → mainV4.port = mainV6.port := by
  intro h
  have heq := h (busySystem true) (busySystem false) 0 true none none
    ⟨freePort true 20, freePort_ne_zero true 20, none⟩
    ⟨freePort false 20, freePort_ne_zero false 20, none⟩ rfl
  exact absurd heq (by decide)

end RustP2p
