import Mathlib.Data.List.Nodup
import RustP2p.Core.NatInfo

/-!
# NAT detection by STUN

`stun/mod.rs`.  A round opens one socket for each address family and asks every address
of every server how it sees the socket.  A server may name a second address of its own,
and then the same socket asks there too.  Two rounds are made, or one if it finds a
symmetric NAT, and their results are merged.

What the code reads from outside is its `StunEnv`: name resolution, sockets, the answers
to its requests and the order of a `HashSet`.  `stun_format` gives the attributes of a
message.  `clock` counts what was asked for, so that the same request may be answered
differently later.

A round keeps the answers it has used (`log`).  `StunRound.run_spec` says what a round that
ends has: its sets are those of its answers, and no server was left out.  A round fails only
when a socket cannot be opened (`StunRound.Fails`).
-/

namespace RustP2p.Stun

/-! ## Messages -/

/-- `stun_format::SocketAddr`. -/
inductive StunAddr where
  | v4 (ip : Ipv4Addr) (port : UInt16)
  | v6 (ip : Ipv6Addr) (port : UInt16)
deriving DecidableEq, Repr

/-- `stun_addr`. -/
def stunAddr : StunAddr → SocketAddr
  | .v4 ip port => .v4 ip port
  | .v6 ip port => .v6 ip port 0 0

/-- `stun_format::Attr`, as far as the code reads it. -/
inductive StunAttr where
  | mappedAddress (addr : StunAddr)
  | changedAddress (addr : StunAddr)
  | xorMappedAddress (addr : StunAddr)
  | other
deriving DecidableEq, Repr

namespace StunAttr

/-- The mapped address the attribute has. -/
def mapped : StunAttr → Option SocketAddr
  | mappedAddress addr => some (stunAddr addr)
  | xorMappedAddress addr => some (stunAddr addr)
  | _ => none

/-- The changed address the attribute has. -/
def changed : StunAttr → Option SocketAddr
  | changedAddress addr => some (stunAddr addr)
  | _ => none

/-- The loop over the attributes of a message.  It ends early when both addresses are
there. -/
def scan : List StunAttr → Option SocketAddr → Option SocketAddr →
    Option SocketAddr × Option SocketAddr
  | [], mappedAddr, changedAddr => (mappedAddr, changedAddr)
  | x :: xs, mappedAddr, changedAddr =>
      let mappedAddr := mappedAddr <|> x.mapped
      let changedAddr := changedAddr <|> x.changed
      if mappedAddr.isSome ∧ changedAddr.isSome then (mappedAddr, changedAddr)
      else scan xs mappedAddr changedAddr

/-- Ending early changes nothing: the first address of each kind is taken. -/
theorem scan_eq (attrs : List StunAttr) (mappedAddr changedAddr : Option SocketAddr) :
    scan attrs mappedAddr changedAddr =
      (mappedAddr <|> attrs.findSome? mapped, changedAddr <|> attrs.findSome? changed) := by
  induction attrs generalizing mappedAddr changedAddr with
  | nil => simp [scan]
  | cons x xs ih =>
      have hor {a b c : Option SocketAddr} : (a <|> b <|> c) = ((a <|> b) <|> c) := by
        cases a <;> rfl
      have hfind (f : StunAttr → Option SocketAddr) :
          (x :: xs).findSome? f = (f x <|> xs.findSome? f) := by
        rw [List.findSome?_cons]
        cases f x <;> rfl
      rw [scan]
      simp only [hfind, hor]
      split
      next hboth =>
        obtain ⟨⟨m, hm⟩, c, hc⟩ := And.intro (Option.isSome_iff_exists.mp hboth.1)
          (Option.isSome_iff_exists.mp hboth.2)
        rw [hm, hc]
        rfl
      next => exact ih _ _

end StunAttr

/-- A binding request: the socket it is sent from, where it is sent, and what it says. -/
structure StunRequest where
  isIpv4 : Bool
  peer : SocketAddr
  changeIp : Bool
  changePort : Bool
  tid : Nat
deriving DecidableEq, Repr

/-- What a round reads from outside. -/
structure StunEnv where
  /-- `to_socket_addrs`. -/
  resolve : Nat → String → IoResult (List SocketAddr)
  /-- `bind_udp`. -/
  bindUdp : SocketAddr → IoResult Unit
  /-- `UdpSocket::from_std`. -/
  fromStd : SocketAddr → IoResult Unit
  /-- `connect` of the socket of a family. -/
  connect : Nat → Bool → SocketAddr → IoResult Unit
  /-- `next_u64`. -/
  random : Nat → UInt64
  send : Nat → StunRequest → IoResult Unit
  /-- `recv_from` after a request, `none` when its time is up. -/
  recv : Nat → StunRequest → Option (IoResult (List StunAttr))
  /-- The order of a `HashSet`. -/
  iterate : {α : Type} → List α → List α
  iterate_perm : ∀ {α : Type} (set : List α), (iterate set).Perm set

/-- The parameters of the detection. -/
structure StunConfig where
  bindIpv4 : Option Ipv4Addr
  bindIpv6 : Option Ipv6Addr
  enableIpv6 : Bool

/-! ## One server address -/

/-- An answer that was used: the request was sent from the socket of this family to this
address, and it was seen to come from `mapped`. -/
structure StunAnswer where
  isIpv4 : Bool
  peer : SocketAddr
  mapped : SocketAddr
deriving DecidableEq, Repr

/-- One turn of the loop of `test_nat_`, without a result when it goes on. -/
def testNatTurn (env : StunEnv) (clock : Nat) (request : StunRequest) :
    IoResult (Option (SocketAddr × Option SocketAddr)) :=
  match env.send clock request with
  | .error e => .error e
  | .ok () =>
      match env.recv clock request with
      | none => .ok none
      | some (.error e) => .error e
      | some (.ok attrs) =>
          let (mappedAddr, changedAddr) := StunAttr.scan attrs none none
          .ok (mappedAddr.map fun addr => (addr, changedAddr))

/-- The loop of `test_nat_`, with so many turns left. -/
def testNatLoop (env : StunEnv) (request : StunRequest) :
    (turns clock : Nat) → IoResult (SocketAddr × Option SocketAddr)
  | 0, _ => .error ⟨.other, "stun response err"⟩
  | turns + 1, clock =>
      match testNatTurn env clock request with
      | .error e => .error e
      | .ok (some answer) => .ok answer
      | .ok none => testNatLoop env request turns (clock + 1)

/-- `test_nat_`. -/
def testNat_ (env : StunEnv) (clock : Nat) (request : StunRequest) :
    IoResult (SocketAddr × Option SocketAddr) := testNatLoop env request 2 clock

/-- `test_nat`: the mapped addresses, with the requests they answer. -/
def testNat (env : StunEnv) (clock : Nat) (isIpv4 : Bool) (server : SocketAddr) :
    IoResult (List StunAnswer) :=
  match env.connect clock isIpv4 server with
  | .error e => .error e
  | .ok () =>
      let tid := (env.random clock).toNat
      match testNat_ env clock ⟨isIpv4, server, true, true, tid⟩ with
      | .error e => .error e
      | .ok (mapped₁, none) => .ok [⟨isIpv4, server, mapped₁⟩]
      | .ok (mapped₁, some changed) =>
          match env.connect (clock + 2) isIpv4 changed with
          | .error _ => .ok [⟨isIpv4, server, mapped₁⟩]
          | .ok () =>
              match testNat_ env (clock + 2) ⟨isIpv4, changed, false, false, tid + 1⟩ with
              | .error _ => .ok [⟨isIpv4, server, mapped₁⟩]
              | .ok (mapped₂, _) => .ok [⟨isIpv4, server, mapped₁⟩, ⟨isIpv4, changed, mapped₂⟩]

/-! ## One round -/

/-- `StunResult`. -/
structure StunResult where
  natType : NatType
  publicIpv4 : List Ipv4Addr
  publicIpv6 : Option Ipv6Addr
  publicUdpPorts : List UInt16
  portRange : UInt16
deriving DecidableEq, Repr

/-- The variables of `stun_test_nat0`, and the answers so far. -/
structure StunRound where
  clock : Nat
  udpV4 : Bool
  udpV6 : Bool
  ipv6Unavailable : Bool
  pubAddrsV4 : List SocketAddr
  pubAddrsV6 : List SocketAddr
  log : List StunAnswer
deriving DecidableEq, Repr

namespace StunRound

/-- The start of a round. -/
def new : StunRound := ⟨0, false, false, false, [], [], []⟩

/-- The socket for a server address is opened, unless it is.  The result says whether there is
one. -/
def openSocket (env : StunEnv) (config : StunConfig) (r : StunRound) (server : SocketAddr) :
    IoResult (Bool × StunRound) :=
  match server with
  | .v4 .. =>
      if r.udpV4 then .ok (true, r)
      else do
        let bindAddr := SocketAddr.v4 (config.bindIpv4.getD .unspecified) 0
        env.bindUdp bindAddr
        env.fromStd bindAddr
        return (true, { r with udpV4 := true })
  | .v6 .. =>
      if config.enableIpv6 ∧ ¬ r.ipv6Unavailable then
        if r.udpV6 then .ok (true, r)
        else
          let bindAddr := SocketAddr.v6 (config.bindIpv6.getD .unspecified) 0 0 0
          match env.bindUdp bindAddr with
          | .ok () => do
              env.fromStd bindAddr
              return (true, { r with udpV6 := true })
          | .error e =>
              if config.bindIpv6 = none then .ok (false, { r with ipv6Unavailable := true })
              else .error e
      else .ok (false, r)

/-- A mapped address is kept with those of its family. -/
def keep (r : StunRound) (answer : StunAnswer) : StunRound :=
  let r := { r with log := r.log ++ [answer] }
  match answer.mapped with
  | .v4 .. => { r with pubAddrsV4 := r.pubAddrsV4.insert answer.mapped }
  | .v6 .. => { r with pubAddrsV6 := r.pubAddrsV6.insert answer.mapped }

/-- The inner loop, for one address of a server. -/
def visit (env : StunEnv) (config : StunConfig) (r : StunRound) (server : SocketAddr) :
    IoResult StunRound := do
  let (ready, r) ← r.openSocket env config server
  if ready then
    let next := { r with clock := r.clock + 4 }
    match testNat env r.clock server.isIpv4 server with
    | .ok answers => return answers.foldl keep next
    | .error _ => return next
  else return r

/-- The outer loop, for one server. -/
def visitServer (env : StunEnv) (config : StunConfig) (r : StunRound) (server : String) :
    IoResult StunRound :=
  let next := { r with clock := r.clock + 1 }
  match env.resolve r.clock server with
  | .ok addrs => addrs.foldlM (visit env config) next
  | .error _ => .ok next

/-- The loops of `stun_test_nat0`. -/
def run (env : StunEnv) (config : StunConfig) (servers : List String) : IoResult StunRound :=
  servers.foldlM (visitServer env config) new

end StunRound

/-- `mapped_port_range`. -/
def mappedPortRange (addrs : List SocketAddr) : UInt16 :=
  let ports := addrs.map fun addr => addr.port.toNat
  UInt16.ofNat (ports.max?.getD 0 - ports.min?.getD 0)

/-- `mapped_nat_type`. -/
def mappedNatType (ipv4Addrs ipv6Addrs : List SocketAddr) : NatType :=
  if ipv4Addrs.length > 1 ∨ ipv6Addrs.length > 1 then .symmetric else .cone

/-- The loop that takes IP addresses and ports from the mapped addresses. -/
def StunResult.collect (result : StunResult) (addr : SocketAddr) : StunResult :=
  let result := { result with publicUdpPorts := result.publicUdpPorts.insert addr.port }
  match addr with
  | .v4 ip _ => { result with publicIpv4 := result.publicIpv4.insert ip }
  | .v6 ip _ _ _ => { result with publicIpv6 := result.publicIpv6 <|> some ip }

/-- The result of a round. -/
def StunRound.result (env : StunEnv) (r : StunRound) : StunResult :=
  let start : StunResult :=
    { natType := mappedNatType r.pubAddrsV4 r.pubAddrsV6
      publicIpv4 := []
      publicIpv6 := none
      publicUdpPorts := []
      portRange := max (mappedPortRange r.pubAddrsV4) (mappedPortRange r.pubAddrsV6) }
  let result := (env.iterate r.pubAddrsV4 ++ env.iterate r.pubAddrsV6).foldl
    StunResult.collect start
  { result with
    publicIpv4 := env.iterate result.publicIpv4
    publicUdpPorts := env.iterate result.publicUdpPorts }

/-- `stun_test_nat0`. -/
def stunTestNat0 (env : StunEnv) (config : StunConfig) (servers : List String) :
    IoResult StunResult := (StunRound.run env config servers).map (StunRound.result env)

/-! ## The rounds -/

/-- The result of a round is merged. -/
def StunResult.merge (acc result : StunResult) : StunResult where
  natType := if result.natType = .symmetric then .symmetric else acc.natType
  publicIpv4 := result.publicIpv4.foldl (fun set ip => set.insert ip) acc.publicIpv4
  publicIpv6 := acc.publicIpv6 <|> result.publicIpv6
  publicUdpPorts := result.publicUdpPorts.foldl (fun set port => set.insert port)
    acc.publicUdpPorts
  portRange := if acc.portRange < result.portRange then result.portRange else acc.portRange

/-- The loop of `stun_test_nat_bound` over the rounds that are left. -/
def stunRounds (config : StunConfig) (servers : List String) :
    List StunEnv → StunResult → StunResult
  | [], acc => acc
  | env :: envs, acc =>
      match stunTestNat0 env config servers with
      | .ok result =>
          if result.natType = .symmetric then acc.merge result
          else stunRounds config servers envs (acc.merge result)
      | .error _ => stunRounds config servers envs acc

/-- `stun_test_nat_bound`, with what its two rounds read. -/
def stunTestNatBound (first second : StunEnv) (config : StunConfig) (servers : List String) :
    StunResult :=
  let result := stunRounds config servers [first, second] ⟨.cone, [], none, [], 0⟩
  { result with
    publicIpv4 := second.iterate result.publicIpv4
    publicUdpPorts := second.iterate result.publicUdpPorts }

/-! ## What a round has used -/

/-- The environment gave this answer: a request was sent from the socket of this family to this
address, and the message that came has the mapped address. -/
def StunAnswer.Given (env : StunEnv) (x : StunAnswer) : Prop :=
  ∃ clock request attrs, request.isIpv4 = x.isIpv4 ∧ request.peer = x.peer ∧
    env.send clock request = .ok () ∧ env.recv clock request = some (.ok attrs) ∧
    attrs.findSome? StunAttr.mapped = some x.mapped

theorem testNatTurn_given {env : StunEnv} {clock : Nat} {request : StunRequest}
    {mapped : SocketAddr} {changed : Option SocketAddr}
    (h : testNatTurn env clock request = .ok (some (mapped, changed))) :
    StunAnswer.Given env ⟨request.isIpv4, request.peer, mapped⟩ := by
  simp only [testNatTurn] at h
  split at h
  next => cases h
  next hsend =>
    split at h
    next => cases h
    next => cases h
    next attrs hrecv =>
      have hscan := StunAttr.scan_eq attrs none none
      have hmapped : attrs.findSome? StunAttr.mapped = some mapped := by
        rw [hscan] at h
        simp only [Except.ok.injEq, Option.map_eq_some_iff, Prod.mk.injEq] at h
        obtain ⟨addr, hfind, haddr, -⟩ := h
        rw [haddr] at hfind
        simpa using hfind
      exact ⟨clock, request, attrs, rfl, rfl, hsend, hrecv, hmapped⟩

theorem testNatLoop_given {env : StunEnv} {request : StunRequest} {mapped : SocketAddr}
    {changed : Option SocketAddr} : ∀ {turns clock : Nat},
    testNatLoop env request turns clock = .ok (mapped, changed) →
    StunAnswer.Given env ⟨request.isIpv4, request.peer, mapped⟩ := by
  intro turns
  induction turns with
  | zero =>
      intro clock h
      cases h
  | succ turns ih =>
      intro clock h
      rw [testNatLoop] at h
      split at h
      next => cases h
      next answer hturn =>
        cases h
        exact testNatTurn_given hturn
      next => exact ih h

/-- Every address `test_nat` has comes from an answer to the socket it was called with. -/
theorem testNat_given {env : StunEnv} {clock : Nat} {isIpv4 : Bool} {server : SocketAddr}
    {answers : List StunAnswer} (h : testNat env clock isIpv4 server = .ok answers) :
    ∀ x ∈ answers, x.Given env ∧ x.isIpv4 = isIpv4 := by
  simp only [testNat] at h
  split at h
  next => cases h
  next =>
    split at h
    next => cases h
    next mapped₁ hfirst =>
      cases h
      simpa using testNatLoop_given hfirst
    next mapped₁ changed hfirst =>
      split at h
      next =>
        cases h
        simpa using testNatLoop_given hfirst
      next =>
        split at h
        next =>
          cases h
          simpa using testNatLoop_given hfirst
        next mapped₂ changed₂ hsecond =>
          cases h
          simpa using ⟨testNatLoop_given hfirst, testNatLoop_given hsecond⟩

namespace StunRound

/-- What a round has collected: its sets of mapped addresses are those of its answers, and its
answers were given. -/
structure Sound (env : StunEnv) (config : StunConfig) (r : StunRound) : Prop where
  nodupV4 : r.pubAddrsV4.Nodup
  nodupV6 : r.pubAddrsV6.Nodup
  memV4 : ∀ a, a ∈ r.pubAddrsV4 ↔ a.isIpv4 = true ∧ ∃ x ∈ r.log, x.mapped = a
  memV6 : ∀ a, a ∈ r.pubAddrsV6 ↔ a.isIpv4 = false ∧ ∃ x ∈ r.log, x.mapped = a
  given : ∀ x ∈ r.log, x.Given env
  family : config.enableIpv6 = false → ∀ x ∈ r.log, x.isIpv4 = true

/-- A later state of the same round. -/
structure Grows (r r' : StunRound) : Prop where
  log : ∀ x ∈ r.log, x ∈ r'.log
  unavailable : r'.ipv6Unavailable = false → r.ipv6Unavailable = false

/-- The address was asked, and what it answered is in the log. -/
def Asked (env : StunEnv) (r : StunRound) (addr : SocketAddr) : Prop :=
  ∃ clock, ∀ answers, testNat env clock addr.isIpv4 addr = .ok answers → ∀ x ∈ answers, x ∈ r.log

/-- The server was resolved, and each of its addresses was asked, but for those of a family
without a socket. -/
def Heard (env : StunEnv) (config : StunConfig) (r : StunRound) (server : String) : Prop :=
  ∃ clock, ∀ addrs, env.resolve clock server = .ok addrs → ∀ addr ∈ addrs,
    addr.isIpv4 = true ∨ (config.enableIpv6 = true ∧ r.ipv6Unavailable = false) →
      Asked env r addr

section

variable {env : StunEnv} {config : StunConfig} {r r' r'' : StunRound}

theorem Grows.refl (r : StunRound) : Grows r r := ⟨fun _ hx => hx, fun h => h⟩

theorem Grows.trans (h : Grows r r') (h' : Grows r' r'') : Grows r r'' :=
  ⟨fun x hx => h'.log x (h.log x hx), fun hun => h.unavailable (h'.unavailable hun)⟩

theorem Asked.grows {addr : SocketAddr} (hgrows : Grows r r') (h : Asked env r addr) :
    Asked env r' addr := by
  obtain ⟨clock, hclock⟩ := h
  exact ⟨clock, fun answers hanswers x hx => hgrows.log x (hclock answers hanswers x hx)⟩

theorem Heard.grows {server : String} (hgrows : Grows r r') (h : Heard env config r server) :
    Heard env config r' server := by
  obtain ⟨clock, hclock⟩ := h
  refine ⟨clock, fun addrs haddrs addr haddr hfamily => ?_⟩
  have hbefore : addr.isIpv4 = true ∨ (config.enableIpv6 = true ∧ r.ipv6Unavailable = false) :=
    hfamily.imp_right fun h => ⟨h.1, hgrows.unavailable h.2⟩
  exact (hclock addrs haddrs addr haddr hbefore).grows hgrows

/-! ### One address -/

theorem sound_new : Sound env config new := by
  constructor <;> simp [new]

theorem Sound.tick (h : r.Sound env config) (clock : Nat) :
    ({ r with clock := clock }).Sound env config :=
  ⟨h.nodupV4, h.nodupV6, h.memV4, h.memV6, h.given, h.family⟩

theorem grows_tick (r : StunRound) (clock : Nat) : Grows r { r with clock := clock } :=
  ⟨fun _ hx => hx, fun h => h⟩

theorem keep_log (x : StunAnswer) : (r.keep x).log = r.log ++ [x] := by
  simp only [keep]
  split <;> rfl

theorem keep_grows (x : StunAnswer) : Grows r (r.keep x) := by
  constructor
  · intro y hy
    rw [keep_log]
    exact List.mem_append_left _ hy
  · simp only [keep]
    split <;> exact fun h => h

/-- A mapped address joins the set of its own family, not that of the socket it was seen
through. -/
theorem sound_keep {x : StunAnswer} (h : r.Sound env config) (hgiven : x.Given env)
    (hfamily : config.enableIpv6 = false → x.isIpv4 = true) : (r.keep x).Sound env config := by
  have hlog : ∀ y ∈ (r.keep x).log, y ∈ r.log ∨ y = x := by simp [keep_log]
  have hgiven' : ∀ y ∈ (r.keep x).log, y.Given env := by
    intro y hy
    rcases hlog y hy with hy | rfl
    · exact h.given y hy
    · exact hgiven
  have hfamily' : config.enableIpv6 = false → ∀ y ∈ (r.keep x).log, y.isIpv4 = true := by
    intro hdisabled y hy
    rcases hlog y hy with hy | rfl
    · exact h.family hdisabled y hy
    · exact hfamily hdisabled
  have hseen (a : SocketAddr) : (∃ y ∈ (r.keep x).log, y.mapped = a) ↔
      (∃ y ∈ r.log, y.mapped = a) ∨ x.mapped = a := by
    simp [keep_log, or_and_right, exists_or]
  cases hx : x.mapped with
  | v4 ip port =>
      have h4 : (r.keep x).pubAddrsV4 = r.pubAddrsV4.insert x.mapped := by simp [keep, hx]
      have h6 : (r.keep x).pubAddrsV6 = r.pubAddrsV6 := by simp [keep, hx]
      refine ⟨h4 ▸ h.nodupV4.insert, h6 ▸ h.nodupV6, fun a => ?_, fun a => ?_, hgiven', hfamily'⟩
      · rw [h4, hseen, List.mem_insert_iff, h.memV4]
        constructor
        · rintro (rfl | ⟨ha, hin⟩)
          · exact ⟨by rw [hx]; rfl, Or.inr rfl⟩
          · exact ⟨ha, Or.inl hin⟩
        · rintro ⟨ha, hin | rfl⟩
          · exact Or.inr ⟨ha, hin⟩
          · exact Or.inl rfl
      · rw [h6, hseen, h.memV6]
        refine and_congr_right fun ha => ⟨Or.inl, fun hin => hin.resolve_right ?_⟩
        rintro rfl
        simp [hx, SocketAddr.isIpv4] at ha
  | v6 ip port flowinfo scopeId =>
      have h4 : (r.keep x).pubAddrsV4 = r.pubAddrsV4 := by simp [keep, hx]
      have h6 : (r.keep x).pubAddrsV6 = r.pubAddrsV6.insert x.mapped := by simp [keep, hx]
      refine ⟨h4 ▸ h.nodupV4, h6 ▸ h.nodupV6.insert, fun a => ?_, fun a => ?_, hgiven', hfamily'⟩
      · rw [h4, hseen, h.memV4]
        refine and_congr_right fun ha => ⟨Or.inl, fun hin => hin.resolve_right ?_⟩
        rintro rfl
        simp [hx, SocketAddr.isIpv4] at ha
      · rw [h6, hseen, List.mem_insert_iff, h.memV6]
        constructor
        · rintro (rfl | ⟨ha, hin⟩)
          · exact ⟨by rw [hx]; rfl, Or.inr rfl⟩
          · exact ⟨ha, Or.inl hin⟩
        · rintro ⟨ha, hin | rfl⟩
          · exact Or.inr ⟨ha, hin⟩
          · exact Or.inl rfl

/-- All answers of one address are kept. -/
theorem foldl_keep {answers : List StunAnswer} (h : r.Sound env config)
    (hgiven : ∀ x ∈ answers, x.Given env ∧ (config.enableIpv6 = false → x.isIpv4 = true)) :
    (answers.foldl keep r).Sound env config ∧ Grows r (answers.foldl keep r) ∧
      ∀ x ∈ answers, x ∈ (answers.foldl keep r).log := by
  induction answers generalizing r with
  | nil => exact ⟨h, Grows.refl r, by simp⟩
  | cons y ys ih =>
      obtain ⟨hy, hfamily⟩ := hgiven y List.mem_cons_self
      obtain ⟨hsound, hgrows, hall⟩ := ih (sound_keep h hy hfamily)
        fun x hx => hgiven x (List.mem_cons_of_mem y hx)
      refine ⟨hsound, (keep_grows y).trans hgrows, fun x hx => ?_⟩
      rcases List.mem_cons.mp hx with rfl | hx
      · exact hgrows.log x (by simp [keep_log])
      · exact hall x hx

/-- What opening a socket changes, and when there is none. -/
theorem openSocket_spec {server : SocketAddr} {ready : Bool}
    (h : r.openSocket env config server = .ok (ready, r')) :
    r'.log = r.log ∧ r'.pubAddrsV4 = r.pubAddrsV4 ∧ r'.pubAddrsV6 = r.pubAddrsV6 ∧ Grows r r' ∧
      if ready then server.isIpv4 = true ∨ config.enableIpv6 = true
      else server.isIpv4 = false ∧ (config.enableIpv6 = false ∨ r'.ipv6Unavailable = true) := by
  cases server with
  | v4 ip port =>
      simp only [openSocket] at h
      split at h
      next =>
        cases h
        exact ⟨rfl, rfl, rfl, Grows.refl r, Or.inl rfl⟩
      next =>
        obtain ⟨_, -, h⟩ := bind_eq_ok.mp h
        obtain ⟨_, -, h⟩ := bind_eq_ok.mp h
        cases h
        exact ⟨rfl, rfl, rfl, ⟨fun _ hx => hx, fun h => h⟩, Or.inl rfl⟩
  | v6 ip port flowinfo scopeId =>
      simp only [openSocket] at h
      split at h
      next henabled =>
        split at h
        next =>
          cases h
          exact ⟨rfl, rfl, rfl, Grows.refl r, Or.inr henabled.1⟩
        next =>
          split at h
          next =>
            obtain ⟨_, -, h⟩ := bind_eq_ok.mp h
            cases h
            exact ⟨rfl, rfl, rfl, ⟨fun _ hx => hx, fun h => h⟩, Or.inr henabled.1⟩
          next =>
            -- Without an address to bind to, the round goes on without IPv6.
            split at h
            next =>
              cases h
              exact ⟨rfl, rfl, rfl, ⟨fun _ hx => hx, fun h => by cases h⟩, rfl, Or.inr rfl⟩
            next => cases h
      next hdisabled =>
        cases h
        refine ⟨rfl, rfl, rfl, Grows.refl r, rfl, ?_⟩
        by_cases henabled : config.enableIpv6 = true
        · exact Or.inr (by simpa [henabled] using hdisabled)
        · exact Or.inl (by simpa using henabled)

theorem visit_spec {server : SocketAddr} (hsound : r.Sound env config)
    (h : r.visit env config server = .ok r') :
    r'.Sound env config ∧ Grows r r' ∧
      (server.isIpv4 = true ∨ (config.enableIpv6 = true ∧ r'.ipv6Unavailable = false) →
        Asked env r' server) := by
  simp only [visit] at h
  obtain ⟨⟨ready, r₁⟩, hopen, h⟩ := bind_eq_ok.mp h
  obtain ⟨hlog, hv4, hv6, hgrows, hready⟩ := openSocket_spec hopen
  have hsound₁ : r₁.Sound env config := by
    constructor
    · exact hv4 ▸ hsound.nodupV4
    · exact hv6 ▸ hsound.nodupV6
    · rw [hv4, hlog]
      exact hsound.memV4
    · rw [hv6, hlog]
      exact hsound.memV6
    · exact hlog ▸ hsound.given
    · exact hlog ▸ hsound.family
  cases ready with
  | false =>
      cases h
      refine ⟨hsound₁, hgrows, fun hfamily => ?_⟩
      simp only [Bool.false_eq_true, if_false] at hready
      rcases hfamily with h4 | ⟨henabled, havailable⟩
      · rw [hready.1] at h4
        cases h4
      · rcases hready.2 with h | h <;> simp_all
  | true =>
      have hclock := hsound₁.tick (r₁.clock + 4)
      have hgrows₁ := hgrows.trans (grows_tick r₁ (r₁.clock + 4))
      simp only [if_true] at hready h
      split at h
      next answers hanswers =>
        cases h
        have hgiven : ∀ x ∈ answers,
            x.Given env ∧ (config.enableIpv6 = false → x.isIpv4 = true) := by
          intro x hx
          obtain ⟨hgiven, hx4⟩ := testNat_given hanswers x hx
          refine ⟨hgiven, fun hdisabled => ?_⟩
          rw [hx4]
          exact hready.resolve_right (by simp [hdisabled])
        obtain ⟨hsound', hgrows', hall⟩ := foldl_keep hclock hgiven
        refine ⟨hsound', hgrows₁.trans hgrows', fun _ => ?_⟩
        refine ⟨r₁.clock, fun answers' hanswers' x hx => ?_⟩
        rw [hanswers] at hanswers'
        cases hanswers'
        exact hall x hx
      next e herror =>
        cases h
        refine ⟨hclock, hgrows₁, fun _ => ⟨r₁.clock, fun answers hanswers => ?_⟩⟩
        rw [herror] at hanswers
        cases hanswers

/-! ### One server and all of them -/

/-- The inner loop has asked the addresses it is through with. -/
theorem visits_spec {addrs : List SocketAddr} (hsound : r.Sound env config)
    (h : addrs.foldlM (visit env config) r = .ok r') :
    r'.Sound env config ∧ Grows r r' ∧ ∀ addr ∈ addrs,
      addr.isIpv4 = true ∨ (config.enableIpv6 = true ∧ r'.ipv6Unavailable = false) →
        Asked env r' addr := by
  refine foldlM_keeps (fun done s => s.Sound env config ∧ Grows r s ∧ ∀ addr ∈ done,
      addr.isIpv4 = true ∨ (config.enableIpv6 = true ∧ s.ipv6Unavailable = false) →
        Asked env s addr) ?_ [] addrs r r' ⟨hsound, Grows.refl r, by simp⟩ h
  rintro done addr s s' ⟨hs, hgrows, hdone⟩ hvisit
  obtain ⟨hs', hgrows', haddr⟩ := visit_spec hs hvisit
  refine ⟨hs', hgrows.trans hgrows', fun a ha hfamily => ?_⟩
  rcases List.mem_append.mp ha with ha | ha
  · have hbefore : a.isIpv4 = true ∨ (config.enableIpv6 = true ∧ s.ipv6Unavailable = false) :=
      hfamily.imp_right fun h => ⟨h.1, hgrows'.unavailable h.2⟩
    exact (hdone a ha hbefore).grows hgrows'
  · obtain rfl := List.mem_singleton.mp ha
    exact haddr hfamily

theorem visitServer_spec {server : String} (hsound : r.Sound env config)
    (h : r.visitServer env config server = .ok r') :
    r'.Sound env config ∧ Grows r r' ∧ Heard env config r' server := by
  simp only [visitServer] at h
  have hclock := hsound.tick (r.clock + 1)
  have hgrows₁ := grows_tick r (r.clock + 1)
  split at h
  next addrs hresolve =>
    obtain ⟨hsound', hgrows, hasked⟩ := visits_spec hclock h
    refine ⟨hsound', hgrows₁.trans hgrows, r.clock,
      fun addrs' hresolve' addr haddr hfamily => ?_⟩
    rw [hresolve] at hresolve'
    cases hresolve'
    exact hasked addr haddr hfamily
  next e herror =>
    cases h
    refine ⟨hclock, hgrows₁, r.clock, fun addrs hresolve => ?_⟩
    rw [herror] at hresolve
    cases hresolve

/-- A round that ends has asked every server, whatever the other servers did. -/
theorem run_spec {servers : List String} (h : run env config servers = .ok r) :
    r.Sound env config ∧ ∀ server ∈ servers, Heard env config r server := by
  refine foldlM_keeps
    (fun done s => s.Sound env config ∧ ∀ server ∈ done, Heard env config s server)
    ?_ [] servers new r ⟨sound_new, by simp⟩ h
  rintro done server s s' ⟨hs, hdone⟩ hvisit
  obtain ⟨hs', hgrows, hserver⟩ := visitServer_spec hs hvisit
  refine ⟨hs', fun x hx => ?_⟩
  rcases List.mem_append.mp hx with hx | hx
  · exact (hdone x hx).grows hgrows
  · obtain rfl := List.mem_singleton.mp hx
    exact hserver

/-! ### A round that fails -/

/-- A socket that a round needs cannot be opened.  The one for IPv6 is needed if an address to
bind it to is configured, or if it was bound. -/
def NoSocket (env : StunEnv) (config : StunConfig) (e : IoError) : Prop :=
  let v4 := SocketAddr.v4 (config.bindIpv4.getD .unspecified) 0
  let v6 := SocketAddr.v6 (config.bindIpv6.getD .unspecified) 0 0 0
  env.bindUdp v4 = .error e ∨ env.fromStd v4 = .error e ∨
    config.enableIpv6 = true ∧
      (config.bindIpv6 ≠ none ∧ env.bindUdp v6 = .error e ∨ env.fromStd v6 = .error e)

/-- The round fails when it comes to an address of a server.  By then it has collected `r`. -/
def Fails (env : StunEnv) (config : StunConfig) (servers : List String) (r : StunRound)
    (e : IoError) : Prop :=
  ∃ done server rest s tried addr untried, servers = done ++ server :: rest ∧
    run env config done = .ok s ∧
    env.resolve s.clock server = .ok (tried ++ addr :: untried) ∧
    tried.foldlM (visit env config) { s with clock := s.clock + 1 } = .ok r ∧
    r.openSocket env config addr = .error e

theorem noSocket_of_openSocket {server : SocketAddr} {e : IoError}
    (h : r.openSocket env config server = .error e) : NoSocket env config e := by
  cases server with
  | v4 ip port =>
      simp only [openSocket] at h
      split at h
      next => cases h
      next =>
        rcases bind_eq_error.mp h with hbind | ⟨_, -, h⟩
        · exact .inl hbind
        · rcases bind_eq_error.mp h with hstd | ⟨_, -, h⟩
          · exact .inr (.inl hstd)
          · cases h
  | v6 ip port flowinfo scopeId =>
      simp only [openSocket] at h
      split at h
      next henabled =>
        split at h
        next => cases h
        next =>
          split at h
          next =>
            rcases bind_eq_error.mp h with hstd | ⟨_, -, h⟩
            · exact .inr (.inr ⟨henabled.1, .inr hstd⟩)
            · cases h
          next hbind =>
            split at h
            next => cases h
            next hexplicit =>
              cases h
              exact .inr (.inr ⟨henabled.1, .inl ⟨hexplicit, hbind⟩⟩)
      next => cases h

/-- Only a missing socket makes a visit fail. -/
theorem openSocket_of_visit {server : SocketAddr} {e : IoError}
    (h : r.visit env config server = .error e) : r.openSocket env config server = .error e := by
  simp only [visit] at h
  rcases bind_eq_error.mp h with hopen | ⟨⟨ready, r₁⟩, -, h⟩
  · exact hopen
  · cases ready with
    | false => cases h
    | true =>
        simp only [if_true] at h
        split at h <;> cases h

theorem exists_fails {servers : List String} {e : IoError}
    (h : run env config servers = .error e) : ∃ r, Fails env config servers r e := by
  obtain ⟨done, server, rest, s, rfl, hdone, hserver⟩ := foldlM_eq_error h
  simp only [visitServer] at hserver
  split at hserver
  next addrs hresolve =>
    obtain ⟨tried, addr, untried, r, rfl, htried, hvisit⟩ := foldlM_eq_error hserver
    exact ⟨r, done, server, rest, s, tried, addr, untried, rfl, hdone, hresolve, htried,
      openSocket_of_visit hvisit⟩
  next => cases hserver

/-- What a failing round has collected was given to it. -/
theorem Fails.spec {servers : List String} {e : IoError} (h : Fails env config servers r e) :
    r.Sound env config ∧ NoSocket env config e := by
  obtain ⟨done, server, rest, s, tried, addr, untried, -, hdone, -, htried, hopen⟩ := h
  have hsound := (run_spec hdone).1
  exact ⟨(visits_spec (hsound.tick (s.clock + 1)) htried).1, noSocket_of_openSocket hopen⟩

end

end StunRound

end RustP2p.Stun
