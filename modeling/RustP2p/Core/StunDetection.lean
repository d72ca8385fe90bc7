import RustP2p.Core.Stun

/-!
# What NAT detection reports

The answers of the rounds that end decide the result (`stun_detects`): the NAT is reported as
symmetric exactly if in one of these rounds two answers of the same family differ.  A round
that fails loses its answers, whatever they showed.  A NAT that gives a socket one mapping for
all servers is reported as a cone (`stun_cone`).
-/

namespace RustP2p.Stun

/-! ## What a result says -/

/-- The IP addresses and ports of the result are those of these addresses. -/
structure StunResult.Lists (result : StunResult) (addrs : List SocketAddr) : Prop where
  publicIpv4 : ∀ ip, ip ∈ result.publicIpv4 ↔ ∃ addr ∈ addrs, addr.ip = .v4 ip
  nodupIpv4 : result.publicIpv4.Nodup
  noIpv6 : result.publicIpv6 = none ↔ ∀ addr ∈ addrs, addr.isIpv4 = true
  publicIpv6 : ∀ ip, result.publicIpv6 = some ip → ∃ addr ∈ addrs, addr.ip = .v6 ip
  publicUdpPorts : ∀ port, port ∈ result.publicUdpPorts ↔ ∃ addr ∈ addrs, addr.port = port
  nodupPorts : result.publicUdpPorts.Nodup

/-- The NAT showed two addresses of one family in a round. -/
def Varies (log : List StunAnswer) : Prop :=
  ∃ x ∈ log, ∃ y ∈ log, x.mapped.isIpv4 = y.mapped.isIpv4 ∧ x.mapped ≠ y.mapped

instance (log : List StunAnswer) : Decidable (Varies log) :=
  inferInstanceAs (Decidable (∃ x ∈ log, ∃ y ∈ log,
    x.mapped.isIpv4 = y.mapped.isIpv4 ∧ x.mapped ≠ y.mapped))

/-- Two mapped addresses of one family that the NAT showed in the same round. -/
def Compared (logs : List (List StunAnswer)) (a b : SocketAddr) : Prop :=
  a.isIpv4 = b.isIpv4 ∧ ∃ log ∈ logs, (∃ x ∈ log, x.mapped = a) ∧ ∃ y ∈ log, y.mapped = b

/-- `range` is the largest distance of the ports of two related addresses. -/
structure Spans (range : UInt16) (R : SocketAddr → SocketAddr → Prop) : Prop where
  bound : ∀ a b, R a b → b.port.toNat ≤ a.port.toNat + range.toNat
  attained : range = 0 ∨ ∃ a b, R a b ∧ b.port.toNat = a.port.toNat + range.toNat

/-- What a result says of rounds with these answers. -/
structure StunResult.Describes (result : StunResult) (logs : List (List StunAnswer)) : Prop where
  lists : result.Lists (logs.flatten.map StunAnswer.mapped)
  natType : result.natType = .symmetric ↔ ∃ log ∈ logs, Varies log
  portRange : Spans result.portRange (Compared logs)

namespace StunResult

section

variable {result acc : StunResult} {addrs addrs' : List SocketAddr}

theorem Lists.congr (h : result.Lists addrs) (hmem : ∀ a, a ∈ addrs ↔ a ∈ addrs') :
    result.Lists addrs' := by
  obtain ⟨hip4, hnodup4, hnone, hip6, hports, hnodup⟩ := h
  constructor <;> simp_all

/-- The address lists may be reordered. -/
theorem Lists.perm {ipv4 : List Ipv4Addr} {ports : List UInt16} (h : result.Lists addrs)
    (h4 : ipv4.Perm result.publicIpv4) (hports : ports.Perm result.publicUdpPorts) :
    ({ result with publicIpv4 := ipv4, publicUdpPorts := ports }).Lists addrs :=
  ⟨fun ip => h4.mem_iff.trans (h.publicIpv4 ip), h4.nodup_iff.mpr h.nodupIpv4, h.noIpv6,
    h.publicIpv6, fun port => hports.mem_iff.trans (h.publicUdpPorts port),
    hports.nodup_iff.mpr h.nodupPorts⟩

theorem lists_collect (h : result.Lists addrs) (addr : SocketAddr) :
    (result.collect addr).Lists (addrs ++ [addr]) := by
  have hports (port : UInt16) : port ∈ result.publicUdpPorts.insert addr.port ↔
      ∃ a ∈ addrs ++ [addr], a.port = port := by
    rw [List.mem_insert_iff, h.publicUdpPorts]
    simp [or_and_right, exists_or, or_comm, eq_comm]
  cases addr with
  | v4 ip port =>
      refine ⟨fun a => ?_, h.nodupIpv4.insert, ?_, fun a ha => ?_, hports, h.nodupPorts.insert⟩
      · simp only [collect]
        rw [List.mem_insert_iff, h.publicIpv4]
        simp [or_and_right, exists_or, or_comm, eq_comm, SocketAddr.ip]
      · rw [show (result.collect (.v4 ip port)).publicIpv6 = result.publicIpv6 from rfl, h.noIpv6]
        simp [or_imp, forall_and, SocketAddr.isIpv4]
      · obtain ⟨addr, haddr, hip⟩ := h.publicIpv6 a ha
        exact ⟨addr, List.mem_append_left _ haddr, hip⟩
  | v6 ip port flowinfo scopeId =>
      refine ⟨fun a => ?_, h.nodupIpv4, ?_, fun a ha => ?_, hports, h.nodupPorts.insert⟩
      · rw [show (result.collect (.v6 ip port flowinfo scopeId)).publicIpv4 = result.publicIpv4
          from rfl, h.publicIpv4]
        simp [or_and_right, exists_or, SocketAddr.ip]
      · simp [collect, or_imp, forall_and, SocketAddr.isIpv4]
      · simp only [collect, Option.orElse_eq_orElse, Option.orElse_eq_or,
          Option.or_eq_some_iff] at ha
        rcases ha with ha | ⟨-, ha⟩
        · obtain ⟨addr, haddr, hip⟩ := h.publicIpv6 a ha
          exact ⟨addr, List.mem_append_left _ haddr, hip⟩
        · cases ha
          exact ⟨_, List.mem_append_right _ List.mem_cons_self, rfl⟩

/-- The loop over the mapped addresses takes what they have, and nothing else. -/
theorem foldl_collect (h : result.Lists addrs) (more : List SocketAddr) :
    (more.foldl collect result).Lists (addrs ++ more) ∧
      (more.foldl collect result).natType = result.natType ∧
      (more.foldl collect result).portRange = result.portRange := by
  induction more generalizing result addrs with
  | nil => simpa using h
  | cons a as ih =>
      obtain ⟨hlists, hnat, hrange⟩ := ih (lists_collect h a)
      have hfields : (result.collect a).natType = result.natType ∧
          (result.collect a).portRange = result.portRange := by cases a <;> exact ⟨rfl, rfl⟩
      refine ⟨by simpa using hlists, hnat.trans hfields.1, hrange.trans hfields.2⟩

theorem mem_foldl_insert {α : Type} [BEq α] [LawfulBEq α] (xs set : List α) (a : α) :
    a ∈ xs.foldl (fun set x => set.insert x) set ↔ a ∈ set ∨ a ∈ xs := by
  induction xs generalizing set with
  | nil => simp
  | cons x xs ih => simp [ih, List.mem_insert_iff, or_left_comm, or_assoc]

theorem nodup_foldl_insert {α : Type} [BEq α] [LawfulBEq α] (xs : List α) {set : List α}
    (h : set.Nodup) : (xs.foldl (fun set x => set.insert x) set).Nodup := by
  induction xs generalizing set with
  | nil => exact h
  | cons x xs ih => exact ih h.insert

theorem lists_merge (hacc : acc.Lists addrs) (h : result.Lists addrs') :
    (acc.merge result).Lists (addrs ++ addrs') := by
  refine ⟨fun ip => ?_, nodup_foldl_insert _ hacc.nodupIpv4, ?_, fun ip hip => ?_, fun port => ?_,
    nodup_foldl_insert _ hacc.nodupPorts⟩
  · simp [merge, mem_foldl_insert, hacc.publicIpv4, h.publicIpv4, or_and_right, exists_or]
  · simp [merge, hacc.noIpv6, h.noIpv6, or_imp, forall_and]
  · simp only [merge, Option.orElse_eq_orElse, Option.orElse_eq_or, Option.or_eq_some_iff] at hip
    rcases hip with hip | ⟨-, hip⟩
    · obtain ⟨addr, haddr, hip⟩ := hacc.publicIpv6 ip hip
      exact ⟨addr, List.mem_append_left _ haddr, hip⟩
    · obtain ⟨addr, haddr, hip⟩ := h.publicIpv6 ip hip
      exact ⟨addr, List.mem_append_right _ haddr, hip⟩
  · simp [merge, mem_foldl_insert, hacc.publicUdpPorts, h.publicUdpPorts, or_and_right, exists_or]

end

end StunResult

/-! ### The NAT type and the port range -/

theorem Spans.congr {range : UInt16} {R R' : SocketAddr → SocketAddr → Prop} (h : Spans range R)
    (hR : ∀ a b, R a b ↔ R' a b) : Spans range R' := by
  have heq : R = R' := funext fun a => funext fun b => propext (hR a b)
  exact heq ▸ h

/-- The larger of two ranges spans both relations. -/
theorem Spans.or {m n range : UInt16} {R R' : SocketAddr → SocketAddr → Prop} (h : Spans m R)
    (h' : Spans n R') (hm : m ≤ range) (hn : n ≤ range) (hrange : range = m ∨ range = n) :
    Spans range fun a b => R a b ∨ R' a b := by
  rw [UInt16.le_iff_toNat_le] at hm hn
  refine ⟨fun a b hab => ?_, ?_⟩
  · rcases hab with hab | hab
    · exact Nat.le_trans (h.bound a b hab) (by omega)
    · exact Nat.le_trans (h'.bound a b hab) (by omega)
  · rcases hrange with rfl | rfl
    · exact h.attained.imp_right fun ⟨a, b, hab, hport⟩ => ⟨a, b, Or.inl hab, hport⟩
    · exact h'.attained.imp_right fun ⟨a, b, hab, hport⟩ => ⟨a, b, Or.inr hab, hport⟩

theorem Spans.max {m n : UInt16} {R R' : SocketAddr → SocketAddr → Prop} (h : Spans m R)
    (h' : Spans n R') : Spans (Max.max m n) fun a b => R a b ∨ R' a b := by
  rw [show Max.max m n = if m ≤ n then n else m from rfl]
  exact h.or h' (by grind) (by grind) (by grind)

theorem spans_mappedPortRange (addrs : List SocketAddr) :
    Spans (mappedPortRange addrs) fun a b => a ∈ addrs ∧ b ∈ addrs := by
  have hsmall (addr : SocketAddr) : addr.port.toNat < 65536 := addr.port.toNat_lt
  simp only [mappedPortRange]
  cases hmax : (addrs.map fun addr => addr.port.toNat).max? with
  | none =>
      have hnil : addrs = [] := by simpa using hmax
      subst hnil
      exact ⟨by simp, Or.inl rfl⟩
  | some top =>
      cases hmin : (addrs.map fun addr => addr.port.toNat).min? with
      | none =>
          have hnil : addrs = [] := by simpa using hmin
          subst hnil
          exact ⟨by simp, Or.inl (by simp at hmax)⟩
      | some low =>
          simp only [List.max?_eq_some_iff, List.min?_eq_some_iff, List.mem_map,
            forall_exists_index, and_imp, forall_apply_eq_imp_iff₂] at hmax hmin
          obtain ⟨⟨b, hb, rfl⟩, htop⟩ := hmax
          obtain ⟨⟨a, ha, rfl⟩, hlow⟩ := hmin
          have hrange : (UInt16.ofNat (b.port.toNat - a.port.toNat)).toNat =
              b.port.toNat - a.port.toNat :=
            UInt16.toNat_ofNat_of_lt' (by have := hsmall b; simp only [UInt16.size]; omega)
          simp only [Option.getD_some]
          refine ⟨fun x y hxy => ?_, Or.inr ⟨a, b, ⟨ha, hb⟩, ?_⟩⟩
          · have hx := hlow x hxy.1
            have hy := htop y hxy.2
            omega
          · have hle := hlow b hb
            omega

/-- A set has more than one element if two of them differ. -/
theorem one_lt_length_iff {α : Type} {set : List α} (h : set.Nodup) :
    set.length > 1 ↔ ∃ a ∈ set, ∃ b ∈ set, a ≠ b := by
  cases set with
  | nil => simp
  | cons c rest =>
      cases rest with
      | nil => simp
      | cons d rest =>
          have hcd : c ≠ d := by
            rintro rfl
            simp at h
          refine iff_of_true (by simp) ⟨c, List.mem_cons_self, d, ?_, hcd⟩
          exact List.mem_cons_of_mem c List.mem_cons_self

theorem mappedNatType_eq_symmetric {set₄ set₆ : List SocketAddr} (h₄ : set₄.Nodup)
    (h₆ : set₆.Nodup) : mappedNatType set₄ set₆ = .symmetric ↔
      (∃ a ∈ set₄, ∃ b ∈ set₄, a ≠ b) ∨ ∃ a ∈ set₆, ∃ b ∈ set₆, a ≠ b := by
  rw [← one_lt_length_iff h₄, ← one_lt_length_iff h₆]
  simp only [mappedNatType]
  split
  next h => simpa using h
  next h => simpa using h

/-! ### The rounds and their result -/

/-- The rounds that end, up to the first one in which the NAT varies. -/
def stunRoundsEnded (config : StunConfig) (servers : List String) :
    List StunEnv → List (StunEnv × StunRound)
  | [] => []
  | env :: envs =>
      match StunRound.run env config servers with
      | .ok r => (env, r) :: if Varies r.log then [] else stunRoundsEnded config servers envs
      | .error _ => stunRoundsEnded config servers envs

theorem StunRound.Sound.compared {env : StunEnv} {config : StunConfig} {r : StunRound}
    (h : r.Sound env config) (a b : SocketAddr) : Compared [r.log] a b ↔
      (a ∈ r.pubAddrsV4 ∧ b ∈ r.pubAddrsV4) ∨ a ∈ r.pubAddrsV6 ∧ b ∈ r.pubAddrsV6 := by
  simp only [Compared, List.mem_singleton, exists_eq_left, h.memV4, h.memV6]
  cases a.isIpv4 <;> cases b.isIpv4 <;> simp

theorem varies_iff (log : List StunAnswer) : Varies log ↔ ∃ a b, Compared [log] a b ∧ a ≠ b := by
  constructor
  · rintro ⟨x, hx, y, hy, hfamily, hne⟩
    exact ⟨x.mapped, y.mapped, ⟨hfamily, log, by simp, ⟨x, hx, rfl⟩, y, hy, rfl⟩, hne⟩
  · rintro ⟨_, _, ⟨hfamily, l, hl, ⟨x, hx, rfl⟩, y, hy, rfl⟩, hne⟩
    obtain rfl := List.mem_singleton.mp hl
    exact ⟨x, hx, y, hy, hfamily, hne⟩

theorem compared_append (logs logs' : List (List StunAnswer)) (a b : SocketAddr) :
    Compared (logs ++ logs') a b ↔ Compared logs a b ∨ Compared logs' a b := by
  simp only [Compared, List.mem_append, or_and_right, exists_or, and_or_left]

/-- The result of a round says what its answers were. -/
theorem result_describes {env : StunEnv} {config : StunConfig} {r : StunRound}
    (h : r.Sound env config) : (r.result env).Describes [r.log] := by
  have hempty (natType : NatType) (range : UInt16) :
      (StunResult.mk natType [] none [] range).Lists [] := by constructor <;> simp
  obtain ⟨hlists, hnat, hrange⟩ := StunResult.foldl_collect
    (hempty (mappedNatType r.pubAddrsV4 r.pubAddrsV6)
      (max (mappedPortRange r.pubAddrsV4) (mappedPortRange r.pubAddrsV6)))
    (env.iterate r.pubAddrsV4 ++ env.iterate r.pubAddrsV6)
  constructor
  · refine (hlists.perm (env.iterate_perm _) (env.iterate_perm _)).congr fun a => ?_
    have hmem₄ := (env.iterate_perm r.pubAddrsV4).mem_iff (a := a)
    have hmem₆ := (env.iterate_perm r.pubAddrsV6).mem_iff (a := a)
    simp only [List.nil_append, List.mem_append, hmem₄, hmem₆, h.memV4, h.memV6]
    cases a.isIpv4 <;> simp
  · simp only [StunRound.result, List.mem_singleton, exists_eq_left]
    rw [hnat, mappedNatType_eq_symmetric h.nodupV4 h.nodupV6, varies_iff]
    constructor
    · rintro (⟨a, ha, b, hb, hne⟩ | ⟨a, ha, b, hb, hne⟩)
      · exact ⟨a, b, (h.compared a b).mpr (Or.inl ⟨ha, hb⟩), hne⟩
      · exact ⟨a, b, (h.compared a b).mpr (Or.inr ⟨ha, hb⟩), hne⟩
    · rintro ⟨a, b, hab, hne⟩
      rcases (h.compared a b).mp hab with ⟨ha, hb⟩ | ⟨ha, hb⟩
      · exact Or.inl ⟨a, ha, b, hb, hne⟩
      · exact Or.inr ⟨a, ha, b, hb, hne⟩
  · have hspans : Spans (r.result env).portRange fun a b =>
        (a ∈ r.pubAddrsV4 ∧ b ∈ r.pubAddrsV4) ∨ a ∈ r.pubAddrsV6 ∧ b ∈ r.pubAddrsV6 := by
      simp only [StunRound.result]
      rw [hrange]
      exact (spans_mappedPortRange _).max (spans_mappedPortRange _)
    exact hspans.congr fun a b => (h.compared a b).symm

/-- Merging the result of another round adds what that round says. -/
theorem merge_describes {acc result : StunResult} {logs logs' : List (List StunAnswer)}
    (hacc : acc.Describes logs) (h : result.Describes logs') :
    (acc.merge result).Describes (logs ++ logs') := by
  constructor
  · simpa using StunResult.lists_merge hacc.lists h.lists
  · simp only [StunResult.merge, List.mem_append, or_and_right, exists_or, ← hacc.natType,
      ← h.natType]
    split
    next hsym => simp [hsym]
    next hcone => simp [hcone]
  · have hspans : Spans (acc.merge result).portRange fun a b =>
        Compared logs a b ∨ Compared logs' a b := by
      simp only [StunResult.merge]
      exact hacc.portRange.or h.portRange (by grind) (by grind) (by grind)
    exact hspans.congr fun a b => (compared_append logs logs' a b).symm

theorem stunRounds_describes (config : StunConfig) (servers : List String) (envs : List StunEnv)
    {acc : StunResult} {logs : List (List StunAnswer)} (hacc : acc.Describes logs) :
    (stunRounds config servers envs acc).Describes
      (logs ++ (stunRoundsEnded config servers envs).map fun round => round.2.log) := by
  induction envs generalizing acc logs with
  | nil => simpa [stunRounds, stunRoundsEnded] using hacc
  | cons env envs ih =>
      simp only [stunRounds, stunRoundsEnded, stunTestNat0]
      cases hrun : StunRound.run env config servers with
      | error e => simpa [Except.map] using ih hacc
      | ok r =>
          have hround := result_describes (StunRound.run_spec hrun).1
          have hmerged := merge_describes hacc hround
          have hsym : (r.result env).natType = .symmetric ↔ Varies r.log := by
            simpa using hround.natType
          simp only [Except.map, hsym]
          split
          next => simpa using hmerged
          next => simpa using ih hmerged

theorem stunRoundsEnded_spec (config : StunConfig) (servers : List String) (envs : List StunEnv) :
    ∀ round ∈ stunRoundsEnded config servers envs, round.1 ∈ envs ∧
      StunRound.run round.1 config servers = .ok round.2 := by
  induction envs with
  | nil => simp [stunRoundsEnded]
  | cons env envs ih =>
      have htail : ∀ round ∈ stunRoundsEnded config servers envs, round.1 ∈ env :: envs ∧
          StunRound.run round.1 config servers = .ok round.2 :=
        fun round hround => (ih round hround).imp_left (List.mem_cons_of_mem env)
      simp only [stunRoundsEnded]
      cases hrun : StunRound.run env config servers with
      | error e => exact htail
      | ok r =>
          intro round hround
          rcases List.mem_cons.mp hround with rfl | hround
          · exact ⟨List.mem_cons_self, hrun⟩
          · split at hround
            next => cases hround
            next => exact htail round hround

/-- The detection says what its rounds saw.  Before and after the last reordering. -/
theorem stunTestNatBound_describes (first second : StunEnv) (config : StunConfig)
    (servers : List String) : (stunTestNatBound first second config servers).Describes
      ((stunRoundsEnded config servers [first, second]).map fun round => round.2.log) := by
  have hstart : (StunResult.mk .cone [] none [] 0).Describes [] := by
    refine ⟨by constructor <;> simp, by simp, ⟨?_, Or.inl rfl⟩⟩
    rintro a b ⟨-, log, hlog, -⟩
    cases hlog
  have h := stunRounds_describes config servers [first, second] hstart
  exact ⟨h.lists.perm (second.iterate_perm _) (second.iterate_perm _), h.natType, h.portRange⟩

/-- A round that fails leaves nothing behind. -/
theorem stunRounds_of_error {env : StunEnv} {config : StunConfig} {servers : List String}
    {e : IoError} (h : StunRound.run env config servers = .error e) (envs : List StunEnv)
    (acc : StunResult) :
    stunRounds config servers (env :: envs) acc = stunRounds config servers envs acc := by
  simp only [stunRounds, stunTestNat0, h]
  rfl

/-- The detection reports what the NAT showed in the rounds that ended, and they asked all
there is to ask.  The NAT is symmetric exactly if in one of them two of its addresses of one
family differ; addresses, ports and the port range are those of the answers.  Each answer was
given to a request from a socket that is allowed, and no server keeps another one from being
heard.  A round fails only because a socket cannot be opened, and then the answers it was
given by then are lost; if both rounds fail, the NAT is taken for a cone without addresses. -/
theorem stun_detects (first second : StunEnv) (config : StunConfig) (servers : List String) :
    let ended := stunRoundsEnded config servers [first, second]
    (stunTestNatBound first second config servers).Describes
        (ended.map fun round => round.2.log) ∧
      (∀ env r, (env, r) ∈ ended → (env = first ∨ env = second) ∧
        StunRound.run env config servers = .ok r ∧
        (∀ x ∈ r.log, x.Given env ∧ (config.enableIpv6 = false → x.isIpv4 = true)) ∧
        ∀ server ∈ servers, r.Heard env config server) ∧
      (∀ env e, StunRound.run env config servers = .error e →
        StunRound.NoSocket env config e ∧
        ∃ r, StunRound.Fails env config servers r e ∧ ∀ x ∈ r.log, x.Given env) ∧
      ∀ e e', StunRound.run first config servers = .error e →
        StunRound.run second config servers = .error e' →
        stunTestNatBound first second config servers = ⟨.cone, [], none, [], 0⟩ := by
  refine ⟨stunTestNatBound_describes first second config servers, fun env r hround => ?_,
    fun env e herror => ?_, fun e e' hfirst hsecond => ?_⟩
  · obtain ⟨henv, hrun⟩ := stunRoundsEnded_spec config servers _ _ hround
    obtain ⟨hsound, hheard⟩ := StunRound.run_spec hrun
    refine ⟨by simpa using henv, hrun, fun x hx => ⟨hsound.given x hx, fun hdisabled => ?_⟩,
      hheard⟩
    exact hsound.family hdisabled x hx
  · obtain ⟨r, hfails⟩ := StunRound.exists_fails herror
    exact ⟨hfails.spec.2, r, hfails, hfails.spec.1.given⟩
  · have hnil {α : Type} : second.iterate ([] : List α) = [] :=
      List.perm_nil.mp (second.iterate_perm [])
    have hrounds : stunRounds config servers [first, second] ⟨.cone, [], none, [], 0⟩ =
        ⟨.cone, [], none, [], 0⟩ := by
      rw [stunRounds_of_error hfirst, stunRounds_of_error hsecond]
      rfl
    simp only [stunTestNatBound, hrounds, hnil]

/-- Two servers see different ports, and then the configured IPv6 address cannot be bound. -/
def StunEnv.failing : StunEnv where
  resolve _ server := .ok [if server = "six" then .v6 .unspecified 3478 0 0
    else .v4 ⟨198, 51, 100, 1⟩ (UInt16.ofNat server.length)]
  bindUdp addr := if addr.isIpv4 then .ok () else .error ⟨.other, "cannot assign address"⟩
  fromStd _ := .ok ()
  connect _ _ _ := .ok ()
  random _ := 7
  send _ _ := .ok ()
  recv _ request := some (.ok [.xorMappedAddress (.v4 ⟨203, 0, 113, 10⟩ request.peer.port)])
  iterate set := set
  iterate_perm set := List.Perm.refl set

/-- The round would have found a symmetric NAT.  It fails at the last server, and the NAT is
taken for a cone. -/
example :
    ((StunRound.run .failing ⟨none, some .unspecified, true⟩ ["a", "bb"]).map fun r =>
      decide (Varies r.log)) = .ok true ∧
    stunTestNatBound .failing .failing ⟨none, some .unspecified, true⟩ ["a", "bb", "six"] =
      ⟨.cone, [], none, [], 0⟩ := by
  decide

/-- The NAT shows the sockets of a round with these addresses, whatever they send to. -/
def StunEnv.Maps (env : StunEnv) (mapping : Bool → SocketAddr) : Prop :=
  (∀ isIpv4, (mapping isIpv4).isIpv4 = isIpv4) ∧
    ∀ clock request attrs addr, env.recv clock request = some (.ok attrs) →
      attrs.findSome? StunAttr.mapped = some addr → addr = mapping request.isIpv4

theorem StunAnswer.Given.mapped_eq {env : StunEnv} {mapping : Bool → SocketAddr} {x : StunAnswer}
    (hmaps : env.Maps mapping) (h : x.Given env) : x.mapped = mapping x.mapped.isIpv4 := by
  obtain ⟨clock, request, attrs, -, -, -, hrecv, hfind⟩ := h
  have heq := hmaps.2 clock request attrs x.mapped hrecv hfind
  have hfamily : x.mapped.isIpv4 = request.isIpv4 := by rw [heq, hmaps.1]
  rw [hfamily]
  exact heq

/-- A NAT with one mapping a socket is reported as a cone, without a port range, even though
the sockets of the second round have other mappings than those of the first.  What is reported
are addresses and ports of these mappings. -/
theorem stun_cone (first second : StunEnv) (config : StunConfig) (servers : List String)
    (mapping₁ mapping₂ : Bool → SocketAddr) (hfirst : first.Maps mapping₁)
    (hsecond : second.Maps mapping₂) :
    let result := stunTestNatBound first second config servers
    result.natType = .cone ∧ result.portRange = 0 ∧
      (∀ ip ∈ result.publicIpv4, (mapping₁ true).ip = .v4 ip ∨ (mapping₂ true).ip = .v4 ip) ∧
      (∀ ip, result.publicIpv6 = some ip →
        (mapping₁ false).ip = .v6 ip ∨ (mapping₂ false).ip = .v6 ip) ∧
      ∀ port ∈ result.publicUdpPorts, ∃ isIpv4,
        (mapping₁ isIpv4).port = port ∨ (mapping₂ isIpv4).port = port := by
  have hrounds := stunRoundsEnded_spec config servers [first, second]
  have hdesc := stunTestNatBound_describes first second config servers
  have hmapped : ∀ round ∈ stunRoundsEnded config servers [first, second], ∃ mapping,
      (mapping = mapping₁ ∨ mapping = mapping₂) ∧
        ∀ x ∈ round.2.log, x.mapped = mapping x.mapped.isIpv4 := by
    intro round hround
    obtain ⟨henv, hrun⟩ := hrounds round hround
    have hsound := (StunRound.run_spec hrun).1
    simp only [List.mem_cons, List.not_mem_nil, or_false] at henv
    rcases henv with henv | henv
    · exact ⟨mapping₁, Or.inl rfl, fun x hx => (hsound.given x hx).mapped_eq (henv ▸ hfirst)⟩
    · exact ⟨mapping₂, Or.inr rfl, fun x hx => (hsound.given x hx).mapped_eq (henv ▸ hsecond)⟩
  generalize stunRoundsEnded config servers [first, second] = rounds at hdesc hmapped
  generalize stunTestNatBound first second config servers = result at hdesc ⊢
  -- In one round, two addresses of one family are those of one socket.
  have hsame (a b : SocketAddr) (h : Compared (rounds.map fun round => round.2.log) a b) :
      a = b := by
    obtain ⟨hfamily, log, hlog, ⟨x, hx, rfl⟩, y, hy, rfl⟩ := h
    obtain ⟨round, hround, rfl⟩ := List.mem_map.mp hlog
    obtain ⟨mapping, -, hall⟩ := hmapped round hround
    rw [hall x hx, hall y hy, hfamily]
  have haddr (addr : SocketAddr)
      (h : addr ∈ (rounds.map fun round => round.2.log).flatten.map StunAnswer.mapped) :
      addr = mapping₁ addr.isIpv4 ∨ addr = mapping₂ addr.isIpv4 := by
    obtain ⟨x, hx, rfl⟩ := List.mem_map.mp h
    obtain ⟨log, hlog, hx⟩ := List.mem_flatten.mp hx
    obtain ⟨round, hround, rfl⟩ := List.mem_map.mp hlog
    obtain ⟨mapping, hmapping, hall⟩ := hmapped round hround
    rcases hmapping with rfl | rfl
    · exact Or.inl (hall x hx)
    · exact Or.inr (hall x hx)
  refine ⟨?_, ?_, fun ip hip => ?_, fun ip hip => ?_, fun port hport => ?_⟩
  · have hcone : result.natType ≠ .symmetric := by
      intro hsym
      obtain ⟨log, hlog, x, hx, y, hy, hfamily, hne⟩ := hdesc.natType.mp hsym
      exact hne (hsame _ _ ⟨hfamily, log, hlog, ⟨x, hx, rfl⟩, y, hy, rfl⟩)
    cases hnat : result.natType with
    | cone => rfl
    | symmetric => exact absurd hnat hcone
  · rcases hdesc.portRange.attained with hzero | ⟨a, b, hab, hport⟩
    · exact hzero
    · obtain rfl := hsame a b hab
      exact UInt16.toNat_inj.mp (by simp only [UInt16.toNat_zero]; omega)
  · obtain ⟨addr, hmem, hip⟩ := (hdesc.lists.publicIpv4 ip).mp hip
    have h4 : addr.isIpv4 = true := by cases addr <;> simp_all [SocketAddr.ip, SocketAddr.isIpv4]
    rcases haddr addr hmem with h | h
    · exact Or.inl (by rw [h4] at h; rwa [← h])
    · exact Or.inr (by rw [h4] at h; rwa [← h])
  · obtain ⟨addr, hmem, hip⟩ := hdesc.lists.publicIpv6 ip hip
    have h6 : addr.isIpv4 = false := by cases addr <;> simp_all [SocketAddr.ip, SocketAddr.isIpv4]
    rcases haddr addr hmem with h | h
    · exact Or.inl (by rw [h6] at h; rwa [← h])
    · exact Or.inr (by rw [h6] at h; rwa [← h])
  · obtain ⟨addr, hmem, rfl⟩ := (hdesc.lists.publicUdpPorts port).mp hport
    exact ⟨addr.isIpv4, (haddr addr hmem).imp (fun h => by rw [← h]) fun h => by rw [← h]⟩

/-- A NAT of one IPv4 address, and two servers that answer with the port the NAT has for a
round. -/
def StunEnv.onePort (port : UInt16) : StunEnv where
  resolve _ server := .ok [.v4 ⟨198, 51, 100, 1⟩ (UInt16.ofNat server.length)]
  bindUdp _ := .ok ()
  fromStd _ := .ok ()
  connect _ _ _ := .ok ()
  random _ := 7
  send _ _ := .ok ()
  recv _ request := some (.ok [.xorMappedAddress
    (if request.isIpv4 then .v4 ⟨203, 0, 113, 10⟩ port else .v6 .unspecified port)])
  iterate set := set
  iterate_perm set := List.Perm.refl set

theorem StunEnv.onePort_maps (port : UInt16) : (onePort port).Maps fun isIpv4 =>
    if isIpv4 then .v4 ⟨203, 0, 113, 10⟩ port else .v6 .unspecified port 0 0 := by
  refine ⟨fun isIpv4 => by cases isIpv4 <;> rfl, fun clock request attrs addr hrecv hfind => ?_⟩
  simp only [onePort, Option.some.injEq, Except.ok.injEq] at hrecv
  subst hrecv
  cases hfamily : request.isIpv4 <;> simp_all [StunAttr.mapped, stunAddr]

/-- Two rounds with different ports. -/
theorem stun_cone_two_rounds :
    let result := stunTestNatBound (.onePort 40000) (.onePort 41000) ⟨none, none, false⟩
      ["stun.a", "stun.bb"]
    result.publicUdpPorts = [41000, 40000] ∧ result.natType = .cone ∧ result.portRange = 0 := by
  have h := stun_cone (.onePort 40000) (.onePort 41000) ⟨none, none, false⟩ ["stun.a", "stun.bb"]
    _ _ (StunEnv.onePort_maps 40000) (StunEnv.onePort_maps 41000)
  exact ⟨by decide, h.1, h.2.1⟩

end RustP2p.Stun
