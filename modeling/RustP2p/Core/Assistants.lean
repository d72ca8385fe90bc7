import RustP2p.Core.PunchRound
import RustP2p.Lib.CriticalSection

/-!
# Assistant sockets

`Puncher::apply_nat_model` and the assistant sockets of a `SocketPool`.  Every handle of a
puncher may call it, so that calls overlap.  A call for a symmetric NAT counts the sockets and
then adds what is missing, one by one, and any of these binds may fail.  `assistant_udp` has a
lock of its own for each read and write; `assistant_model_lock` is held for the whole call.

`applyNatModel` is the call as a section of code under that lock, with a turn for each access
to the list and for each socket operation.  The sockets are given by their local addresses.
-/

namespace RustP2p

open Transition CriticalSection

/-- `bind_udp` and `UdpSocket::from_std`, as they go at one turn. -/
structure SocketCalls where
  /-- The local address of the socket. -/
  bindUdp : SocketAddr → IoResult SocketAddr
  fromStd : SocketAddr → IoResult Unit

/-- Where a call of `apply_nat_model` is. -/
inductive ModelPhase where
  /-- Before `assistant_count`. -/
  | start (natType : NatType)
  /-- In the loop, with so many turns left. -/
  | adding (left : Nat)
  /-- `bind_udp` has given this socket. -/
  | bound (socket : SocketAddr) (left : Nat)
  /-- Before `clean_assistant_udp`. -/
  | cleaning
deriving DecidableEq, Repr

/-- `apply_nat_model`. -/
def applyNatModel (config : NatQueryConfig) (maxAssistantSockets : Nat) :
    Section (List SocketAddr) ModelPhase NatType (IoResult Unit) SocketCalls where
  enter := .start
  turn calls assistants
    | .start .symmetric =>
        let current := assistants.length
        if maxAssistantSockets > current then
          (assistants, .inl (.adding (maxAssistantSockets - current)))
        else (assistants, .inr (.ok ()))
    | .start .cone =>
        if assistants.length > 0 then (assistants, .inl .cleaning)
        else (assistants, .inr (.ok ()))
    | .adding 0 => (assistants, .inr (.ok ()))
    | .adding (left + 1) =>
        match calls.bindUdp (.v4 (config.bindIpv4.getD .unspecified) 0) with
        | .ok socket => (assistants, .inl (.bound socket left))
        | .error e => (assistants, .inr (.error e))
    | .bound socket left =>
        match calls.fromStd socket with
        | .ok () => (assistants ++ [socket], .inl (.adding left))
        | .error e => (assistants, .inr (.error e))
    | .cleaning => ([], .inr (.ok ()))

/-! ## One call -/

/-- What a call that began with the assistants `before` has done so far. -/
inductive Adjusting (maxAssistantSockets : Nat) (before : List SocketAddr) :
    NatType → ModelPhase → List SocketAddr → Prop where
  | start (natType : NatType) (hbound : before.length ≤ maxAssistantSockets) :
      Adjusting maxAssistantSockets before natType (.start natType) before
  | adding {new : List SocketAddr} {left : Nat}
      (htotal : (before ++ new).length + left = maxAssistantSockets) :
      Adjusting maxAssistantSockets before .symmetric (.adding left) (before ++ new)
  | bound {new : List SocketAddr} {left : Nat} (socket : SocketAddr)
      (htotal : (before ++ new).length + (left + 1) = maxAssistantSockets) :
      Adjusting maxAssistantSockets before .symmetric (.bound socket left) (before ++ new)
  | cleaning (hbound : before.length ≤ maxAssistantSockets) :
      Adjusting maxAssistantSockets before .cone .cleaning before

/-- What a call does.  For a symmetric NAT sockets are added, and no less than `max` unless it
fails; for a cone all are removed. -/
inductive Applied (maxAssistantSockets : Nat) :
    NatType → List SocketAddr → IoResult Unit → List SocketAddr → Prop where
  | filled {before new : List SocketAddr}
      (htotal : (before ++ new).length = maxAssistantSockets) :
      Applied maxAssistantSockets .symmetric before (.ok ()) (before ++ new)
  | failed {before new : List SocketAddr} (e : IoError)
      (htotal : (before ++ new).length < maxAssistantSockets) :
      Applied maxAssistantSockets .symmetric before (.error e) (before ++ new)
  | cleaned (before : List SocketAddr) : Applied maxAssistantSockets .cone before (.ok ()) []

section

variable {config : NatQueryConfig} {maxAssistantSockets : Nat}

theorem Adjusting.length_le {before assistants : List SocketAddr} {natType : NatType}
    {phase : ModelPhase} (h : Adjusting maxAssistantSockets before natType phase assistants) :
    assistants.length ≤ maxAssistantSockets := by
  cases h with
  | start _ hbound => exact hbound
  | adding htotal => omega
  | bound _ htotal => omega
  | cleaning hbound => exact hbound

theorem Applied.length_le {before assistants : List SocketAddr} {natType : NatType}
    {r : IoResult Unit} (h : Applied maxAssistantSockets natType before r assistants) :
    assistants.length ≤ maxAssistantSockets := by
  cases h with
  | filled htotal => omega
  | failed e htotal => omega
  | cleaned before => exact Nat.zero_le _

/-- What a turn of a call leads to: it goes on, or it ends. -/
def Turned (maxAssistantSockets : Nat) (natType : NatType) (before : List SocketAddr) :
    List SocketAddr × (ModelPhase ⊕ IoResult Unit) → Prop
  | (assistants, .inl phase) => Adjusting maxAssistantSockets before natType phase assistants
  | (assistants, .inr r) => Applied maxAssistantSockets natType before r assistants

section Turns

variable {calls : SocketCalls} {before new : List SocketAddr} {left : Nat}

/-- The sockets are counted. -/
theorem turned_start (natType : NatType) (hbound : before.length ≤ maxAssistantSockets) :
    Turned maxAssistantSockets natType before
      ((applyNatModel config maxAssistantSockets).turn calls before (.start natType)) := by
  cases natType with
  | symmetric =>
      simp only [applyNatModel]
      split
      next hmore =>
        have htotal : (before ++ []).length + (maxAssistantSockets - before.length) =
            maxAssistantSockets := by simp only [List.append_nil]; omega
        simpa [Turned] using Adjusting.adding htotal
      next hfull =>
        have htotal : (before ++ []).length = maxAssistantSockets := by
          simp only [List.append_nil]
          omega
        simpa [Turned] using Applied.filled htotal
  | cone =>
      simp only [applyNatModel]
      split
      next => exact .cleaning hbound
      next hnone =>
        obtain rfl : before = [] := List.length_eq_zero_iff.mp (by omega)
        exact .cleaned []

/-- The next socket is bound, if one is missing. -/
theorem turned_adding (htotal : (before ++ new).length + left = maxAssistantSockets) :
    Turned maxAssistantSockets .symmetric before
      ((applyNatModel config maxAssistantSockets).turn calls (before ++ new) (.adding left)) := by
  cases left with
  | zero => exact .filled htotal
  | succ left =>
      simp only [applyNatModel]
      split
      next socket _ => exact .bound socket htotal
      next error _ => exact .failed error (by omega)

/-- It joins the others. -/
theorem turned_bound {socket : SocketAddr}
    (htotal : (before ++ new).length + (left + 1) = maxAssistantSockets) :
    Turned maxAssistantSockets .symmetric before
      ((applyNatModel config maxAssistantSockets).turn calls (before ++ new)
        (.bound socket left)) := by
  simp only [applyNatModel]
  split
  next =>
    rw [List.append_assoc]
    refine .adding ?_
    simp only [List.length_append, List.length_singleton] at htotal ⊢
    omega
  next error _ => exact .failed error (by omega)

theorem Adjusting.turned {assistants : List SocketAddr} {natType : NatType} {phase : ModelPhase}
    (h : Adjusting maxAssistantSockets before natType phase assistants) :
    Turned maxAssistantSockets natType before
      ((applyNatModel config maxAssistantSockets).turn calls assistants phase) := by
  cases h with
  | start _ hbound => exact turned_start natType hbound
  | adding htotal => exact turned_adding htotal
  | bound socket htotal => exact turned_bound htotal
  | cleaning => exact Applied.cleaned before

end Turns

theorem applyNatModel_meets : Meets (applyNatModel config maxAssistantSockets)
    (fun assistants => assistants.length ≤ maxAssistantSockets)
    (fun natType before => Adjusting maxAssistantSockets before natType)
    (fun natType before => Applied maxAssistantSockets natType before) := by
  refine ⟨fun natType before => .start natType, ?_, ?_, fun natType before r e => Applied.length_le⟩
  · intro natType before calls e t e' t' h hturn
    have hturned : Turned maxAssistantSockets natType before
        ((applyNatModel config maxAssistantSockets).turn calls e t) := h.turned
    rw [hturn] at hturned
    exact hturned
  · intro natType before calls e t e' r h hturn
    have hturned : Turned maxAssistantSockets natType before
        ((applyNatModel config maxAssistantSockets).turn calls e t) := h.turned
    rw [hturn] at hturned
    exact hturned

end

/-! ## All interleavings -/

/-- Whatever calls overlap and whichever binds fail, there are never more assistants than
configured, not even within a call.  The calls take effect one after another: no two of them
are within the lock at a time.  When the lock is free, the last call to return has the number
of assistants it asked for, or it was for a symmetric NAT and reported an error. -/
theorem assistants_adjusted {θ : Type} [DecidableEq θ] (config : NatQueryConfig)
    (maxAssistantSockets : Nat) {es : List (Event θ NatType SocketCalls)}
    {s : Threads θ (List SocketAddr) ModelPhase NatType (IoResult Unit)}
    (hrun : run (step (applyNatModel config maxAssistantSockets)) (.start []) es = some s) :
    s.data.length ≤ maxAssistantSockets ∧
    (∀ i j, (s.pc i).Within → (s.pc j).Within → i = j) ∧
    ∃ d, Serial (fun natType before => Applied maxAssistantSockets natType before) []
        (outputs (step (applyNatModel config maxAssistantSockets)) returned (.start []) es) d ∧
      (s.holder = none → s.data = d ∧ ∀ calls i natType r,
        outputs (step (applyNatModel config maxAssistantSockets)) returned (.start []) es =
          calls ++ [(i, natType, r)] →
        (natType = .symmetric → (r = .ok () ↔ s.data.length = maxAssistantSockets)) ∧
        (natType = .cone → r = .ok () ∧ s.data = [])) := by
  have hinit : ([] : List SocketAddr).length ≤ maxAssistantSockets := Nat.zero_le _
  obtain ⟨d, hsound⟩ := run_serial applyNatModel_meets hinit hrun
  refine ⟨?_, fun i j hi hj => ?_, d, hsound.serial, fun hfree => ⟨hsound.free hfree, ?_⟩⟩
  · cases hholder : s.holder with
    | none =>
        rw [hsound.free hholder]
        exact hsound.inv
    | some i =>
        have hprogress := hsound.held i hholder
        generalize s.pc i = pc at hprogress
        cases hprogress with
        | inside h => exact h.length_le
        | leaving h => exact h.length_le
  · exact Option.some.inj ((hsound.exclusive i hi).symm.trans (hsound.exclusive j hj))
  · intro calls i natType r hcalls
    have hserial := hsound.serial
    rw [hcalls] at hserial
    obtain ⟨before, happlied⟩ := hserial.last
    rw [hsound.free hfree]
    cases happlied with
    | filled htotal => exact ⟨fun _ => by simpa using htotal, fun h => by cases h⟩
    | failed e htotal =>
        have hresult : (.error e : IoResult Unit) ≠ .ok () := fun h => by cases h
        exact ⟨fun _ => ⟨fun h => absurd h hresult, fun h => absurd h (by omega)⟩,
          fun h => by cases h⟩
    | cleaned before => exact ⟨(fun h => by cases h), fun _ => ⟨rfl, rfl⟩⟩

/-- Socket calls that give this port, or fail. -/
def SocketCalls.give (port : Option UInt16) : SocketCalls where
  bindUdp addr := match addr, port with
    | .v4 ip _, some port => .ok (.v4 ip port)
    | _, _ => .error ⟨.other, "bind"⟩
  fromStd _ := .ok ()

/-- Two calls overlap, and the second bind of the first fails: the other call adds what is
missing. -/
theorem assistants_adjusted_overlap :
    let es : List (Event Bool NatType SocketCalls) :=
      [.call true .symmetric, .acquire true, .call false .symmetric, .turn true (.give none),
        .turn true (.give (some 5001)), .turn true (.give none), .turn true (.give none),
        .release true, .acquire false, .turn false (.give none),
        .turn false (.give (some 5002)), .turn false (.give none), .turn false (.give none),
        .release false]
    ∃ s, run (step (applyNatModel ⟨none, none, true⟩ 2)) (.start []) es = some s ∧
      s.data = [.v4 .unspecified 5001, .v4 .unspecified 5002] ∧ s.data.length ≤ 2 := by
  intro es
  have hends : ∃ s, run (step (applyNatModel ⟨none, none, true⟩ 2)) (.start []) es = some s ∧
      s.data = [.v4 .unspecified 5001, .v4 .unspecified 5002] := by decide
  obtain ⟨s, hrun, hdata⟩ := hends
  exact ⟨s, hrun, hdata, (assistants_adjusted ⟨none, none, true⟩ 2 hrun).1⟩

end RustP2p
