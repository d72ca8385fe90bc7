import RustP2p.Quic.Socket

/-!
# Racing registrations

`register_virtual_peer` and `register_virtual_peer_via`, one map operation at a
time.  A call first looks for the published address of its owner.  If there is
none, it reserves a free address, and only then tries to publish it.  A call that
loses this race gives its reservation back and uses the address of the winner.

A call can *hold* an address: one that it reserved and did not publish, or one
that it took back and did not free yet.  `Coherent` is the invariant of the
address maps with such holdings.  Every address in `virtual_by_addr` is published
or held, not both, and leads to its owner.  There is one lemma for each operation
that changes the maps, and `register_solo` says that a call that runs alone does
what `QuicPeerSocket.register` does in one step.

The result is about any number of registrations in any order, without releases:
the calls of one owner return one address, and when all calls have returned, the
maps have the published addresses and nothing else (`racing_registrations_agree`).
-/

namespace RustP2p

/-! ## One call -/

/-- Where a registration is. -/
inductive RegPhase where
  /-- Before the lookup of the published address. -/
  | lookup
  /-- In the loops of `allocate_virtual_addr`. -/
  | allocate
  /-- With a reservation, before the entry of the owner. -/
  | reserved (addr : SocketAddr)
  /-- With a reservation to give back, since another address was published. -/
  | lost (addr existing : SocketAddr)
  /-- With the published address, before `ensure_virtual_mapping`. -/
  | ensure (addr : SocketAddr)
  /-- Returned. -/
  | done (addr : SocketAddr)
deriving DecidableEq, Repr

namespace RegPhase

/-- The address that a call has reserved. -/
def held : RegPhase → Option SocketAddr
  | reserved addr => some addr
  | lost addr _ => some addr
  | _ => none

/-- The address that a call has found published, or published itself. -/
def settled : RegPhase → Option SocketAddr
  | lost _ existing => some existing
  | ensure addr => some addr
  | done addr => some addr
  | _ => none

/-- The next map operation of a call.  `candidate` is the address that a turn of
`allocate_virtual_addr` tries. -/
def step (s : QuicPeerSocket) (owner : VirtualPeer) (candidate : SocketAddr) :
    RegPhase → RegPhase × QuicPeerSocket
  | lookup =>
      match s.published owner with
      | some addr => (ensure addr, s)
      | none => (allocate, s)
  | allocate =>
      match s.reserve owner candidate with
      | some (addr, s) => (reserved addr, s)
      | none => (allocate, s)
  | reserved addr =>
      match s.published owner with
      | none => (done addr, s.publish owner addr)
      | some existing => (lost addr existing, s)
  | lost addr existing => (ensure existing, s.releaseReservedVirtualAddr addr owner)
  | ensure addr => (done addr, s.ensureVirtualMapping addr owner)
  | done addr => (done addr, s)

end RegPhase

/-! ## Holdings -/

/-- The address that each call holds, with its owner. -/
abbrev Holdings := Nat → Option (VirtualPeer × SocketAddr)

namespace Holdings

variable {held : Holdings} {i : Nat} {v : VirtualPeer} {a : SocketAddr}

/-- No two calls hold one address. -/
def Distinct (held : Holdings) : Prop :=
  ∀ i j v w a, held i = some (v, a) → held j = some (w, a) → i = j

theorem Distinct.drop (h : held.Distinct) : Distinct (Function.update held i none) := by
  intro j k w x b hj hk
  rw [Function.update_apply] at hj hk
  split at hj
  next => cases hj
  next =>
    split at hk
    next => cases hk
    next => exact h j k w x b hj hk

theorem Distinct.add (h : held.Distinct) (hfresh : ∀ j w, held j ≠ some (w, a)) :
    Distinct (Function.update held i (some (v, a))) := by
  intro j k w x b hj hk
  rw [Function.update_apply] at hj hk
  split at hj
  next hji =>
    cases hj
    split at hk
    next hki => rw [hji, hki]
    next => exact absurd hk (hfresh k x)
  next =>
    split at hk
    next =>
      cases hk
      exact absurd hj (hfresh j w)
    next => exact h j k w x b hj hk

end Holdings

namespace QuicPeerSocket

/-- The address maps, when calls hold addresses. -/
structure Coherent (s : QuicPeerSocket) (held : Holdings) : Prop where
  owned : s.Owned
  mapped : ∀ {i v a}, held i = some (v, a) → s.virtualByAddr.get a = some v
  unpublished : ∀ {i v a}, held i = some (v, a) → ∀ w, s.published w ≠ some a
  distinct : held.Distinct
  accounted : ∀ {v a}, s.virtualByAddr.get a = some v →
    s.published v = some a ∨ ∃ i, held i = some (v, a)

namespace Coherent

variable {s s' : QuicPeerSocket} {held held' : Holdings} {v w : VirtualPeer} {a : SocketAddr}
  {i : Nat}

theorem new {held : Holdings} (h : ∀ i, held i = none) : Coherent .new held where
  owned := owned_new
  mapped hi := by
    rw [h] at hi
    cases hi
  unpublished hi := by
    rw [h] at hi
    cases hi
  distinct i j v w a hi := by
    rw [h] at hi
    cases hi
  accounted hget := by cases hget

/-- Only what is read from the maps matters. -/
theorem congr (h : s.Coherent held) (hget : ∀ b, s'.virtualByAddr.get b = s.virtualByAddr.get b)
    (hpub : ∀ w, s'.published w = s.published w) (hheld : ∀ j, held' j = held j) :
    s'.Coherent held' where
  owned w b hb := by
    rw [hpub] at hb
    rw [hget]
    exact h.owned w b hb
  mapped hj := by
    rw [hheld] at hj
    rw [hget]
    exact h.mapped hj
  unpublished hj w := by
    rw [hheld] at hj
    rw [hpub]
    exact h.unpublished hj w
  distinct j k w x b hj hk := by
    rw [hheld] at hj hk
    exact h.distinct j k w x b hj hk
  accounted hb := by
    rw [hget] at hb
    rw [hpub]
    rcases h.accounted hb with hpub | ⟨j, hj⟩
    · exact .inl hpub
    · exact .inr ⟨j, (hheld j).trans hj⟩

/-- A published address that is mapped again does not change. -/
theorem refresh (h : s.Coherent held) (hpub : s.published v = some a) :
    (s.ensureVirtualMapping a v).Coherent held := by
  refine h.congr ?_ (fun _ => rfl) (fun _ => rfl)
  intro b
  rw [ensureVirtualMapping, DashMap.get_insert]
  split
  next heq => rw [heq, h.owned v a hpub]
  next => rfl

/-- A mapped address is not a free one. -/
theorem ne_of_free {b : SocketAddr} (hfree : s.virtualByAddr.get a = none)
    (hb : s.virtualByAddr.get b = some w) : b ≠ a := by
  intro heq
  rw [heq, hfree] at hb
  cases hb

/-- A call reserves a free address. -/
theorem reserve (h : s.Coherent held) (hi : held i = none)
    (hfree : s.virtualByAddr.get a = none) :
    (s.ensureVirtualMapping a v).Coherent (Function.update held i (some (v, a))) where
  owned := by
    intro w b hb
    have hold := h.owned w b hb
    rw [ensureVirtualMapping, DashMap.get_insert, if_neg (ne_of_free hfree hold)]
    exact hold
  mapped := by
    intro j w b hj
    rw [Function.update_apply] at hj
    rw [ensureVirtualMapping, DashMap.get_insert]
    split at hj
    next =>
      cases hj
      rw [if_pos rfl]
    next =>
      have hold := h.mapped hj
      rw [if_neg (ne_of_free hfree hold)]
      exact hold
  unpublished := by
    intro j w b hj x hx
    rw [Function.update_apply] at hj
    split at hj
    next =>
      cases hj
      exact ne_of_free hfree (h.owned x a hx) rfl
    next => exact h.unpublished hj x hx
  distinct := h.distinct.add fun _ _ hj => ne_of_free hfree (h.mapped hj) rfl
  accounted := by
    intro w b hb
    rw [ensureVirtualMapping, DashMap.get_insert] at hb
    split at hb
    next heq =>
      cases hb
      rw [heq]
      exact .inr ⟨i, Function.update_self ..⟩
    next =>
      rcases h.accounted hb with hpub | ⟨j, hj⟩
      · exact .inl hpub
      · have hji : j ≠ i := by
          intro heq
          rw [heq, hi] at hj
          cases hj
        exact .inr ⟨j, (Function.update_of_ne hji ..).trans hj⟩

/-- A call that holds an address of its own publishes it. -/
theorem publish (h : s.Coherent held) (hi : held i = some (v, a)) (hnone : s.published v = none) :
    (s.publish v a).Coherent (Function.update held i none) where
  owned := by
    intro w b hb
    rw [published_publish] at hb
    rw [virtualByAddr_publish]
    split at hb
    next hw =>
      cases hb
      rw [hw]
      exact h.mapped hi
    next => exact h.owned w b hb
  mapped := by
    intro j w b hj
    rw [Function.update_apply] at hj
    rw [virtualByAddr_publish]
    split at hj
    next => cases hj
    next => exact h.mapped hj
  unpublished := by
    intro j w b hj x hx
    rw [Function.update_apply] at hj
    split at hj
    next => cases hj
    next hji =>
      rw [published_publish] at hx
      split at hx
      next =>
        cases hx
        exact hji (h.distinct _ _ _ _ _ hj hi)
      next => exact h.unpublished hj x hx
  distinct := h.distinct.drop
  accounted := by
    intro w b hb
    rw [virtualByAddr_publish] at hb
    rw [published_publish]
    rcases h.accounted hb with hpub | ⟨j, hj⟩
    · have hne : w ≠ v := by
        intro heq
        rw [heq, hnone] at hpub
        cases hpub
      rw [if_neg hne]
      exact .inl hpub
    · by_cases hji : j = i
      · rw [hji, hi] at hj
        cases hj
        rw [if_pos rfl]
        exact .inl rfl
      · exact .inr ⟨j, (Function.update_of_ne hji ..).trans hj⟩

/-- A call frees the address it holds. -/
theorem free (h : s.Coherent held) (hi : held i = some (v, a)) :
    { s with virtualByAddr := s.virtualByAddr.remove a }.Coherent
      (Function.update held i none) where
  owned := by
    intro w b hb
    have hne : b ≠ a := by
      intro heq
      exact h.unpublished hi w (heq ▸ hb)
    rw [DashMap.get_remove, if_neg hne]
    exact h.owned w b hb
  mapped := by
    intro j w b hj
    rw [Function.update_apply] at hj
    split at hj
    next => cases hj
    next hji =>
      have hne : b ≠ a := by
        intro heq
        exact hji (h.distinct _ _ _ _ _ (heq ▸ hj) hi)
      rw [DashMap.get_remove, if_neg hne]
      exact h.mapped hj
  unpublished := by
    intro j w b hj x hx
    rw [Function.update_apply] at hj
    split at hj
    next => cases hj
    next => exact h.unpublished hj x hx
  distinct := h.distinct.drop
  accounted := by
    intro w b hb
    obtain ⟨hba, hb⟩ := DashMap.get_remove_eq_some.mp hb
    rcases h.accounted hb with hpub | ⟨j, hj⟩
    · exact .inl hpub
    · have hji : j ≠ i := by
        intro heq
        rw [heq, hi] at hj
        cases hj
        exact hba rfl
      exact .inr ⟨j, (Function.update_of_ne hji ..).trans hj⟩

/-- A call takes a published address back. -/
theorem take (h : s.Coherent held) (hi : held i = none) (hpub : s.published v = some a) :
    (s.retract v).Coherent (Function.update held i (some (v, a))) where
  owned := by
    intro w b hb
    rw [published_retract] at hb
    rw [virtualByAddr_retract]
    split at hb
    next => cases hb
    next => exact h.owned w b hb
  mapped := by
    intro j w b hj
    rw [Function.update_apply] at hj
    rw [virtualByAddr_retract]
    split at hj
    next =>
      cases hj
      exact h.owned v a hpub
    next => exact h.mapped hj
  unpublished := by
    intro j w b hj x hx
    rw [Function.update_apply] at hj
    rw [published_retract] at hx
    split at hx
    next => cases hx
    next hxv =>
      split at hj
      next =>
        cases hj
        exact hxv (Option.some.inj ((h.owned x a hx).symm.trans (h.owned v a hpub)))
      next => exact h.unpublished hj x hx
  distinct := h.distinct.add fun _ _ hj => h.unpublished hj v hpub
  accounted := by
    intro w b hb
    rw [virtualByAddr_retract] at hb
    rw [published_retract]
    rcases h.accounted hb with hold | ⟨j, hj⟩
    · by_cases hwv : w = v
      · subst hwv
        rw [hpub] at hold
        cases hold
        exact .inr ⟨i, Function.update_self ..⟩
      · rw [if_neg hwv]
        exact .inl hold
    · have hji : j ≠ i := by
        intro heq
        rw [heq, hi] at hj
        cases hj
      exact .inr ⟨j, (Function.update_of_ne hji ..).trans hj⟩

/-- Nothing changes when a call goes on with what it holds. -/
theorem keep (h : s.Coherent held) {x : Option (VirtualPeer × SocketAddr)} (hi : held i = x) :
    s.Coherent (Function.update held i x) := by
  refine h.congr (fun _ => rfl) (fun _ => rfl) ?_
  intro j
  rw [← hi, Function.update_eq_self]

/-- A registration keeps the maps coherent, if the address that it refreshes is still the
published one. -/
theorem register (h : s.Coherent held) {phase : RegPhase} {candidate : SocketAddr}
    (hi : held i = phase.held.map (v, ·))
    (hensure : ∀ a, phase = .ensure a → s.published v = some a) :
    (phase.step s v candidate).2.Coherent
      (Function.update held i ((phase.step s v candidate).1.held.map (v, ·))) := by
  cases phase with
  | lookup =>
      simp only [RegPhase.step]
      split
      next => exact h.keep hi
      next => exact h.keep hi
  | allocate =>
      simp only [RegPhase.step, QuicPeerSocket.reserve]
      by_cases hfree : s.virtualByAddr.get candidate = none
      · rw [if_pos hfree]
        exact h.reserve hi hfree
      · rw [if_neg hfree]
        exact h.keep hi
  | reserved addr =>
      simp only [RegPhase.step]
      split
      next hnone => exact h.publish hi hnone
      next => exact h.keep hi
  | lost addr existing =>
      simp only [RegPhase.step, releaseReservedVirtualAddr]
      rw [if_pos (h.mapped hi)]
      exact h.free hi
  | ensure addr => exact (h.refresh (hensure addr rfl)).keep hi
  | done addr => exact h.keep hi

end Coherent

/-- A registration does not take a published address away. -/
theorem published_regStep {s : QuicPeerSocket} {v w : VirtualPeer} {a candidate : SocketAddr}
    (phase : RegPhase) (h : s.published w = some a) :
    (phase.step s v candidate).2.published w = some a := by
  cases phase with
  | lookup =>
      simp only [RegPhase.step]
      split
      next => exact h
      next => exact h
  | allocate =>
      simp only [RegPhase.step, reserve]
      split
      next hsome =>
        split at hsome
        next =>
          cases hsome
          exact h
        next => cases hsome
      next => exact h
  | reserved addr =>
      simp only [RegPhase.step]
      split
      next hnone =>
        have hne : w ≠ v := by
          intro heq
          rw [heq, hnone] at h
          cases h
        rw [published_publish, if_neg hne]
        exact h
      next => exact h
  | lost addr existing =>
      simp only [RegPhase.step, releaseReservedVirtualAddr]
      split
      next => exact h
      next => exact h
  | ensure addr => exact h
  | done addr => exact h

/-- What a call has found is published, after each of its operations. -/
theorem settled_regStep {s : QuicPeerSocket} {v : VirtualPeer} {candidate : SocketAddr}
    {phase : RegPhase} (h : ∀ a, phase.settled = some a → s.published v = some a) :
    ∀ a, (phase.step s v candidate).1.settled = some a →
      (phase.step s v candidate).2.published v = some a := by
  intro a ha
  cases phase with
  | lookup =>
      simp only [RegPhase.step] at ha ⊢
      split at ha
      next hpub =>
        cases ha
        exact hpub
      next => cases ha
  | allocate =>
      simp only [RegPhase.step] at ha
      split at ha
      next => cases ha
      next => cases ha
  | reserved addr =>
      simp only [RegPhase.step] at ha ⊢
      split at ha
      next hnone =>
        cases ha
        rw [published_publish, if_pos rfl]
      next hsome =>
        cases ha
        exact hsome
  | lost addr existing => exact published_regStep (.lost addr existing) (h a ha)
  | ensure addr => exact h a ha
  | done addr => exact h a ha

end QuicPeerSocket

/-! ## Any number of calls -/

/-- A call of `register_virtual_peer` (no key) or `register_virtual_peer_via`. -/
structure RegCall where
  owner : VirtualPeer
  phase : RegPhase
deriving DecidableEq, Repr

/-- The adapter and the registrations that were started. -/
structure Registrations where
  socket : QuicPeerSocket
  calls : DashMap Nat RegCall

/-- What can happen next. -/
inductive RegEvent where
  /-- A registration is called. -/
  | call (id : Nat) (owner : VirtualPeer)
  /-- A registration makes its next map operation. -/
  | advance (id : Nat) (candidate : SocketAddr)
deriving DecidableEq, Repr

namespace Registrations

/-- No calls yet. -/
def new : Registrations := ⟨.new, ∅⟩

/-- The state after an event, if the event can happen. -/
def step (r : Registrations) : RegEvent → Option Registrations
  | .call id owner =>
      match r.calls.get id with
      | none => some { r with calls := r.calls.insert id ⟨owner, .lookup⟩ }
      | some _ => none
  | .advance id candidate =>
      match r.calls.get id with
      | none => none
      | some call =>
          let next := call.phase.step r.socket call.owner candidate
          some ⟨next.2, r.calls.insert id ⟨call.owner, next.1⟩⟩

/-- The addresses that the calls hold. -/
def held (r : Registrations) : Holdings := fun i =>
  (r.calls.get i).bind fun call => call.phase.held.map (call.owner, ·)

/-- The maps are coherent, and what a call has found is published. -/
structure Invariant (r : Registrations) : Prop where
  coherent : r.socket.Coherent r.held
  settled : ∀ i call a, r.calls.get i = some call → call.phase.settled = some a →
    r.socket.published call.owner = some a

variable {r r' : Registrations} {e : RegEvent}

theorem invariant_new : new.Invariant where
  coherent := .new fun _ => rfl
  settled i call a hi := by cases hi

/-- What the calls hold when one of them is at another place. -/
theorem held_insert (r : Registrations) (socket : QuicPeerSocket) (id : Nat) (call : RegCall)
    (j : Nat) : held ⟨socket, r.calls.insert id call⟩ j =
      Function.update r.held id (call.phase.held.map (call.owner, ·)) j := by
  simp only [held, DashMap.get_insert, Function.update_apply]
  split <;> rfl

theorem invariant_step (h : step r e = some r') (hr : r.Invariant) : r'.Invariant := by
  cases e with
  | call id owner =>
      simp only [step] at h
      split at h
      next hnone =>
        cases h
        have hid : r.held id = none := by simp only [held, hnone, Option.bind_none]
        refine ⟨?_, ?_⟩
        · exact (hr.coherent.keep hid).congr (fun _ => rfl) (fun _ => rfl)
            (held_insert r r.socket id ⟨owner, .lookup⟩)
        · intro i call a hi ha
          rw [DashMap.get_insert] at hi
          split at hi
          next =>
            cases hi
            cases ha
          next => exact hr.settled i call a hi ha
      next => cases h
  | advance id candidate =>
      simp only [step] at h
      split at h
      next => cases h
      next call hcall =>
        cases h
        have hid : r.held id = call.phase.held.map (call.owner, ·) := by
          simp only [held, hcall, Option.bind_some]
        have hensure : ∀ a, call.phase = .ensure a → r.socket.published call.owner = some a := by
          intro a ha
          exact hr.settled id call a hcall (by rw [ha]; rfl)
        refine ⟨?_, ?_⟩
        · exact (hr.coherent.register hid hensure).congr (fun _ => rfl) (fun _ => rfl)
            (held_insert r _ id _)
        · intro i call' a hi ha
          rw [DashMap.get_insert] at hi
          split at hi
          next =>
            cases hi
            exact QuicPeerSocket.settled_regStep
              (fun a ha => hr.settled id call a hcall ha) a ha
          next =>
            exact QuicPeerSocket.published_regStep call.phase (hr.settled i call' a hi ha)

theorem invariant_run {es : List RegEvent} (hrun : Transition.run step new es = some r) :
    r.Invariant :=
  Transition.run_invariant (fun _ _ _ => invariant_step) hrun invariant_new

/-- All calls have returned. -/
def AllDone (r : Registrations) : Prop :=
  ∀ i call, r.calls.get i = some call → ∃ a, call.phase = .done a

/-- In any order of the map operations of any number of registrations, the calls of one
owner return one address.  When all have returned, the addresses of `virtual_by_addr` are
the published ones, each leads to the owner it was published for, no two owners share one,
and they are what the calls returned. -/
theorem racing_registrations_agree {es : List RegEvent} {r : Registrations}
    (hrun : Transition.run step new es = some r) :
    (∀ i j call call' a b, r.calls.get i = some call → r.calls.get j = some call' →
      call.owner = call'.owner → call.phase = .done a → call'.phase = .done b → a = b) ∧
    (r.AllDone →
      (∀ v a, r.socket.virtualByAddr.get a = some v ↔ r.socket.published v = some a) ∧
      (∀ v w a, r.socket.published v = some a → r.socket.published w = some a → v = w) ∧
      ∀ i call a, r.calls.get i = some call → call.phase = .done a →
        r.socket.published call.owner = some a) := by
  have hr := invariant_run hrun
  have hdone : ∀ i call a, r.calls.get i = some call → call.phase = .done a →
      r.socket.published call.owner = some a := by
    intro i call a hi ha
    exact hr.settled i call a hi (by rw [ha]; rfl)
  refine ⟨?_, ?_⟩
  · intro i j call call' a b hi hj howner ha hb
    have hpub := hdone i call a hi ha
    rw [howner, hdone j call' b hj hb] at hpub
    exact (Option.some.inj hpub).symm
  · intro hall
    refine ⟨?_, ?_, hdone⟩
    · intro v a
      refine ⟨?_, hr.coherent.owned v a⟩
      intro hget
      rcases hr.coherent.accounted hget with hpub | ⟨i, hi⟩
      · exact hpub
      · -- a call that has returned holds nothing
        simp only [held, Option.bind_eq_some_iff] at hi
        obtain ⟨call, hcall, hheld⟩ := hi
        obtain ⟨b, hb⟩ := hall i call hcall
        rw [hb] at hheld
        cases hheld
    · intro v w a hv hw
      exact Option.some.inj ((hr.coherent.owned v a hv).symm.trans (hr.coherent.owned w a hw))

/-- Two calls for `b`, of which the second publishes its address first, and one for a
route to `b`. -/
def racingRun : List RegEvent :=
  let b : VirtualPeer := ⟨⟨"b"⟩, none⟩
  let via : VirtualPeer := ⟨⟨"b"⟩, some QuicEndpoint.viaKey⟩
  [.call 0 b, .call 1 b, .advance 0 (syntheticAddr 0 1024), .advance 1 (syntheticAddr 0 1024),
    .advance 0 (syntheticAddr 0 1024), .advance 1 (syntheticAddr 0 1024),
    .advance 1 (syntheticAddr 1 1024), .call 2 via, .advance 2 (syntheticAddr 1 1024),
    .advance 2 (syntheticAddr 2 1024), .advance 1 (syntheticAddr 1 1024),
    .advance 0 (syntheticAddr 0 1024), .advance 0 (syntheticAddr 0 1024),
    .advance 0 (syntheticAddr 0 1024), .advance 2 (syntheticAddr 2 1024)]

theorem racing_registrations_agree_three :
    ∃ r, Transition.run step new racingRun = some r ∧ r.AllDone ∧
      ∀ v a, r.socket.virtualByAddr.get a = some v ↔ r.socket.published v = some a := by
  obtain ⟨r, hr, hpairs⟩ :
      ∃ r, Transition.run step new racingRun = some r ∧
        ∀ p ∈ r.calls.pairs, p.2.phase = .done (syntheticAddr 1 1024) ∨
          p.2.phase = .done (syntheticAddr 2 1024) := by
    decide +kernel
  have hall : r.AllDone := by
    intro i call hi
    rcases hpairs (i, call) (DashMap.mem_pairs.mpr hi) with h | h
    · exact ⟨_, h⟩
    · exact ⟨_, h⟩
  exact ⟨r, hr, hall, ((racing_registrations_agree hr).2 hall).1⟩

/-- A call that runs alone does what the registration does in one step. -/
theorem register_solo {s s' : QuicPeerSocket} {draws : Draws} {v : VirtualPeer} {a : SocketAddr}
    {calls : DashMap Nat RegCall} {id : Nat} (hid : calls.get id = none)
    (h : s.register draws v = some (a, s')) :
    ∃ es, Transition.run step ⟨s, calls⟩ es = some ⟨s', calls.insert id ⟨v, .done a⟩⟩ := by
  have hcall : step ⟨s, calls⟩ (.call id v) = some ⟨s, calls.insert id ⟨v, .lookup⟩⟩ := by
    simp only [step, hid]
  have hadvance : ∀ t phase, step ⟨t, calls.insert id ⟨v, phase⟩⟩ (.advance id a) =
      some ⟨(phase.step t v a).2, calls.insert id ⟨v, (phase.step t v a).1⟩⟩ := by
    intro t phase
    simp only [step, DashMap.get_insert_self]
    simp only [DashMap.insert, AList.insert_insert]
  rcases QuicPeerSocket.register_eq h with ⟨hpub, rfl⟩ | ⟨hnone, hfree, rfl⟩
  · refine ⟨[.call id v, .advance id a, .advance id a], ?_⟩
    have hlookup : RegPhase.lookup.step s v a = (.ensure a, s) := by
      simp only [RegPhase.step, hpub]
    simp only [Transition.run_cons, Transition.run_nil, hcall, Option.bind_some, hadvance, hlookup]
    rfl
  · refine ⟨[.call id v, .advance id a, .advance id a, .advance id a], ?_⟩
    have hlookup : RegPhase.lookup.step s v a = (.allocate, s) := by
      simp only [RegPhase.step, hnone]
    have hreserve : RegPhase.allocate.step s v a = (.reserved a, s.ensureVirtualMapping a v) := by
      simp only [RegPhase.step, QuicPeerSocket.reserve, hfree, if_true]
    have hpublish : (RegPhase.reserved a).step (s.ensureVirtualMapping a v) v a =
        (.done a, (s.ensureVirtualMapping a v).publish v a) := by
      simp only [RegPhase.step, QuicPeerSocket.published_ensureVirtualMapping, hnone]
    simp only [Transition.run_cons, Transition.run_nil, hcall, Option.bind_some, hadvance, hlookup,
      hreserve, hpublish]

end Registrations

end RustP2p
