import RustP2p.Quic.Node

/-!
# Changing the punch whitelist

The whitelist is `None`, which allows every peer, or a set.  `allow_punch` and
`deny_punch` speak of one peer, and so they should change what the whitelist says of
this peer alone.

`deny_punch` does not when the whitelist is `None`: it makes it the empty set, which
denies every peer, and not the set of all other peers that the interface documents.
`point_update_iff` says that this is the only way to lose a peer.
-/

namespace RustP2p

/-! ## One call -/

namespace ProtocolLayer

variable (l : ProtocolLayer) (p q : PeerId)

theorem punchAllowed_allowPunch :
    (l.allowPunch p).punchAllowed q = (l.punchAllowed q || decide (q = p)) := by
  cases hlist : l.punchWhitelist with
  | none => simp [allowPunch, punchAllowed, hlist]
  | some set => simp [allowPunch, punchAllowed, hlist, mem_pushNew]

theorem punchAllowed_denyPunch :
    (l.denyPunch p).punchAllowed q =
      (l.punchWhitelist.isSome && l.punchAllowed q && decide (q ≠ p)) := by
  cases hlist : l.punchWhitelist with
  | none => simp [denyPunch, punchAllowed, hlist]
  | some set => simp [denyPunch, punchAllowed, hlist]

/-- The peer has an entry in the transport's table. -/
def Knows : Prop := (l.transport.peers.get p).isSome = true

variable (known : ProtocolLayer → PeerId → Prop) (l' : ProtocolLayer)

/-- From `l` to `l'` the whitelist changes at the peer `p` alone, as far as the peers are
known that `l` knows. -/
structure PointUpdate (allowed : Bool) : Prop where
  self : l'.punchAllowed p = allowed
  others : ∀ q, q ≠ p → known l p → known l q → l'.punchAllowed q = l.punchAllowed q

theorem pointUpdate_allowPunch : PointUpdate l p known (l.allowPunch p) true where
  self := by
    rw [punchAllowed_allowPunch]
    simp
  others q hne _ _ := by
    rw [punchAllowed_allowPunch]
    simp [hne]

/-- Without a set, denying one peer denies all. -/
theorem pointUpdate_denyPunch_iff :
    PointUpdate l p known (l.denyPunch p) false ↔
      (l.punchWhitelist = none → known l p → ∀ q, known l q → q = p) := by
  constructor
  · intro h hnone hp q hq
    by_contra hne
    have hsame := h.others q hne hp hq
    rw [punchAllowed_denyPunch, hnone] at hsame
    simp [punchAllowed, hnone] at hsame
  · intro h
    refine ⟨?_, ?_⟩
    · rw [punchAllowed_denyPunch]
      simp
    · intro q hne hp hq
      rw [punchAllowed_denyPunch]
      cases hlist : l.punchWhitelist with
      | none => exact absurd (h hlist hp q hq) hne
      | some set => simp [hne]

end ProtocolLayer

/-! ## A run of the node -/

namespace Node

open Transition ProtocolLayer

/-- If the event is a call of `allow_punch` or `deny_punch`, it updates the whitelist at the
peer of the call. -/
def UpdatesPoint (c : Codec) (known : ProtocolLayer → PeerId → Prop) (n : Node) (e : Event) :
    Prop :=
  ∀ p env n', step c n e = some n' →
    (e = .task (.allowPunch p) env → PointUpdate n.layer p known n'.layer true) ∧
    (e = .task (.denyPunch p) env → PointUpdate n.layer p known n'.layer false)

/-- If the event is a call of `deny_punch` for a known peer, there is a set to take the peer
from, or no other peer is known. -/
def DeniesFromSet (known : ProtocolLayer → PeerId → Prop) (n : Node) (e : Event) : Prop :=
  ∀ p env, e = .task (.denyPunch p) env →
    n.layer.punchWhitelist = none → known n.layer p → ∀ q, known n.layer q → q = p

theorem updatesPoint_iff (c : Codec) (known : ProtocolLayer → PeerId → Prop) (n : Node)
    (e : Event) : UpdatesPoint c known n e ↔ DeniesFromSet known n e := by
  constructor
  · rintro h p env rfl
    exact (pointUpdate_denyPunch_iff n.layer p known).mp ((h p env _ rfl).2 rfl)
  · intro h p env n' hstep
    constructor
    · rintro rfl
      cases hstep
      exact pointUpdate_allowPunch n.layer p known
    · rintro rfl
      cases hstep
      exact (pointUpdate_denyPunch_iff n.layer p known).mpr (h p env rfl)

/-- Whatever it is to be known, and whatever else happens at the node: every `allow_punch`
and `deny_punch` of a run changes the whitelist at its peer alone, exactly if no `deny_punch`
for a known peer finds the whitelist `None` while another peer is known. -/
theorem point_update_iff (c : Codec) (s : Startup) (known : ProtocolLayer → PeerId → Prop)
    (es : List Event) :
    Along (step c) (UpdatesPoint c known) s.node es ↔
      Along (step c) (DeniesFromSet known) s.node es := by
  constructor
  · intro h
    exact h.mono fun n e => (updatesPoint_iff c known n e).mp
  · intro h
    exact h.mono fun n e => (updatesPoint_iff c known n e).mpr

/-- A HelloRequest of `b` to `a`. -/
def helloOfB : Event :=
  .packet (Env.atMillis 1) [141, 3, 0, 3, 3, 0, 0, 0, 15, 0, 1, 0, 1, 98, 97]
    ⟨.udp, .v4 ⟨0, 0, 0, 0⟩ 5000, .v4 ⟨10, 0, 0, 2⟩ 5000⟩

/-- A HelloRequest of `c` to `a`. -/
def helloOfC : Event :=
  .packet (Env.atMillis 1) [141, 3, 0, 3, 3, 0, 0, 0, 15, 0, 1, 0, 1, 99, 97]
    ⟨.udp, .v4 ⟨0, 0, 0, 0⟩ 5000, .v4 ⟨10, 0, 0, 3⟩ 5000⟩

/-- The node `a` knows `b` and `c` and allows everybody.  Denying `b` denies `c` as well. -/
theorem deny_punch_denies_all :
    ¬ ∀ (c : Codec) (s : Startup) (es : List Event),
      Along (step c) (UpdatesPoint c Knows) s.node es := by
  intro h
  have hall := h .empty .nodeA [helloOfB, helloOfC, .task (.denyPunch ⟨"b"⟩) (Env.atMillis 2)]
  obtain ⟨n, hn, hnone, hb, hc⟩ :
      ∃ n, run (step .empty) Startup.nodeA.node [helloOfB, helloOfC] = some n ∧
        n.layer.punchWhitelist = none ∧ (n.layer.transport.peers.get ⟨"b"⟩).isSome = true ∧
        (n.layer.transport.peers.get ⟨"c"⟩).isSome = true := by
    decide +kernel
  have hlast := (along_iff (C := UpdatesPoint .empty Knows) (run_snoc hn rfl)).mp hall
    [helloOfB, helloOfC] _ [] n rfl hn
  have hdeny := (updatesPoint_iff .empty Knows n _).mp hlast
  exact absurd (hdeny ⟨"b"⟩ _ rfl hnone hb ⟨"c"⟩ hc) (by decide)

end Node

end RustP2p
