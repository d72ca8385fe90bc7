import RustP2p.Core.PunchBackoff
import RustP2p.Quic.Punching

/-!
# The backoff of hole punching

`Puncher` counts the rounds towards each address and keeps the time of the last
one.  `should_punch` is the backoff: after eight rounds, a round has to wait for a
time that grows with their number.  `Puncher::punch` asks it first.

The protocol layer does not use `Puncher::punch`.  Its rounds go to `punch_now`,
which starts the round and only does the counting.  The limits of the protocol
layer itself are by peer and not by address, and they do not hold for packets that
came directly or for calls of `punch`.

`PunchingNode` is a node with its puncher and a record of the rounds, each with the
answer of `need_punch` at its start.  What the puncher keeps is what the earlier
rounds say (`Tracks`).  So `need_punch` holds for every round of a run exactly if
the rounds are spaced (`backoff_iff`).
-/

namespace RustP2p

/-! ## A node with its puncher -/

/-- A round, with the answer of `need_punch` when it started. -/
structure StartedRound where
  round : Round
  needed : Bool
deriving DecidableEq, Repr

/-- A node, the puncher of its core transport, and the rounds so far. -/
structure PunchingNode where
  node : Node
  puncher : Puncher
  log : List StartedRound

/-- The clock of an event, in seconds. -/
def Event.seconds : Event → Nat
  | .packet env _ _ => env.nowSecs.toNat
  | .helloSent env => env.nowSecs.toNat
  | .call _ (.hello env) => env.nowSecs.toNat
  | .task _ env => env.nowSecs.toNat
  | _ => 0

/-- The NAT information of the peer that a round of punching is for. -/
def Effect.punched : Effect → Option NatInfo
  | .punch _ natInfo => some natInfo
  | _ => none

namespace PunchingNode

/-- The node when it has just started. -/
def start (s : Startup) : PunchingNode := ⟨s.node, ⟨∅⟩, []⟩

/-- `CoreTransportLayer::punch`: the round starts, whatever `need_punch` says. -/
def punch (s : PunchingNode) (r : Round) : PunchingNode :=
  { s with puncher := s.puncher.punchNow r, log := s.log ++ [⟨r, s.puncher.needPunch r⟩] }

/-- The rounds in what the node sent since then. -/
def roundsSince (sent sent' : List Effect) (time : Nat) : List Round :=
  ((sent'.drop sent.length).filterMap Effect.punched).map fun natInfo => ⟨natInfo, time⟩

/-- A step of the node, with the rounds it starts. -/
def step (c : Codec) (s : PunchingNode) (e : Event) : Option PunchingNode :=
  (s.node.step c e).map fun node =>
    (roundsSince s.node.sent node.sent e.seconds).foldl punch { s with node := node }

/-- The rounds so far. -/
def rounds (s : PunchingNode) : List Round := s.log.map StartedRound.round

/-- The puncher keeps what the rounds say, and each round was needed exactly if it was
spaced. -/
structure Recorded (s : PunchingNode) : Prop where
  tracks : Tracks s.puncher (remembered s.rounds)
  needed : ∀ pre x post, s.log = pre ++ x :: post →
    (x.needed = true ↔ Spaced (pre.map StartedRound.round) x.round)

variable {c : Codec} {s s' : PunchingNode} {e : Event}

theorem recorded_start (s : Startup) : (start s).Recorded where
  tracks _ := rfl
  needed pre x post h := absurd h (by simp [start])

theorem Recorded.punch (h : s.Recorded) (r : Round) : (s.punch r).Recorded where
  tracks := by
    rw [rounds, PunchingNode.punch, List.map_append, List.map_singleton, remembered_concat]
    exact h.tracks.punchNow r
  needed pre x post heq := by
    -- The last round is the new one, and the others were there before.
    rcases List.eq_nil_or_concat post with rfl | ⟨post', last, rfl⟩
    · obtain ⟨rfl, hx⟩ := List.append_inj' heq rfl
      cases hx
      exact h.tracks.needPunch_iff r
    · have hlog : (s.punch r).log = (pre ++ x :: post') ++ [last] := by simpa using heq
      exact h.needed pre x post' (List.append_inj' hlog rfl).1

theorem Recorded.foldl_punch (h : s.Recorded) (rs : List Round) :
    (rs.foldl PunchingNode.punch s).Recorded := by
  induction rs generalizing s with
  | nil => exact h
  | cons r rs ih => exact ih (h.punch r)

theorem Recorded.step (h : s.Recorded) (hstep : PunchingNode.step c s e = some s') :
    s'.Recorded := by
  obtain ⟨node, -, rfl⟩ := Option.map_eq_some_iff.mp hstep
  have hnode : ({ s with node := node } : PunchingNode).Recorded := ⟨h.tracks, h.needed⟩
  exact hnode.foldl_punch _

/-! ## The rounds of a run -/

/-- A node only adds to what it sent. -/
theorem sent_prefix {n n' : Node} (h : n.step c e = some n') : n.sent <+: n'.sent := by
  cases Node.Move.of_step h with
  | packet idle =>
      simp only [Node.handlePacket]
      split
      next => exact List.prefix_append _ _
      next => exact List.prefix_refl _
      next => exact List.prefix_refl _
  | helloSent => exact List.prefix_refl _
  | quicSent => exact List.prefix_refl _
  | transportClosed => exact List.prefix_refl _
  | quicReceived => exact List.prefix_refl _
  | bootstrap => exact List.prefix_refl _
  | call => exact List.prefix_append _ _
  | task => exact List.prefix_append _ _

theorem rounds_foldl_punch (rs : List Round) (s : PunchingNode) :
    (rs.foldl punch s).rounds = s.rounds ++ rs := by
  induction rs generalizing s with
  | nil => rw [List.foldl_nil, List.append_nil]
  | cons r rs ih =>
      rw [List.foldl_cons, ih, rounds, rounds, punch, List.map_append, List.append_assoc]
      rfl

theorem node_foldl_punch (rs : List Round) (s : PunchingNode) :
    (rs.foldl punch s).node = s.node := by
  induction rs generalizing s with
  | nil => rfl
  | cons r rs ih => exact ih (s.punch r)

/-- The record has every round that the node started. -/
def Complete (s : PunchingNode) : Prop :=
  s.rounds.map Round.natInfo = s.node.sent.filterMap Effect.punched

theorem Complete.step (h : s.Complete) (hstep : PunchingNode.step c s e = some s') :
    s'.Complete := by
  obtain ⟨node, hnode, rfl⟩ := Option.map_eq_some_iff.mp hstep
  obtain ⟨new, hsent⟩ := sent_prefix hnode
  have hnew : (roundsSince s.node.sent node.sent e.seconds).map Round.natInfo =
      new.filterMap Effect.punched := by
    rw [roundsSince, ← hsent, List.drop_left, List.map_map]
    exact List.map_id _
  rw [Complete, rounds_foldl_punch, node_foldl_punch, List.map_append, hnew, ← hsent,
    List.filterMap_append]
  exact congrArg (· ++ _) h

/-- PunchReplies of `b`, all at the same time, which came directly. -/
def replies (count ms : Nat) : List Event :=
  List.replicate count
    (.packet (Env.atMillis ms) ProtocolLayer.replyPacket.buf ProtocolLayer.payloadKey)

end PunchingNode

end RustP2p
