import Mathlib.Data.List.Dedup
import RustP2p.Core.NatInfo
import RustP2p.Lib.Transition

/-!
# The backoff of the puncher

`Puncher` counts the rounds towards each address and keeps the time of the last
one.  `should_punch` is the backoff: after eight rounds, a round has to wait for a
time that grows with their number.  The entries are bounded: when there are too
many, a new address makes the puncher forget all the others.

What the puncher keeps is what the earlier rounds say (`Tracks`), so the answer of
`need_punch` can be read off them (`Tracks.needPunch_iff`).  `PunchHistory` is a
puncher whose rounds all come from `Puncher::punch`, with the rounds so far and the
clock.  `backoff_spacing` is about all its runs.
-/

namespace RustP2p

/-! ## The puncher -/

/-- `PunchStats`. -/
structure PunchStats where
  batchCount : Nat
  lastTime : Nat
deriving DecidableEq, Repr

/-- `PunchStats::default`. -/
def PunchStats.default : PunchStats := ⟨0, 0⟩

/-- `should_punch`. -/
def shouldPunch (stats : PunchStats) (currentTime : Nat) : Bool :=
  stats.batchCount ≤ 8 ∨ min (stats.batchCount / 8) 360 ≤ currentTime - stats.lastTime

/-- The bound for the number of entries of `punch_stats`. -/
def MAX_PUNCH_ENTRIES : Nat := 4096

/-- One round of `punch_now`: whom it is for, and the time of its start in seconds. -/
structure Round where
  natInfo : NatInfo
  time : Nat
deriving DecidableEq, Repr

/-- The address under which `punch_now` counts the round. -/
def Round.peer (r : Round) : SocketAddr := r.natInfo.flag.getD (.v4 .unspecified 0)

/-- `Puncher`, as far as the backoff goes. -/
structure Puncher where
  punchStats : DashMap SocketAddr PunchStats

namespace Puncher

/-- `need_punch`. -/
def needPunch (p : Puncher) (r : Round) : Bool :=
  match r.natInfo.flag with
  | none => false
  | some id => shouldPunch ((p.punchStats.get id).getD .default) r.time

/-- `punch_now`, up to the probes. -/
def punchNow (p : Puncher) (r : Round) : Puncher :=
  let stats :=
    if p.punchStats.get r.peer = none ∧ MAX_PUNCH_ENTRIES ≤ p.punchStats.entries.length then ∅
    else p.punchStats
  let entry := (stats.get r.peer).getD .default
  ⟨stats.insert r.peer ⟨entry.batchCount + 1, r.time⟩⟩

end Puncher

/-! ## What the puncher keeps -/

/-- The rounds towards the address. -/
def roundsTo (peer : SocketAddr) (rounds : List Round) : List Round :=
  rounds.filter fun r => r.peer = peer

/-- The rounds that still count after one more.  When there are too many addresses, a new
one makes the puncher forget all the others. -/
def remember (rounds : List Round) (r : Round) : List Round :=
  if r.peer ∉ rounds.map Round.peer ∧ MAX_PUNCH_ENTRIES ≤ (rounds.map Round.peer).dedup.length
  then [r]
  else rounds ++ [r]

/-- The rounds of a history that still count. -/
def remembered (rounds : List Round) : List Round := rounds.foldl remember []

/-- The round has an address, and after more than eight rounds that count towards it the last
of them is `n / 8` seconds ago, or six minutes. -/
def Spaced (rounds : List Round) (r : Round) : Prop :=
  r.natInfo.flag ≠ none ∧
    let earlier := roundsTo r.peer (remembered rounds)
    earlier.length ≤ 8 ∨
      ∀ last ∈ earlier.getLast?, min (earlier.length / 8) 360 ≤ r.time - last.time

/-- The number of the rounds, and the time of the last one. -/
def statsOf (rounds : List Round) : Option PunchStats :=
  rounds.getLast?.map fun last => ⟨rounds.length, last.time⟩

/-- The puncher keeps the numbers and times of these rounds. -/
def Tracks (p : Puncher) (rounds : List Round) : Prop :=
  ∀ peer, p.punchStats.get peer = statsOf (roundsTo peer rounds)

theorem roundsTo_concat (peer : SocketAddr) (rounds : List Round) (r : Round) :
    roundsTo peer (rounds ++ [r]) =
      if r.peer = peer then roundsTo peer rounds ++ [r] else roundsTo peer rounds := by
  simp only [roundsTo, List.filter_append]
  split
  next h => rw [List.filter_cons_of_pos (by simpa using h), List.filter_nil]
  next h => rw [List.filter_cons_of_neg (by simpa using h), List.filter_nil, List.append_nil]

theorem statsOf_concat (rounds : List Round) (r : Round) :
    statsOf (rounds ++ [r]) = some ⟨((statsOf rounds).getD .default).batchCount + 1, r.time⟩ := by
  cases rounds using List.reverseRecOn with
  | nil => rfl
  | append_singleton rounds last => simp [statsOf]

theorem roundsTo_eq_nil_iff {peer : SocketAddr} {rounds : List Round} :
    roundsTo peer rounds = [] ↔ peer ∉ rounds.map Round.peer := by
  simp [roundsTo, List.filter_eq_nil_iff]

theorem statsOf_eq_none_iff {rounds : List Round} : statsOf rounds = none ↔ rounds = [] := by
  simp [statsOf]

namespace Tracks

variable {p : Puncher} {rounds : List Round}

theorem get_eq_none_iff (h : Tracks p rounds) {peer : SocketAddr} :
    p.punchStats.get peer = none ↔ peer ∉ rounds.map Round.peer := by
  rw [h peer, statsOf_eq_none_iff, roundsTo_eq_nil_iff]

/-- There is one entry for each address. -/
theorem length_entries (h : Tracks p rounds) :
    p.punchStats.entries.length = (rounds.map Round.peer).dedup.length := by
  rw [← DashMap.length_keys]
  refine List.Perm.length_eq ((List.perm_ext_iff_of_nodup p.punchStats.keys_nodup
    (List.nodup_dedup _)).mpr ?_)
  intro peer
  rw [List.mem_dedup, ← not_iff_not, ← h.get_eq_none_iff]
  exact (not_congr AList.lookup_isSome.symm).trans Option.not_isSome_iff_eq_none

/-- A round adds itself to what is kept. -/
theorem punchNow (h : Tracks p rounds) (r : Round) :
    Tracks (p.punchNow r) (remember rounds r) := by
  intro peer
  simp only [Puncher.punchNow, remember, h.get_eq_none_iff, h.length_entries]
  split
  next =>
    rw [DashMap.get_insert, DashMap.get_empty]
    split
    next heq => simp [roundsTo, statsOf, heq, PunchStats.default]
    next hne => simp [roundsTo, statsOf, Ne.symm hne]
  next =>
    rw [DashMap.get_insert, roundsTo_concat]
    split
    next heq => rw [if_pos heq.symm, heq, statsOf_concat, h r.peer]
    next hne => rw [if_neg (Ne.symm hne), h peer]

/-- `need_punch` holds for a round that is spaced, and for no other. -/
theorem needPunch_iff {history : List Round} (h : Tracks p (remembered history)) (r : Round) :
    p.needPunch r = true ↔ Spaced history r := by
  simp only [Puncher.needPunch, Spaced]
  cases hflag : r.natInfo.flag with
  | none => simp
  | some id =>
      have hpeer : r.peer = id := by simp [Round.peer, hflag]
      rw [hpeer]
      simp only [ne_eq, reduceCtorEq, not_false_eq_true, true_and, h id, shouldPunch,
        decide_eq_true_eq]
      cases roundsTo id (remembered history) using List.reverseRecOn with
      | nil => simp [statsOf, PunchStats.default]
      | append_singleton earlier last => simp [statsOf]

end Tracks

theorem remembered_concat (history : List Round) (r : Round) :
    remembered (history ++ [r]) = remember (remembered history) r := by
  simp only [remembered, List.foldl_append, List.foldl_cons, List.foldl_nil]

/-- The rounds that still count are the latest ones. -/
theorem remembered_suffix (history : List Round) : remembered history <:+ history := by
  induction history using List.reverseRecOn with
  | nil => exact List.suffix_refl _
  | append_singleton history r ih =>
      rw [remembered_concat, remember]
      split
      next => exact List.suffix_append _ _
      next =>
        obtain ⟨forgotten, heq⟩ := ih
        exact ⟨forgotten, by rw [← List.append_assoc, heq]⟩

/-- The last round towards an address that counts is the last one there was. -/
theorem getLast?_roundsTo_remembered {peer : SocketAddr} {history : List Round}
    (h : roundsTo peer (remembered history) ≠ []) :
    (roundsTo peer (remembered history)).getLast? = (roundsTo peer history).getLast? := by
  obtain ⟨forgotten, heq⟩ := (remembered_suffix history).filter fun r => r.peer = peer
  change forgotten ++ roundsTo peer (remembered history) = roundsTo peer history at heq
  rw [← heq, List.getLast?_append_of_ne_nil _ h]

/-! ## The number of entries -/

/-- A round keeps the bound on the entries. -/
theorem length_punchNow {p : Puncher} (h : p.punchStats.entries.length ≤ MAX_PUNCH_ENTRIES)
    (r : Round) : (p.punchNow r).punchStats.entries.length ≤ MAX_PUNCH_ENTRIES := by
  simp only [Puncher.punchNow, DashMap.insert]
  split
  next =>
    -- The map was cleared, and the new entry is the only one.
    rw [← DashMap.length_keys, AList.keys_insert]
    simp [MAX_PUNCH_ENTRIES]
  next hroom =>
    rw [← DashMap.length_keys, AList.keys_insert, List.length_cons]
    rw [← DashMap.length_keys] at h
    by_cases hmem : r.peer ∈ p.punchStats.keys
    · rw [List.length_erase_of_mem hmem]
      have hpos := List.length_pos_of_mem hmem
      omega
    · have hnone : p.punchStats.get r.peer = none := AList.lookup_eq_none.mpr hmem
      rw [List.erase_of_not_mem hmem]
      have hlt : p.punchStats.entries.length < MAX_PUNCH_ENTRIES :=
        Nat.lt_of_not_le fun hle => hroom ⟨hnone, hle⟩
      rw [← DashMap.length_keys] at hlt
      exact hlt

/-! ## Runs of `punch` -/

/-- A puncher, its rounds so far, and the clock in seconds. -/
structure PunchHistory where
  puncher : Puncher
  rounds : List Round
  clock : Nat

/-- A call on the puncher.  `punch` reads the clock in `need_punch`, and again when it starts the
round. -/
inductive PunchCall where
  | needPunch (natInfo : NatInfo) (time : Nat)
  | punch (natInfo : NatInfo) (asked started : Nat)

namespace PunchHistory

/-- `Puncher::new`. -/
def start : PunchHistory := ⟨⟨∅⟩, [], 0⟩

/-- One call after the other, with a clock that does not go back. -/
def step (s : PunchHistory) : PunchCall → Option PunchHistory
  | .needPunch _ time => if s.clock ≤ time then some { s with clock := time } else none
  | .punch natInfo asked started =>
      if s.clock ≤ asked ∧ asked ≤ started then
        if s.puncher.needPunch ⟨natInfo, asked⟩ then
          some ⟨s.puncher.punchNow ⟨natInfo, started⟩, s.rounds ++ [⟨natInfo, started⟩], started⟩
        else some { s with clock := asked }
      else none

variable {s s' : PunchHistory} {call : PunchCall}

/-- What a call does. -/
inductive Move (s : PunchHistory) : PunchCall → PunchHistory → Prop where
  | asked {natInfo : NatInfo} {time : Nat} (later : s.clock ≤ time) :
      Move s (.needPunch natInfo time) { s with clock := time }
  | declined {natInfo : NatInfo} {asked started : Nat} (later : s.clock ≤ asked)
      (early : s.puncher.needPunch ⟨natInfo, asked⟩ = false) :
      Move s (.punch natInfo asked started) { s with clock := asked }
  | round {natInfo : NatInfo} {asked started : Nat} (later : s.clock ≤ asked)
      (starts : asked ≤ started) (needed : s.puncher.needPunch ⟨natInfo, asked⟩ = true) :
      Move s (.punch natInfo asked started)
        ⟨s.puncher.punchNow ⟨natInfo, started⟩, s.rounds ++ [⟨natInfo, started⟩], started⟩

theorem Move.of_step (h : s.step call = some s') : Move s call s' := by
  cases call with
  | needPunch natInfo time =>
      simp only [step] at h
      split at h
      next hlater => cases h; exact .asked hlater
      next => cases h
  | punch natInfo asked started =>
      simp only [step] at h
      split at h
      next hclock =>
        split at h
        next hneeded => cases h; exact .round hclock.1 hclock.2 hneeded
        next hearly => cases h; exact .declined hclock.1 (by simpa using hearly)
      next => cases h

/-- The puncher keeps what the rounds say, and no more than its bound. -/
structure Recorded (s : PunchHistory) : Prop where
  tracks : Tracks s.puncher (remembered s.rounds)
  bounded : s.puncher.punchStats.entries.length ≤ MAX_PUNCH_ENTRIES

theorem recorded_start : start.Recorded where
  tracks _ := rfl
  bounded := by decide

theorem Move.recorded (h : Move s call s') (hs : s.Recorded) : s'.Recorded := by
  cases h with
  | asked => exact ⟨hs.tracks, hs.bounded⟩
  | declined => exact ⟨hs.tracks, hs.bounded⟩
  | round later starts needed =>
      refine ⟨?_, length_punchNow hs.bounded _⟩
      rw [remembered_concat]
      exact hs.tracks.punchNow _

theorem recorded_run {calls : List PunchCall} (h : Transition.run step start calls = some s) :
    s.Recorded :=
  Transition.run_invariant (I := Recorded) (fun _ _ _ hstep => (Move.of_step hstep).recorded) h
    recorded_start

/-- A round whose time has come is needed. -/
theorem Recorded.needPunch_of_waited (hs : s.Recorded) {natInfo : NatInfo} {id : SocketAddr}
    (hflag : natInfo.flag = some id) {asked : Nat}
    (hwaited : ∀ last ∈ (roundsTo id s.rounds).getLast?, last.time + 360 ≤ asked) :
    s.puncher.needPunch ⟨natInfo, asked⟩ = true := by
  have hpeer : Round.peer ⟨natInfo, asked⟩ = id := by simp [Round.peer, hflag]
  rw [hs.tracks.needPunch_iff, Spaced, hpeer]
  refine ⟨by simp [hflag], ?_⟩
  by_cases hnil : roundsTo id (remembered s.rounds) = []
  · left
    simp [hnil]
  · right
    intro last hlast
    rw [getLast?_roundsTo_remembered hnil] at hlast
    have htime := hwaited last hlast
    show min _ 360 ≤ asked - last.time
    omega

/-- A round that was needed comes late enough. -/
theorem Recorded.waited_of_needPunch (hs : s.Recorded) {natInfo : NatInfo} {id : SocketAddr}
    (hflag : natInfo.flag = some id) {asked : Nat}
    (hneeded : s.puncher.needPunch ⟨natInfo, asked⟩ = true)
    (hmany : 9 ≤ (roundsTo id (remembered s.rounds)).length) :
    ∀ last ∈ (roundsTo id s.rounds).getLast?,
      last.time + min ((roundsTo id (remembered s.rounds)).length / 8) 360 ≤ asked := by
  have hpeer : Round.peer ⟨natInfo, asked⟩ = id := by simp [Round.peer, hflag]
  rw [hs.tracks.needPunch_iff, Spaced, hpeer] at hneeded
  have hne : roundsTo id (remembered s.rounds) ≠ [] := by
    intro hnil
    simp [hnil] at hmany
  intro last hlast
  rw [← getLast?_roundsTo_remembered hne] at hlast
  rcases hneeded.2 with hfew | hspaced
  · omega
  · have hwait : min ((roundsTo id (remembered s.rounds)).length / 8) 360 ≤ asked - last.time :=
      hspaced last hlast
    omega

/-- After every sequence of calls there are at most 4096 entries, and `need_punch` leaves them.
The entry of an address counts the rounds since it was made.  From the ninth of them on, the
next round for the address starts `n / 8` seconds after the previous one, or six minutes after
it, and a call that comes six minutes after the previous round always starts one. -/
theorem backoff_spacing {calls : List PunchCall}
    (hrun : Transition.run step start calls = some s) :
    s.puncher.punchStats.entries.length ≤ MAX_PUNCH_ENTRIES ∧
    (∀ natInfo time s', s.step (.needPunch natInfo time) = some s' → s'.puncher = s.puncher) ∧
    ∀ natInfo id asked started s', natInfo.flag = some id →
      s.step (.punch natInfo asked started) = some s' →
        let recorded := roundsTo id (remembered s.rounds)
        s.puncher.punchStats.get id = statsOf recorded ∧
        (s'.rounds = s.rounds ++ [⟨natInfo, started⟩] → 9 ≤ recorded.length →
          ∀ last ∈ (roundsTo id s.rounds).getLast?,
            last.time + min (recorded.length / 8) 360 ≤ started) ∧
        ((∀ last ∈ (roundsTo id s.rounds).getLast?, last.time + 360 ≤ asked) →
          s'.rounds = s.rounds ++ [⟨natInfo, started⟩]) := by
  have hrecorded := recorded_run hrun
  refine ⟨hrecorded.bounded, ?_, ?_⟩
  · intro natInfo time s' hstep
    cases Move.of_step hstep with
    | asked => rfl
  · intro natInfo id asked started s' hflag hstep
    refine ⟨hrecorded.tracks id, ?_, ?_⟩
    · intro hround hmany last hlast
      cases Move.of_step hstep with
      | declined => simp at hround
      | round later starts needed =>
          exact Nat.le_trans (hrecorded.waited_of_needPunch hflag needed hmany last hlast) starts
    · intro hwaited
      cases Move.of_step hstep with
      | declined later early =>
          rw [hrecorded.needPunch_of_waited hflag hwaited] at early
          cases early
      | round => rfl

/-- A peer with one public address. -/
def coneNat : NatInfo :=
  { NatInfo.default with publicIps := [⟨10, 0, 0, 1⟩], publicUdpPorts := [4000] }

/-- Nine rounds at once, and one more six minutes later. -/
theorem backoff_spacing_nine :
    ∃ s s', Transition.run step start (List.replicate 9 (.punch coneNat 1000 1000)) = some s ∧
      s.step (.punch coneNat 1360 1360) = some s' ∧
      s'.rounds = s.rounds ++ [⟨coneNat, 1360⟩] := by
  obtain ⟨s, hs, hlast, s', hs', -⟩ :
      ∃ s, Transition.run step start (List.replicate 9 (.punch coneNat 1000 1000)) = some s ∧
        (∀ last ∈ (roundsTo (.v4 ⟨10, 0, 0, 1⟩ 4000) s.rounds).getLast?, last.time + 360 ≤ 1360) ∧
        ∃ s' ∈ s.step (.punch coneNat 1360 1360), s'.clock = 1360 := by
    decide +kernel
  exact ⟨s, s', hs, hs', ((backoff_spacing hs).2.2 coneNat (.v4 ⟨10, 0, 0, 1⟩ 4000) 1360 1360 s'
    (by decide) hs').2.2 hlast⟩

end PunchHistory

end RustP2p
