import Mathlib.Data.Int.CardIntervalMod

/-!
# Taking turns

A counter that goes up by one with every call is read modulo the length of a
list.  `turns` are the elements whose turn it is at consecutive values of the
counter, from any value on.

`count_turns` counts how often an element has its turn.  All elements have their
turn equally often up to one (`count_turns_or`), and in one round exactly once
(`count_turns_round`).
-/

namespace Rotation

variable {α : Type} {l : List α} {a : α}

/-- The elements whose turn it is at `m` values of the counter, from `c` on. -/
def turns (l : List α) (c m : Nat) : List (Option α) :=
  (List.range m).map fun i => l[(c + i) % l.length]?

theorem turns_succ (l : List α) (c m : Nat) :
    turns l c (m + 1) = l[c % l.length]? :: turns l (c + 1) m := by
  simp only [turns, List.range_succ_eq_map, List.map_cons, List.map_map, Nat.add_zero]
  congr 1
  refine List.map_congr_left ?_
  intro i _
  simp only [Function.comp_apply, Nat.succ_eq_add_one, Nat.add_comm i 1, Nat.add_assoc]

/-- Where there is an element, somebody's turn it is. -/
theorem mem_of_turns (hl : l ≠ []) {c m : Nat} {x : Option α} (h : x ∈ turns l c m) :
    ∃ a ∈ l, x = some a := by
  obtain ⟨i, -, rfl⟩ := List.mem_map.mp h
  have hlt : (c + i) % l.length < l.length := Nat.mod_lt _ (List.length_pos_of_ne_nil hl)
  exact ⟨_, List.getElem_mem hlt, List.getElem?_eq_getElem hlt⟩

/-- It is the turn of one element at the counter values of one residue. -/
theorem turn_iff (hl : l.Nodup) {j : Nat} (hj : j < l.length) (c i : Nat) :
    l[(c + i) % l.length]? = some l[j] ↔ i ≡ j + (l.length - c % l.length) [MOD l.length] := by
  have hpos : 0 < l.length := Nat.zero_lt_of_lt hj
  have hc : c % l.length < l.length := Nat.mod_lt c hpos
  have hdiv := Nat.div_add_mod c l.length
  -- Both sides say that `c + i` and `j` are the same modulo the length.
  have hshift : c + (j + (l.length - c % l.length)) ≡ j [MOD l.length] := by
    have hsum : c + (j + (l.length - c % l.length)) = j + l.length * (c / l.length + 1) := by
      rw [Nat.mul_add, Nat.mul_one]
      omega
    rw [hsum, Nat.ModEq, Nat.add_mul_mod_self_left]
  rw [← List.getElem?_eq_getElem hj, List.getElem?_inj (Nat.mod_lt _ hpos) hl]
  constructor
  · intro h
    refine Nat.ModEq.add_left_cancel' c ?_
    exact Nat.ModEq.trans (by rw [Nat.ModEq, h, Nat.mod_eq_of_lt hj]) hshift.symm
  · intro h
    have hmod : c + i ≡ j [MOD l.length] := (h.add_left c).trans hshift
    rwa [Nat.ModEq, Nat.mod_eq_of_lt hj] at hmod

/-- How often an element has its turn. -/
theorem count_turns [DecidableEq α] (hl : l.Nodup) (ha : a ∈ l) (c m : Nat) :
    ∃ v, (turns l c m).count (some a) =
      m / l.length + if v % l.length < m % l.length then 1 else 0 := by
  obtain ⟨j, hj, rfl⟩ := List.getElem_of_mem ha
  refine ⟨j + (l.length - c % l.length), ?_⟩
  rw [← Nat.count_modEq_card m (Nat.zero_lt_of_lt hj), turns, List.count, List.countP_map,
    Nat.count]
  refine List.countP_congr ?_
  intro i _
  simp only [Function.comp_apply, beq_iff_eq, decide_eq_true_eq]
  exact turn_iff hl hj c i

/-- All elements have their turn equally often, up to one. -/
theorem count_turns_or [DecidableEq α] (hl : l.Nodup) (ha : a ∈ l) (c m : Nat) :
    (turns l c m).count (some a) = m / l.length ∨
      (turns l c m).count (some a) = (m + l.length - 1) / l.length := by
  obtain ⟨v, hv⟩ := count_turns hl ha c m
  have hpos : 0 < l.length := List.length_pos_of_mem ha
  rw [hv]
  split
  next hlt =>
    right
    -- There is a rest, so rounding up adds one.
    have hrest : m + l.length - 1 = m % l.length - 1 + l.length * (m / l.length + 1) := by
      have hdiv := Nat.div_add_mod m l.length
      rw [Nat.mul_add, Nat.mul_one]
      omega
    have hmod : m % l.length - 1 < l.length := by
      have := Nat.mod_lt m hpos
      omega
    rw [hrest, Nat.add_mul_div_left _ _ hpos, Nat.div_eq_of_lt hmod, Nat.zero_add]
  next => exact Or.inl (Nat.add_zero _)

/-- In one round every element has its turn once. -/
theorem count_turns_round [DecidableEq α] (hl : l.Nodup) (ha : a ∈ l) (c : Nat) :
    (turns l c l.length).count (some a) = 1 := by
  obtain ⟨v, hv⟩ := count_turns hl ha c l.length
  rw [hv, Nat.mod_self, if_neg (Nat.not_lt_zero _), Nat.div_self (List.length_pos_of_mem ha)]

end Rotation
