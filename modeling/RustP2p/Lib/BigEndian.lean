import Mathlib.Algebra.Group.Nat.Defs

/-!
# Big-endian numbers in byte strings

`u16::to_be_bytes` and its relatives, for every width, and slices of byte
strings.  Reading back what was written gives the number modulo the width
(`fromBeBytes_toBeBytes`), and writing what was read gives the bytes
(`toBeBytes_fromBeBytes`).

A slice outside the bytes is cut short here.  `slice?` is the indexing that
panics instead.
-/

namespace BigEndian

/-- `to_be_bytes`: the low `width` bytes of a number, most significant first. -/
def toBeBytes : Nat → Nat → List UInt8
  | 0, _ => []
  | width + 1, n => UInt8.ofNat (n / 256 ^ width) :: toBeBytes width n

/-- `from_be_bytes`: the number that big-endian bytes spell. -/
def fromBeBytes : List UInt8 → Nat
  | [] => 0
  | byte :: bytes => byte.toNat * 256 ^ bytes.length + fromBeBytes bytes

@[simp] theorem length_toBeBytes (width n : Nat) : (toBeBytes width n).length = width := by
  induction width with
  | zero => rfl
  | succ width ih => rw [toBeBytes, List.length_cons, ih]

theorem fromBeBytes_toBeBytes (width n : Nat) :
    fromBeBytes (toBeBytes width n) = n % 256 ^ width := by
  induction width with
  | zero => exact (Nat.mod_one n).symm
  | succ width ih =>
      calc fromBeBytes (toBeBytes (width + 1) n)
          = n / 256 ^ width % 256 * 256 ^ width + n % 256 ^ width := by
            simp only [toBeBytes, fromBeBytes, length_toBeBytes, ih, UInt8.toNat_ofNat']
        _ = n % 256 ^ (width + 1) := by
            rw [Nat.pow_succ, Nat.mod_mul, Nat.mul_comm, Nat.add_comm]

theorem fromBeBytes_lt (bytes : List UInt8) : fromBeBytes bytes < 256 ^ bytes.length := by
  induction bytes with
  | nil => exact Nat.one_pos
  | cons byte bytes ih =>
      have hbyte : byte.toNat + 1 ≤ 256 := byte.toNat_lt
      have hmul := Nat.mul_le_mul_right (256 ^ bytes.length) hbyte
      rw [fromBeBytes, List.length_cons, Nat.pow_succ]
      rw [Nat.add_mul, Nat.one_mul] at hmul
      omega

/-- The low bytes of a number do not see a multiple of their width. -/
theorem toBeBytes_add (width n m : Nat) :
    toBeBytes width (m * 256 ^ width + n) = toBeBytes width n := by
  induction width generalizing m with
  | zero => rfl
  | succ width ih =>
      have hpow : m * 256 ^ (width + 1) = m * 256 * 256 ^ width := by
        rw [Nat.pow_succ, Nat.mul_comm (256 ^ width), Nat.mul_assoc]
      have hdiv : (m * 256 * 256 ^ width + n) / 256 ^ width = m * 256 + n / 256 ^ width := by
        rw [Nat.add_comm, Nat.add_mul_div_right _ _ (Nat.pow_pos (by decide)), Nat.add_comm]
      have hbyte : UInt8.ofNat (m * 256 + n / 256 ^ width) = UInt8.ofNat (n / 256 ^ width) := by
        apply UInt8.toNat_inj.mp
        simp only [UInt8.toNat_ofNat']
        omega
      rw [toBeBytes, toBeBytes, hpow, ih, hdiv, hbyte]

theorem toBeBytes_fromBeBytes (bytes : List UInt8) :
    toBeBytes bytes.length (fromBeBytes bytes) = bytes := by
  induction bytes with
  | nil => rfl
  | cons byte bytes ih =>
      have hdiv : (byte.toNat * 256 ^ bytes.length + fromBeBytes bytes) / 256 ^ bytes.length =
          byte.toNat := by
        rw [Nat.add_comm, Nat.add_mul_div_right _ _ (Nat.pow_pos (by decide)),
          Nat.div_eq_of_lt (fromBeBytes_lt bytes), Nat.zero_add]
      rw [fromBeBytes, List.length_cons, toBeBytes, toBeBytes_add, ih, hdiv, UInt8.ofNat_toNat]

/-- The bytes `bytes[start..stop]`. -/
def slice (bytes : List UInt8) (start stop : Nat) : List UInt8 :=
  (bytes.drop start).take (stop - start)

/-- A slice that starts after index `i` does not see a change at `i`. -/
theorem slice_set {bytes : List UInt8} {i start stop : Nat} {byte : UInt8} (h : i < start) :
    slice (bytes.set i byte) start stop = slice bytes start stop := by
  rw [slice, slice, List.drop_set_of_lt h]

theorem slice_append {front middle back : List UInt8} {start stop : Nat}
    (hfront : front.length = start) (hmiddle : middle.length = stop - start) :
    slice (front ++ (middle ++ back)) start stop = middle := by
  rw [slice, ← hfront, List.drop_left, hfront, ← hmiddle, List.take_left]

/-- A slice inside the bytes has its length. -/
theorem length_slice {bytes : List UInt8} {start stop : Nat} (h : stop ≤ bytes.length) :
    (slice bytes start stop).length = stop - start := by
  rw [slice, List.length_take, List.length_drop]
  omega

/-- What follows an offset is a slice and what follows the slice. -/
theorem slice_append_drop {bytes : List UInt8} {start stop : Nat} (h : start ≤ stop) :
    slice bytes start stop ++ bytes.drop stop = bytes.drop start := by
  have hdrop : bytes.drop stop = (bytes.drop start).drop (stop - start) := by
    rw [List.drop_drop, Nat.add_sub_cancel' h]
  rw [slice, hdrop, List.take_append_drop]

/-- A slice inside the bytes does not see what follows them. -/
theorem slice_append_right {bytes more : List UInt8} {start stop : Nat} (hstart : start ≤ stop)
    (hstop : stop ≤ bytes.length) : slice (bytes ++ more) start stop = slice bytes start stop := by
  have htake : stop - start ≤ (bytes.drop start).length := by
    rw [List.length_drop]
    omega
  rw [slice, slice, List.drop_append_of_le_length (by omega), List.take_append_of_le_length htake]

/-- The items that each have `width` bytes lie behind each other. -/
theorem slice_flatMap {α : Type} {f : α → List UInt8} {width : Nat}
    (hf : ∀ a, (f a).length = width) {items : List α} {i : Nat} (h : i < items.length) :
    slice (items.flatMap f) (width * i) (width * i + width) = f items[i] := by
  induction items generalizing i with
  | nil => cases h
  | cons a items ih =>
      rw [List.flatMap_cons]
      cases i with
      | zero =>
          have hlength : (f a).length = width * 0 + width - width * 0 := by
            rw [hf a, Nat.add_sub_cancel_left]
          exact slice_append List.length_nil hlength
      | succ i =>
          have hdrop : (f a ++ items.flatMap f).drop (width * (i + 1)) =
              (items.flatMap f).drop (width * i) := by
            have hlength : (f a).length + width * i = width * (i + 1) := by
              rw [hf a, Nat.mul_succ, Nat.add_comm]
            rw [← hlength, ← List.drop_drop, List.drop_left]
          have hrest := ih (Nat.lt_of_succ_lt_succ h)
          rw [slice, Nat.add_sub_cancel_left] at hrest
          rw [slice, hdrop, Nat.add_sub_cancel_left, hrest]
          rfl

/-- `bytes[start..stop]` as an index expression, `none` for a panic. -/
def slice? (bytes : List UInt8) (start stop : Nat) : Option (List UInt8) :=
  if start ≤ stop ∧ stop ≤ bytes.length then some (slice bytes start stop) else none

theorem slice?_eq_some {bytes : List UInt8} {start stop : Nat} (hstart : start ≤ stop)
    (hstop : stop ≤ bytes.length) : slice? bytes start stop = some (slice bytes start stop) :=
  if_pos ⟨hstart, hstop⟩

end BigEndian
