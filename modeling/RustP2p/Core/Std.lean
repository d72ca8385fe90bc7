import Mathlib.Data.List.AList

/-!
# The standard library parts the model rests on

Errors, byte arithmetic, the errors of UTF-8 text and the maps of the source,
under the source's words.

A `DashMap` is the list of its entries, one per key, in iteration order
(Mathlib's `AList`).  Nothing may depend on that order: a step of the node
model (`Task.rehash`) replaces the maps the code iterates over by any
permutation of themselves.
-/

namespace RustP2p

/-! ## Errors -/

/-- The kinds of `std::io::ErrorKind` the sources use. -/
inductive ErrorKind where
  | notFound
  | permissionDenied
  | invalidInput
  | invalidData
  | timedOut
  | unexpectedEof
  | wouldBlock
  | brokenPipe
  | addrInUse
  | interrupted
  | writeZero
  | unsupported
  | other
deriving DecidableEq, Repr

/-- `std::io::Error`, its kind and its text. -/
structure IoError where
  kind : ErrorKind
  message : String
deriving DecidableEq, Repr

/-- `std::io::Result`. -/
abbrev IoResult (α : Type) := Except IoError α

/-- A computation succeeds when its first step and then its rest do. -/
theorem bind_eq_ok {α β : Type} {x : IoResult α} {f : α → IoResult β} {b : β} :
    (x >>= f) = .ok b ↔ ∃ a, x = .ok a ∧ f a = .ok b := by
  constructor
  · intro h
    cases x with
    | error e => cases h
    | ok a => exact ⟨a, rfl, h⟩
  · intro h
    obtain ⟨a, rfl, h⟩ := h
    exact h

/-- It fails when its first step or its rest does. -/
theorem bind_eq_error {α β : Type} {x : IoResult α} {f : α → IoResult β} {e : IoError} :
    (x >>= f) = .error e ↔ x = .error e ∨ ∃ a, x = .ok a ∧ f a = .error e := by
  constructor
  · intro h
    cases x with
    | error e' =>
        cases h
        exact .inl rfl
    | ok a => exact .inr ⟨a, rfl, h⟩
  · rintro (rfl | ⟨a, rfl, h⟩)
    · rfl
    · exact h

/-- A loop that may fail keeps what each of its turns keeps, `I` being told what is done. -/
theorem foldlM_keeps {α β : Type} {f : β → α → IoResult β} (I : List α → β → Prop)
    (hturn : ∀ done a b b', I done b → f b a = .ok b' → I (done ++ [a]) b') :
    ∀ (done xs : List α) (b b' : β), I done b → xs.foldlM f b = .ok b' → I (done ++ xs) b' := by
  intro done xs
  induction xs generalizing done with
  | nil =>
      intro b b' hI hrun
      rw [List.foldlM_nil] at hrun
      cases hrun
      simpa using hI
  | cons a xs ih =>
      intro b b' hI hrun
      rw [List.foldlM_cons] at hrun
      obtain ⟨b₁, hone, hrest⟩ := bind_eq_ok.mp hrun
      simpa using ih (done ++ [a]) b₁ b' (hturn done a b b₁ hI hone) hrest

/-- A loop fails at one of its turns. -/
theorem foldlM_eq_error {α β : Type} {f : β → α → IoResult β} {xs : List α} {b : β} {e : IoError}
    (h : xs.foldlM f b = .error e) :
    ∃ done a rest b', xs = done ++ a :: rest ∧ done.foldlM f b = .ok b' ∧ f b' a = .error e := by
  induction xs generalizing b with
  | nil => cases h
  | cons a xs ih =>
      rw [List.foldlM_cons] at h
      rcases bind_eq_error.mp h with hone | ⟨b₁, hone, hrest⟩
      · exact ⟨[], a, xs, b, rfl, rfl, hone⟩
      · obtain ⟨done, a', rest, b', rfl, hdone, hturn⟩ := ih hrest
        refine ⟨a :: done, a', rest, b', rfl, ?_, hturn⟩
        rw [List.foldlM_cons]
        exact bind_eq_ok.mpr ⟨b₁, hone, hdone⟩

/-- `P` holds of the result, if there is one. -/
def OnOk {α : Type} (r : IoResult α) (P : α → Prop) : Prop := ∀ a, r = .ok a → P a

instance {α : Type} (r : IoResult α) (P : α → Prop) [DecidablePred P] : Decidable (OnOk r P) :=
  match r with
  | .ok a => decidable_of_iff (P a) ⟨fun h _ heq => Except.ok.inj heq ▸ h, fun h => h a rfl⟩
  | .error _ => isTrue nofun

/-! ## Bytes -/

/-- `u8::saturating_sub`. -/
def saturatingSub (a b : UInt8) : UInt8 := if a ≤ b then 0 else a - b

/-- `u8::saturating_add`. -/
def saturatingAdd (a b : UInt8) : UInt8 := if a.toNat + b.toNat ≤ 255 then a + b else 255

@[simp] theorem saturatingSub_toNat (a b : UInt8) :
    (saturatingSub a b).toNat = a.toNat - b.toNat := by
  simp only [saturatingSub]
  split
  next h =>
    rw [UInt8.le_iff_toNat_le] at h
    simp only [UInt8.toNat_zero]
    omega
  next h =>
    rw [UInt8.le_iff_toNat_le] at h
    rw [UInt8.toNat_sub_of_le]
    exact UInt8.le_iff_toNat_le.mpr (by omega)

@[simp] theorem saturatingAdd_toNat (a b : UInt8) :
    (saturatingAdd a b).toNat = min 255 (a.toNat + b.toNat) := by
  simp only [saturatingAdd]
  split
  next h =>
    rw [UInt8.toNat_add]
    omega
  next h =>
    simp only [UInt8.reduceToNat]
    omega

/-- Adding one hop never gives a direct metric. -/
theorem saturatingAdd_one_ne_zero (a : UInt8) : saturatingAdd a 1 ≠ 0 := by
  rw [Ne, ← UInt8.toNat_inj, saturatingAdd_toNat, UInt8.toNat_zero, UInt8.toNat_one]
  omega

/-! ## Text -/

/-- `std::str::Utf8Error`. -/
structure Utf8Error where
  validUpTo : Nat
  /-- `none` when the input ends inside a character. -/
  errorLen : Option Nat
deriving DecidableEq, Repr

namespace Utf8Error

/-- `Display`. -/
def display (e : Utf8Error) : String :=
  match e.errorLen with
  | some n => "invalid utf-8 sequence of " ++ toString n ++ " bytes from index " ++
      toString e.validUpTo
  | none => "incomplete utf-8 byte sequence from index " ++ toString e.validUpTo

/-- `10xxxxxx`. -/
def isContinuation (byte : UInt8) : Bool := byte &&& 0xc0 = 0x80

/-- The second bytes of a character of three bytes, without overlong forms and
surrogates. -/
def isSecondOfThree (first second : UInt8) : Bool :=
  isContinuation second ∧ (first = 0xe0 → 0xa0 ≤ second) ∧ (first = 0xed → second ≤ 0x9f)

/-- The second bytes of a character of four bytes, without overlong forms and
what is beyond `U+10FFFF`. -/
def isSecondOfFour (first second : UInt8) : Bool :=
  isContinuation second ∧ (first = 0xf0 → 0x90 ≤ second) ∧ (first = 0xf4 → second ≤ 0x8f)

/-- The error of `run_utf8_validation` for bytes that are not UTF-8: where the first
bad character starts, and how many bytes of it there are. -/
def first (index : Nat) : List UInt8 → Utf8Error
  | [] => ⟨index, none⟩
  | a :: as =>
      if a < 0x80 then first (index + 1) as
      else if 0xc2 ≤ a ∧ a ≤ 0xdf then
        match as with
        | [] => ⟨index, none⟩
        | b :: bs => if isContinuation b then first (index + 2) bs else ⟨index, some 1⟩
      else if 0xe0 ≤ a ∧ a ≤ 0xef then
        match as with
        | [] => ⟨index, none⟩
        | b :: bs =>
            if isSecondOfThree a b then
              match bs with
              | [] => ⟨index, none⟩
              | c :: cs => if isContinuation c then first (index + 3) cs else ⟨index, some 2⟩
            else ⟨index, some 1⟩
      else if 0xf0 ≤ a ∧ a ≤ 0xf4 then
        match as with
        | [] => ⟨index, none⟩
        | b :: bs =>
            if isSecondOfFour a b then
              match bs with
              | [] => ⟨index, none⟩
              | c :: cs =>
                  if isContinuation c then
                    match cs with
                    | [] => ⟨index, none⟩
                    | d :: ds =>
                        if isContinuation d then first (index + 4) ds else ⟨index, some 3⟩
                  else ⟨index, some 2⟩
            else ⟨index, some 1⟩
      else ⟨index, some 1⟩

end Utf8Error

/-! ## Maps -/

/-- `dashmap::DashMap`, its entries in iteration order. -/
abbrev DashMap (κ ν : Type) := AList fun _ : κ => ν

/-- `dashmap::DashSet`. -/
abbrev DashSet (κ : Type) := DashMap κ Unit

namespace DashMap

/-- There is one key for each entry. -/
theorem length_keys {κ ν : Type} (m : DashMap κ ν) : m.keys.length = m.entries.length := by
  simp only [AList.keys, List.keys, List.length_map]

variable {κ ν : Type} [DecidableEq κ]

/-- `DashMap::get`. -/
def get (m : DashMap κ ν) (k : κ) : Option ν := m.lookup k

/-- `DashMap::insert`. -/
def insert (m : DashMap κ ν) (k : κ) (v : ν) : DashMap κ ν := AList.insert k v m

/-- `DashMap::remove`, without the removed value. -/
def remove (m : DashMap κ ν) (k : κ) : DashMap κ ν := AList.erase k m

/-- `DashMap::remove_if`, without the removed entry. -/
def removeIf (m : DashMap κ ν) (k : κ) (f : ν → Bool) : DashMap κ ν :=
  if (m.get k).any f then m.remove k else m

/-- `DashMap::retain`. -/
def retain (m : DashMap κ ν) (f : κ → ν → Bool) : DashMap κ ν :=
  ⟨m.entries.filter fun e => f e.1 e.2, m.nodupKeys.sublist List.filter_sublist⟩

/-- The values in iteration order. -/
def values (m : DashMap κ ν) : List ν := m.entries.map fun e => e.2

/-- The entries in iteration order. -/
def pairs (m : DashMap κ ν) : List (κ × ν) := m.entries.map fun e => (e.1, e.2)

@[simp] theorem get_empty (k : κ) : (∅ : DashMap κ ν).get k = none := rfl

theorem get_insert (m : DashMap κ ν) (a b : κ) (v : ν) :
    (m.insert b v).get a = if a = b then some v else m.get a := by
  simp only [get, insert]
  split
  next h => subst h; exact AList.lookup_insert m
  next h => exact AList.lookup_insert_ne h

@[simp] theorem get_insert_self (m : DashMap κ ν) (a : κ) (v : ν) :
    (m.insert a v).get a = some v := by
  rw [get_insert, if_pos rfl]

theorem get_remove (m : DashMap κ ν) (a b : κ) :
    (m.remove b).get a = if a = b then none else m.get a := by
  simp only [get, remove]
  split
  next h => subst h; exact AList.lookup_erase a m
  next h => exact AList.lookup_erase_ne h

theorem get_remove_eq_some {m : DashMap κ ν} {a b : κ} {v : ν} :
    (m.remove b).get a = some v ↔ a ≠ b ∧ m.get a = some v := by
  rw [get_remove]
  split
  next h => simp [h]
  next h => simp [h]

theorem get_removeIf (m : DashMap κ ν) (a b : κ) (f : ν → Bool) :
    (m.removeIf b f).get a = if a = b ∧ (m.get b).any f then none else m.get a := by
  simp only [removeIf]
  split
  next h => simp only [get_remove, h, and_true]
  next h => simp only [h, Bool.false_eq_true, and_false, if_false]

theorem get_retain_eq_some {m : DashMap κ ν} {f : κ → ν → Bool} {k : κ} {v : ν} :
    (m.retain f).get k = some v ↔ m.get k = some v ∧ f k v = true := by
  simp only [get, ← Option.mem_def, AList.mem_lookup_iff, retain, List.mem_filter]

/-- An entry is read back by its key. -/
theorem mem_pairs {m : DashMap κ ν} {k : κ} {v : ν} : (k, v) ∈ m.pairs ↔ m.get k = some v := by
  rw [get, ← Option.mem_def, AList.mem_lookup_iff]
  simp only [pairs, List.mem_map, Prod.mk.injEq]
  constructor
  · intro h
    obtain ⟨⟨a, b⟩, he, rfl, rfl⟩ := h
    exact he
  · intro h
    exact ⟨⟨k, v⟩, h, rfl, rfl⟩

theorem get_perm {m m' : DashMap κ ν} (h : m.entries.Perm m'.entries) (k : κ) :
    m.get k = m'.get k := AList.perm_lookup h

end DashMap

end RustP2p
