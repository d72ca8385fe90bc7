import RustP2p.Lib.BigEndian

/-!
# Memory

A memory of a fixed size is a byte string of that length.  A read after a write sees
what was written at the same place (`read_write`) and, at any other, what was there
before (`read_write_of_disjoint`).

A machine stores its own numbers in the byte order of `Endian`.  `toBe` turns a number
into the one that is stored with its bytes in network order (`toNeBytes_toBe`), and
back (`toBe_fromNeBytes`).
-/

namespace BigEndian

/-- A memory of `size` bytes. -/
structure Memory (size : Nat) where
  bytes : List UInt8
  length_bytes : bytes.length = size
deriving DecidableEq, Repr

namespace Memory

variable {size : Nat}

/-- A memory of zeros. -/
def zeroed (size : Nat) : Memory size := ⟨List.replicate size 0, List.length_replicate⟩

/-- The bytes from `start` to before `stop`. -/
def read (memory : Memory size) (start stop : Nat) : List UInt8 := slice memory.bytes start stop

/-- The memory with `value` at an offset. -/
def write (memory : Memory size) (offset : Nat) (value : List UInt8)
    (h : offset + value.length ≤ size) : Memory size where
  bytes := memory.bytes.take offset ++ (value ++ memory.bytes.drop (offset + value.length))
  length_bytes := by
    have hlength := memory.length_bytes
    simp only [List.length_append, List.length_take, List.length_drop]
    omega

section Write

variable {memory : Memory size} {value : List UInt8} {offset start stop : Nat}
  (h : offset + value.length ≤ size)

theorem bytes_write : (memory.write offset value h).bytes =
    memory.bytes.take offset ++ (value ++ memory.bytes.drop (offset + value.length)) := rfl

/-- The bytes before a write are `offset` many. -/
theorem length_before (h : offset + value.length ≤ size) :
    (memory.bytes.take offset).length = offset := by
  rw [List.length_take, memory.length_bytes]
  omega

/-- What was written is read back. -/
theorem read_write (hstop : stop = offset + value.length) :
    (memory.write offset value h).read offset stop = value := by
  have hlength : value.length = stop - offset := by omega
  exact slice_append (length_before h) hlength

/-- A write is not seen elsewhere. -/
theorem read_write_of_disjoint (hstart : start ≤ stop)
    (hdisjoint : stop ≤ offset ∨ offset + value.length ≤ start) :
    (memory.write offset value h).read start stop = memory.read start stop := by
  have hbefore := memory.length_before h
  rcases hdisjoint with hstop | hafter
  · have hstop : stop ≤ (memory.bytes.take offset).length := hbefore.symm ▸ hstop
    calc (memory.write offset value h).read start stop
        = slice (memory.bytes.take offset) start stop := slice_append_right hstart hstop
      _ = slice (memory.bytes.take offset ++ memory.bytes.drop offset) start stop :=
          (slice_append_right hstart hstop).symm
      _ = memory.read start stop := by rw [List.take_append_drop, read]
  · obtain ⟨gap, rfl⟩ := Nat.exists_eq_add_of_le hafter
    have hdrop : (memory.write offset value h).bytes.drop (offset + value.length + gap) =
        memory.bytes.drop (offset + value.length + gap) := by
      have hfront : (memory.bytes.take offset ++ value).length = offset + value.length := by
        rw [List.length_append, hbefore]
      rw [bytes_write, ← List.append_assoc, ← List.drop_drop, ← hfront, List.drop_left, hfront,
        List.drop_drop]
    rw [read, read, slice, slice, hdrop]

end Write

end Memory

/-! ## Byte order -/

/-- The byte order of a machine. -/
inductive Endian where
  | little
  | big
deriving DecidableEq, Repr

/-- `to_ne_bytes`: the bytes of a number as the machine stores it. -/
def toNeBytes (endian : Endian) (width n : Nat) : List UInt8 :=
  match endian with
  | .big => toBeBytes width n
  | .little => (toBeBytes width n).reverse

/-- `from_ne_bytes`. -/
def fromNeBytes (endian : Endian) (bytes : List UInt8) : Nat :=
  match endian with
  | .big => fromBeBytes bytes
  | .little => fromBeBytes bytes.reverse

/-- `swap_bytes`. -/
def swapBytes (width n : Nat) : Nat := fromBeBytes (toBeBytes width n).reverse

/-- `to_be`, and `from_be` as well. -/
def toBe (endian : Endian) (width n : Nat) : Nat :=
  match endian with
  | .big => n
  | .little => swapBytes width n

section ByteOrder

variable (endian : Endian) (width n : Nat)

@[simp] theorem length_toNeBytes : (toNeBytes endian width n).length = width := by
  cases endian with
  | big => exact length_toBeBytes width n
  | little => exact (List.length_reverse).trans (length_toBeBytes width n)

theorem fromNeBytes_toNeBytes :
    fromNeBytes endian (toNeBytes endian width n) = n % 256 ^ width := by
  cases endian with
  | big => exact fromBeBytes_toBeBytes width n
  | little =>
      simp only [fromNeBytes, toNeBytes, List.reverse_reverse]
      exact fromBeBytes_toBeBytes width n

theorem toNeBytes_fromNeBytes (bytes : List UInt8) :
    toNeBytes endian bytes.length (fromNeBytes endian bytes) = bytes := by
  cases endian with
  | big => exact toBeBytes_fromBeBytes bytes
  | little =>
      simp only [toNeBytes, fromNeBytes]
      rw [← List.length_reverse, toBeBytes_fromBeBytes, List.reverse_reverse]

/-- The number `to_be` makes is stored in network order. -/
theorem toNeBytes_toBe : toNeBytes endian width (toBe endian width n) = toBeBytes width n := by
  cases endian with
  | big => rfl
  | little =>
      have hlength : (toBeBytes width n).reverse.length = width := by
        rw [List.length_reverse, length_toBeBytes]
      have hswap := toBeBytes_fromBeBytes (toBeBytes width n).reverse
      rw [hlength] at hswap
      simp only [toNeBytes, toBe, swapBytes, hswap, List.reverse_reverse]

/-- A number read from bytes in network order is turned into the one they spell. -/
theorem toBe_fromNeBytes (bytes : List UInt8) :
    toBe endian bytes.length (fromNeBytes endian bytes) = fromBeBytes bytes := by
  cases endian with
  | big => rfl
  | little =>
      have hback := toBeBytes_fromBeBytes bytes.reverse
      rw [List.length_reverse] at hback
      simp only [toBe, swapBytes, fromNeBytes, hback, List.reverse_reverse]

end ByteOrder

end BigEndian
