/-!
# Bits packed into bytes

* `Bits.get`: the bit at an index; bits beyond the bytes are clear.
* `Bits.set`: the bytes with one more bit.
* `Bits.count`: how many bits are set.
* `Bits.get_set`: setting a bit changes that bit alone.
-/

namespace NameHunt

/-- A row of bytes. -/
abbrev Bytes := Array UInt8

namespace Bits

/-- The bit at an index, lowest bit of a byte first. -/
def get (bytes : Bytes) (i : Nat) : Bool :=
  match bytes[i / 8]? with
  | some byte => byte.toNat.testBit (i % 8)
  | none => false

/-- The byte with one bit set. -/
def mask (i : Nat) : UInt8 :=
  UInt8.ofNat (1 <<< (i % 8))

/-- The bytes with the bit at an index set. Nothing happens beyond the bytes. -/
def set (bytes : Bytes) (i : Nat) : Bytes :=
  bytes.modify (i / 8) (· ||| mask i)

/-- How many bits of a byte are set. -/
def ones (byte : UInt8) : Nat :=
  if byte = 0 then 0 else (List.range 8).countP byte.toNat.testBit

/-- How many bits are set. -/
def count (bytes : Bytes) : Nat :=
  bytes.foldl (fun n byte => n + ones byte) 0

@[simp] theorem size_set (bytes : Bytes) (i : Nat) : (set bytes i).size = bytes.size := by
  simp [set]

theorem testBit_mask (i j : Nat) : (mask i).toNat.testBit j = decide (i % 8 = j) := by
  have h : (mask i).toNat = 2 ^ (i % 8) := by
    have hpow : 2 ^ (i % 8) < 2 ^ 8 := Nat.pow_lt_pow_right (by decide) (Nat.mod_lt _ (by decide))
    simp only [mask, UInt8.toNat_ofNat', Nat.one_shiftLeft]
    exact Nat.mod_eq_of_lt hpow
  rw [h, Nat.testBit_two_pow]

/-- The bit that was set is set, and the others are as before. -/
theorem get_set (bytes : Bytes) (i j : Nat) :
    get (set bytes i) j = (get bytes j || (decide (i = j) && decide (i / 8 < bytes.size))) := by
  by_cases hbyte : i / 8 = j / 8
  · by_cases hsize : j / 8 < bytes.size
    · have hbit : decide (i % 8 = j % 8) = decide (i = j) := by
        rw [decide_eq_decide]
        omega
      simp [get, set, hbyte, hsize, Array.getElem_modify, testBit_mask, hbit]
    · simp [get, set, hbyte, hsize]
  · have hne : i ≠ j := fun h => hbyte (by rw [h])
    simp [get, set, Array.getElem?_modify, hbyte, hne]

/-- Bits beyond the bytes are clear. -/
theorem get_of_size_le {bytes : Bytes} {i : Nat} (h : bytes.size ≤ i / 8) :
    get bytes i = false := by
  simp [get, Array.getElem?_eq_none h]

/-- New bytes have no bit set. -/
theorem get_replicate (n i : Nat) : get (Array.replicate n 0) i = false := by
  simp only [get, Array.getElem?_replicate]
  split
  · rename_i byte h
    split at h
    · obtain rfl := Option.some.inj h
      simp
    · simp at h
  · rfl

end Bits

end NameHunt
