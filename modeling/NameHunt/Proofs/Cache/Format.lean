import Mathlib
import NameHunt.Cache.Format

/-!
# Reading caches back

The bytes of a cache are read as the same cache.

* `ofLittleEndian_littleEndian`: a number is read back from its bytes.
* `Cache.paddingIsSet_bytes`: a cache has no padding set.
* `Cache.decode_encode`: a cache is read back from its bytes.
-/

namespace NameHunt

/-- The lowest byte of a number, then the bytes of the rest. -/
theorem shifts_succ (count n : Nat) :
    ((List.range (count + 1)).map fun i => UInt8.ofNat (n >>> (8 * i))) =
      UInt8.ofNat n :: (List.range count).map fun i => UInt8.ofNat ((n / 256) >>> (8 * i)) := by
  have hrest : ∀ i, n >>> (8 * (i + 1)) = (n / 256) >>> (8 * i) := fun i => by
    rw [Nat.mul_succ, Nat.add_comm, Nat.shiftRight_add, Nat.shiftRight_eq_div_pow n 8]
  rw [List.range_succ_eq_map, List.map_cons, List.map_map]
  congr 1
  exact List.map_congr_left fun i _ => congrArg UInt8.ofNat (hrest i)

/-- The lowest `count` bytes of a number hold it up to `256 ^ count`. -/
theorem ofLittleEndian_shifts (count n : Nat) :
    ofLittleEndian ((List.range count).map fun i => UInt8.ofNat (n >>> (8 * i))) =
      n % 256 ^ count := by
  induction count generalizing n with
  | zero => simp [ofLittleEndian, Nat.mod_one]
  | succ count ih =>
    rw [shifts_succ, ofLittleEndian, ih, Nat.pow_succ', Nat.mod_mul]
    simp

theorem ofLittleEndian_littleEndian {n : Nat} (h : n ≤ Text.max64) :
    ofLittleEndian (littleEndian n) = n := by
  unfold littleEndian
  rw [ofLittleEndian_shifts, Nat.mod_eq_of_lt]
  exact Nat.lt_of_le_of_lt h (by decide)

theorem length_littleEndian (n : Nat) : (littleEndian n).length = 8 := by
  simp [littleEndian]

namespace Cache

/-- The bits beyond the capacity in the last byte are clear. -/
theorem paddingIsSet_bytes (c : Cache) : paddingIsSet c.capacity c.bytes = false := by
  unfold paddingIsSet
  split
  · rename_i last hlast
    by_cases hused : c.capacity % 8 = 0
    · simp [hused]
    · have hsize := c.size_bytes
      have hshift : last.toNat >>> (c.capacity % 8) = 0 := by
        refine Nat.eq_of_testBit_eq fun j => ?_
        rw [Nat.testBit_shiftRight, Nat.zero_testBit]
        by_cases hbyte : c.capacity % 8 + j < 8
        · have hclear := c.clear_beyond (c.capacity + j) (Nat.le_add_right _ _)
          have hdiv : (c.capacity + j) / 8 = c.bytes.size - 1 := by omega
          have hmod : (c.capacity + j) % 8 = c.capacity % 8 + j := by omega
          rw [Array.back?_eq_getElem?] at hlast
          simpa [Bits.get, hdiv, hmod, hlast] using hclear
        · refine Nat.testBit_lt_two_pow (Nat.lt_of_lt_of_le last.toNat_lt ?_)
          exact Nat.pow_le_pow_right (by decide) (Nat.le_of_not_lt hbyte)
      simp [hshift]
  · rfl

theorem ofParts_bytes (c : Cache) : ofParts c.capacity c.bytes = .ok c := by
  unfold ofParts
  rw [dif_pos c.capacity_pos, dif_pos ⟨c.capacity_le, c.size_bytes⟩,
    dif_neg (by simp [c.paddingIsSet_bytes])]

/-- The header and the bits are where they were put. -/
theorem extract_append {header : List UInt8} (bits : Bytes) (h : header.length = headerSize) :
    ((header.toArray ++ bits).extract 0 headerSize).toList = header ∧
      (header.toArray ++ bits).extract headerSize (header.toArray ++ bits).size = bits := by
  rw [← h]
  constructor <;> simp

/-- A cache is read back from its bytes. -/
theorem decode_encode (c : Cache) : decode c.encode = .ok c := by
  have hlength : (magic ++ version :: littleEndian c.capacity).length = headerSize := by
    simp [magic, headerSize, length_littleEndian]
  obtain ⟨hheader, hbits⟩ := extract_append c.bytes hlength
  unfold decode encode
  rw [hheader, hbits]
  simp only [hlength, Nat.lt_irrefl, ↓reduceIte]
  simp [magic, ofLittleEndian_littleEndian c.capacity_le, ofParts_bytes]

end Cache

end NameHunt
