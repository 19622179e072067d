import Mathlib
import NameHunt.Proofs.Cache.Growth

/-!
# The slots of a cache

A cache is its capacity and the set of its slots. Their number is the number of bits that are set
in its bytes, because no bit is set beyond the capacity.

* `Bits.count_eq_countP`: the bits of all bytes, counted by their index.
* `Bits.eq_of_get`: bytes of one size with the same bits are the same.
* `Cache.eq_of_isSet`: caches of one capacity with the same slots are the same.
* `Cache.bitsSet_eq_card`: the number of the slots that are set.
* `Cache.insertAll_sets_slots`: what texts do to a cache is up to their slots alone.
-/

namespace NameHunt

namespace Bits

/-! ### Counting bits -/

theorem ones_eq_countP (byte : UInt8) : ones byte = (List.range 8).countP byte.toNat.testBit := by
  unfold ones
  split
  · rename_i hzero
    rw [hzero]
    rfl
  · rfl

theorem count_eq_sum (bytes : Bytes) : count bytes = (bytes.toList.map ones).sum := by
  rw [count, ← Array.foldl_toList, List.sum_eq_foldl, List.foldl_map]

/-- The first eight bits are those of the first byte. -/
theorem get_cons (byte : UInt8) (rest : List UInt8) (i : Nat) :
    get (byte :: rest).toArray i =
      if i < 8 then byte.toNat.testBit i else get rest.toArray (i - 8) := by
  by_cases hfirst : i < 8
  · have hdiv : i / 8 = 0 := by omega
    have hmod : i % 8 = i := by omega
    simp [get, hfirst, hdiv, hmod]
  · have hdiv : i / 8 = (i - 8) / 8 + 1 := by omega
    have hmod : i % 8 = (i - 8) % 8 := by omega
    simp [get, hfirst, hdiv, hmod]

/-- The bits of all bytes are counted by their index. -/
theorem count_eq_countP (bytes : Bytes) :
    count bytes = (List.range (8 * bytes.size)).countP (get bytes) := by
  obtain ⟨bytes⟩ := bytes
  rw [count_eq_sum]
  induction bytes with
  | nil => rfl
  | cons byte rest ih =>
    have hsize : 8 * (byte :: rest).toArray.size = 8 + 8 * rest.toArray.size := by
      simp only [List.size_toArray, List.length_cons]
      omega
    have hfirst : (List.range 8).countP (get (byte :: rest).toArray) = ones byte := by
      rw [ones_eq_countP]
      refine List.countP_congr fun i hi => ?_
      rw [get_cons, if_pos (List.mem_range.1 hi)]
    have hrest : ((List.range (8 * rest.toArray.size)).map (8 + ·)).countP
        (get (byte :: rest).toArray) =
          (List.range (8 * rest.toArray.size)).countP (get rest.toArray) := by
      rw [List.countP_map]
      refine List.countP_congr fun i _ => ?_
      simp [get_cons]
    rw [hsize, List.range_add, List.countP_append, hfirst, hrest, ← ih]
    rfl

/-! ### Bytes by their bits -/

theorem byte_eq_of_testBit {a b : UInt8}
    (h : ∀ j < 8, a.toNat.testBit j = b.toNat.testBit j) : a = b := by
  refine UInt8.toNat_inj.1 (Nat.eq_of_testBit_eq fun j => ?_)
  by_cases hj : j < 8
  · exact h j hj
  · have hhigh : ∀ c : UInt8, c.toNat.testBit j = false := fun c =>
      Nat.testBit_lt_two_pow (Nat.lt_of_lt_of_le c.toNat_lt
        (Nat.pow_le_pow_right (by decide) (Nat.le_of_not_lt hj)))
    rw [hhigh a, hhigh b]

/-- Bytes of one size with the same bits are the same. -/
theorem eq_of_get {bytes bytes' : Bytes} (hsize : bytes.size = bytes'.size)
    (h : ∀ i, get bytes i = get bytes' i) : bytes = bytes' := by
  refine Array.ext hsize fun k hk hk' => byte_eq_of_testBit fun j hj => ?_
  have hdiv : (8 * k + j) / 8 = k := by omega
  have hmod : (8 * k + j) % 8 = j := by omega
  simpa [get, hdiv, hmod, hk, hk'] using h (8 * k + j)

end Bits

namespace Cache

/-- Caches of one capacity with the same slots are the same. -/
theorem eq_of_isSet {c c' : Cache} (hcapacity : c.capacity = c'.capacity)
    (h : ∀ i, c.isSet i = c'.isSet i) : c = c' := by
  have hbytes : c.bytes = c'.bytes :=
    Bits.eq_of_get (by rw [c.size_bytes, c'.size_bytes, hcapacity]) h
  cases c
  cases c'
  obtain rfl : _ = _ := hcapacity
  obtain rfl : _ = _ := hbytes
  rfl

/-- The bits that are set are the slots that are set, because the bits beyond the capacity are
clear. -/
theorem bitsSet_eq_length_slots (c : Cache) : c.bitsSet = c.slots.length := by
  have hsize : 8 * c.bytes.size = c.capacity + (8 * c.bytes.size - c.capacity) := by
    have := c.size_bytes
    omega
  have hbeyond : ((List.range (8 * c.bytes.size - c.capacity)).map (c.capacity + ·)).countP
      (Bits.get c.bytes) = 0 := by
    rw [List.countP_eq_zero]
    intro i hi
    obtain ⟨j, -, rfl⟩ := List.mem_map.1 hi
    simp [c.clear_beyond (c.capacity + j) (Nat.le_add_right _ _)]
  rw [bitsSet, Bits.count_eq_countP, hsize, List.range_add, List.countP_append, hbeyond,
    Nat.add_zero, List.countP_eq_length_filter]
  rfl

/-- The number of the slots that are set. -/
theorem bitsSet_eq_card (c : Cache) :
    c.bitsSet = ((Finset.range c.capacity).filter fun i => c.isSet i = true).card := by
  have hnodup : c.slots.Nodup := List.nodup_range.filter _
  rw [bitsSet_eq_length_slots, ← List.toFinset_card_of_nodup hnodup]
  congr 1
  ext i
  simp [slots]

theorem bitsSet_le (c : Cache) : c.bitsSet ≤ c.capacity := by
  rw [bitsSet_eq_length_slots]
  exact (List.length_filter_le _ _).trans_eq List.length_range

/-- A new cache has the capacity that was asked for, and no slot is set. -/
theorem empty_of_fresh {capacity : Nat} {cache : Cache} (h : fresh capacity = .ok cache) :
    cache.capacity = capacity ∧ (∀ i, cache.isSet i = false) ∧ cache.bitsSet = 0 := by
  have hall : cache.capacity = capacity ∧ ∀ i, cache.isSet i = false := by
    unfold fresh at h
    split at h
    · split at h
      · cases h
        exact ⟨rfl, Bits.get_replicate _⟩
      · cases h
    · cases h
  refine ⟨hall.1, hall.2, ?_⟩
  rw [bitsSet_eq_length_slots, List.length_eq_zero_iff, slots, List.filter_eq_nil_iff]
  intro i _
  simp [hall.2 i]

/-- Neither the order of the texts nor how often they come matters. -/
theorem insertAll_congr (c : Cache) {texts texts' : List String}
    (h : ∀ s, s ∈ texts ↔ s ∈ texts') : c.insertAll texts = c.insertAll texts' := by
  refine eq_of_isSet (by simp) fun i => Bool.eq_iff_iff.2 ?_
  simp only [isSet_insertAll, h]

/-- What texts do to a cache is up to their slots alone. Afterwards a text is found if and only if
it was found before or shares its slot with one of them, in whatever order and however often they
were inserted. The bits that are set are as many as the slots below the capacity that are set. -/
theorem insertAll_sets_slots (c : Cache) (texts : List String) :
    (∀ t, (c.insertAll texts).test t = true ↔
        c.test t = true ∨ ∃ s ∈ texts, c.slot s = c.slot t) ∧
      (∀ texts', (∀ s, s ∈ texts' ↔ s ∈ texts) → c.insertAll texts' = c.insertAll texts) ∧
      (c.insertAll texts).capacity = c.capacity ∧
      (∀ t, c.slot t < c.capacity) ∧
      (c.insertAll texts).bitsSet =
        ((Finset.range c.capacity).filter fun i => (c.insertAll texts).isSet i = true).card ∧
      (c.insertAll texts).bitsSet ≤ c.capacity := by
  have hcapacity : (c.insertAll texts).capacity = c.capacity := c.capacity_insertAll texts
  refine ⟨c.test_insertAll texts, fun texts' hsame => c.insertAll_congr hsame, hcapacity,
    c.slot_lt, ?_, ?_⟩
  · rw [bitsSet_eq_card, hcapacity]
  · exact hcapacity ▸ bitsSet_le (c.insertAll texts)

end Cache

end NameHunt
