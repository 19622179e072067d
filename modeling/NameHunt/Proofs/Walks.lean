import NameHunt.Proofs.Checked

/-!
# The cost of walks

A walk leaves the range and comes back to it. It cannot be long on the average, because a number is
met by one walk at most: whoever meets it can be followed back to one start only. So all walks
together make as many passes as the domain has numbers or fewer, and the domain is at most four times
as large as the range.

* `Checked.width_eq`: the width of a half, computed from the zeros in front of the largest index.
* `Permutation.isLeast_domain`, `Permutation.domain_le`: no smaller domain covers the range.
* `Permutation.passCount`: the passes of the walk from an index.
* `Permutation.eq_of_meet`: no number is met twice.
* `Permutation.sum_passCount_le`: the passes of all walks together.
* `Permutation.Economical`, `Permutation.economical`: what a traversal costs.
-/

namespace NameHunt

namespace Permutation

/-! ### The width of a half -/

/-- The digits of a number of 128 bits are what the zeros in front leave. -/
theorem sub_clz_eq_bitLength {n : Nat} (h : n < 2 ^ 128) :
    128 - (BitVec.ofNat 128 n).clz.toNat = bitLength n := by
  have hvalue : (BitVec.ofNat 128 n).toNat = n := by rw [BitVec.toNat_ofNat, Nat.mod_eq_of_lt h]
  have hupper : n < 2 ^ (128 - (BitVec.ofNat 128 n).clz.toNat) :=
    hvalue.symm.trans_lt BitVec.toNat_lt_two_pow_sub_clz
  refine Nat.le_antisymm ?_ (bitLength_le hupper)
  by_cases hzero : BitVec.ofNat 128 n = 0#128
  · have hzeros : (BitVec.ofNat 128 n).clz.toNat = 128 := by
      rw [BitVec.clz_eq_iff_eq_zero.2 hzero]
      rfl
    omega
  · have hlower : 2 ^ (128 - 1 - (BitVec.ofNat 128 n).clz.toNat) ≤ n :=
      (BitVec.two_pow_sub_clz_le_toNat_of_ne_zero (by decide) hzero).trans_eq hvalue
    have hpower : 128 - 1 - (BitVec.ofNat 128 n).clz.toNat < bitLength n :=
      (Nat.pow_lt_pow_iff_right Nat.one_lt_two).1 (hlower.trans_lt (lt_two_pow_bitLength n))
    omega

/-- No narrower halves cover the range. -/
theorem halfBits_le_of_size_le {size bits : Nat} (hbits : 1 ≤ bits) (h : size ≤ 2 ^ (2 * bits)) :
    halfBits size ≤ bits := by
  have hpos := Nat.two_pow_pos (2 * bits)
  have hlength : bitLength (size - 1) ≤ 2 * bits := bitLength_le (by omega)
  unfold halfBits
  omega

end Permutation

namespace Checked

open Permutation (bitLength halfBits sub_clz_eq_bitLength)

/-- The width of a half, by the zeros in front of the largest index. -/
def width (size : Nat) : Except Trap Nat := do
  let needed ← sub 128 (BitVec.ofNat 128 (size - 1)).clz.toNat
  let total ← add (max needed 2) (max needed 2 % 2)
  div total 2

theorem width_eq {size : Nat} (hpos : 1 ≤ size) (hsize : size ≤ 2 ^ 128) :
    width size = .ok (halfBits size) := by
  have hbits := sub_clz_eq_bitLength (n := size - 1) (by omega)
  have hle : (BitVec.ofNat 128 (size - 1)).clz.toNat ≤ 128 := BitVec.clz_le
  show (sub 128 (BitVec.ofNat 128 (size - 1)).clz.toNat >>= _) = _
  rw [sub_eq hle, hbits]
  show (add (max (bitLength (size - 1)) 2) _ >>= _) = _
  rw [add_eq (by omega)]
  show div _ 2 = _
  rw [div_eq Nat.two_pos]
  congr 1
  unfold halfBits
  omega

end Checked

namespace Permutation

variable (p : Permutation)

/-- The domain is the smallest power of two with an even exponent that covers the range; zero does
not count as an exponent. -/
theorem isLeast_domain :
    IsLeast {m | p.size ≤ m ∧ ∃ bits, 1 ≤ bits ∧ m = 2 ^ (2 * bits)} p.domain := by
  refine ⟨⟨p.size_le_domain, _, halfBits_pos p.size, p.domain_eq⟩, ?_⟩
  rintro m ⟨hsize, bits, hbits, rfl⟩
  rw [domain_eq]
  exact Nat.pow_le_pow_right (by decide)
    (Nat.mul_le_mul_left 2 (halfBits_le_of_size_le hbits hsize))

/-- Halves that are narrower by one bit leave something of the range out. -/
theorem domain_le (hpos : 1 ≤ p.size) : p.domain ≤ 4 * p.size := by
  rw [domain_eq]
  obtain hone | ⟨bits, hbits, hwidth⟩ :
      halfBits p.size = 1 ∨ ∃ bits, 1 ≤ bits ∧ halfBits p.size = bits + 1 := by
    have hwidth := halfBits_pos p.size
    rcases Nat.eq_or_lt_of_le hwidth with hone | hmore
    · exact .inl hone.symm
    · exact .inr ⟨halfBits p.size - 1, by omega, by omega⟩
  · rw [hone]
    omega
  · have hnarrow : 2 ^ (2 * bits) < p.size := by
      by_contra hcovers
      have := halfBits_le_of_size_le hbits (Nat.le_of_not_lt hcovers)
      omega
    rw [hwidth, Nat.mul_add, Nat.pow_add]
    omega

/-! ### Passes -/

variable {p}

/-- The walk from an index comes back to the range. -/
theorem exists_pass_lt (n : Fin p.size) : ∃ k, 1 ≤ k ∧ (p.encrypt)^[k] n < p.size := by
  obtain ⟨k, hpos, heq, hlt, -⟩ := apply_eq_iterate n.isLt
  exact ⟨k, hpos, heq ▸ hlt⟩

/-- How many passes the walk from an index makes. -/
def passCount (n : Fin p.size) : Nat :=
  Nat.find (exists_pass_lt n)

theorem isLeast_passCount (n : Fin p.size) :
    IsLeast {k | 1 ≤ k ∧ (p.encrypt)^[k] n < p.size} (passCount n) :=
  ⟨Nat.find_spec (exists_pass_lt n), fun _ h => Nat.find_min' (exists_pass_lt n) h⟩

/-- Before the last pass the walk is outside the range. -/
theorem size_le_of_lt_passCount {n : Fin p.size} {k : Nat} (hpos : 1 ≤ k) (h : k < passCount n) :
    p.size ≤ (p.encrypt)^[k] n := by
  by_contra hinside
  exact absurd ((isLeast_passCount n).2 ⟨hpos, Nat.lt_of_not_le hinside⟩) (Nat.not_le.2 h)

/-- The loop goes once through each pass but the first. -/
theorem passes_passCount (n : Fin p.size) :
    p.Passes (passCount n - 1) (p.encrypt n) (p.apply n) := by
  obtain ⟨hpos, hinside⟩ := (isLeast_passCount n).1
  obtain ⟨k, -, hpasses⟩ := passes_apply n.isLt
  obtain ⟨count, hcount⟩ : ∃ count, passCount n = count + 1 := ⟨passCount n - 1, by omega⟩
  rw [hcount, Function.iterate_succ_apply] at hinside
  have hloop : p.Passes count (p.encrypt n) ((p.encrypt)^[count] (p.encrypt n)) := by
    refine passes_iterate (fun j hj => ?_) hinside
    rw [← Function.iterate_succ_apply]
    exact size_le_of_lt_passCount (Nat.succ_pos j) (by omega)
  obtain ⟨rfl, -⟩ := hloop.unique hpasses
  rwa [hcount, Nat.add_sub_cancel]

/-- Of two walks that meet the same number, the one that took longer would have met the other's
start before, and that lies in the range. -/
theorem eq_of_meet {n m : Fin p.size} {j k : Nat} (hjk : j ≤ k) (hj : 1 ≤ j) (hk : k ≤ passCount m)
    (h : (p.encrypt)^[j] n = (p.encrypt)^[k] m) : n = m ∧ j = k := by
  have hn : n.val < p.domain := Nat.lt_of_lt_of_le n.isLt p.size_le_domain
  have hm : m.val < p.domain := Nat.lt_of_lt_of_le m.isLt p.size_le_domain
  obtain ⟨d, rfl⟩ : ∃ d, k = j + d := ⟨k - j, by omega⟩
  have hstart : n.val = (p.encrypt)^[d] m := p.eq_iterate_of_iterate_add_eq hn hm h
  rcases Nat.eq_zero_or_pos d with rfl | hd
  · exact ⟨Fin.ext hstart, rfl⟩
  · have houtside := size_le_of_lt_passCount hd (by omega : d < passCount m)
    have hinside := n.isLt
    omega

/-- All walks together make as many passes as the domain has numbers, or fewer. -/
theorem sum_passCount_le (p : Permutation) : ∑ n : Fin p.size, passCount n ≤ p.domain := by
  calc ∑ n : Fin p.size, passCount n
      = ∑ n : Fin p.size, (Finset.Icc 1 (passCount n)).card := by simp
    _ = (Finset.univ.sigma fun n : Fin p.size => Finset.Icc 1 (passCount n)).card :=
      (Finset.card_sigma _ _).symm
    _ ≤ (Finset.range p.domain).card := by
      refine Finset.card_le_card_of_injOn (fun met => (p.encrypt)^[met.2] met.1) ?_ ?_
      · rintro ⟨n, k⟩ -
        exact Finset.mem_coe.2 (Finset.mem_range.2
          (p.iterate_encrypt_lt k (Nat.lt_of_lt_of_le n.isLt p.size_le_domain)))
      · rintro ⟨n, j⟩ hj ⟨m, k⟩ hk h
        obtain ⟨hj, hjcount⟩ := Finset.mem_Icc.1 (Finset.mem_sigma.1 hj).2
        obtain ⟨hk, hkcount⟩ := Finset.mem_Icc.1 (Finset.mem_sigma.1 hk).2
        rcases Nat.le_total j k with hjk | hkj
        · obtain ⟨rfl, rfl⟩ := eq_of_meet hjk hj hkcount h
          rfl
        · obtain ⟨rfl, rfl⟩ := eq_of_meet hkj hk hjcount h.symm
          rfl
    _ = p.domain := Finset.card_range _

/-! ### A whole traversal -/

/-- What the domain and the walks of a traversal come to. -/
structure Economical (p : Permutation) : Prop where
  /-- The width of a half can be computed within the 128 bits. -/
  width : Checked.width p.size = .ok (halfBits p.size) ∧ halfBits p.size ∈ Set.Icc 1 64
  mask : Checked.mask (halfBits p.size) = .ok (2 ^ halfBits p.size - 1)
  /-- No smaller domain of two halves covers the range. -/
  least : IsLeast {m | p.size ≤ m ∧ ∃ bits, 1 ≤ bits ∧ m = 2 ^ (2 * bits)}
    (2 ^ (2 * halfBits p.size))
  domain_le : 2 ^ (2 * halfBits p.size) ≤ 4 * p.size
  /-- A pass stays in the domain, and nothing in it leaves the 128 bits. -/
  pass : ∀ n < 2 ^ (2 * halfBits p.size),
    p.encrypt n < 2 ^ (2 * halfBits p.size) ∧ Checked.encrypt p n = .ok (p.encrypt n)
  /-- The passes from an index are counted up to the first that ends in the range. -/
  walk : ∀ n : Fin p.size, IsLeast {k | 1 ≤ k ∧ (p.encrypt)^[k] n < p.size} (passCount n) ∧
    p.Passes (passCount n - 1) (p.encrypt n) (p.apply n)
  sum_le : ∑ n : Fin p.size, passCount n ≤ 2 ^ (2 * halfBits p.size)
  /-- An index takes four passes on the average, or fewer. -/
  average_le : ∑ n : Fin p.size, passCount n ≤ 4 * p.size

/-- Whatever the keys are, a traversal of a range of 128 bits is cheap. -/
theorem economical {p : Permutation} (hpos : 1 ≤ p.size) (hsize : p.size < 2 ^ 128) :
    p.Economical := by
  have hbits : halfBits p.size ≤ 64 := halfBits_le (Nat.le_of_lt hsize)
  refine ⟨⟨Checked.width_eq hpos (Nat.le_of_lt hsize), halfBits_pos p.size, hbits⟩,
    Checked.mask_eq hbits, ?_, ?_, ?_, fun n => ⟨isLeast_passCount n, passes_passCount n⟩, ?_,
    (sum_passCount_le p).trans (p.domain_le hpos)⟩
  · exact p.domain_eq ▸ p.isLeast_domain
  · exact p.domain_eq ▸ p.domain_le hpos
  · exact fun n _ => ⟨p.domain_eq ▸ p.encrypt_lt n, Checked.encrypt_eq hsize n⟩
  · exact p.domain_eq ▸ sum_passCount_le p

/-- The names of twenty-four wildcards. -/
def wildcardRange : Permutation where
  size := 37 ^ 24
  keys := [1, 2, 3, 4, 5, 6]

/-- They need halves of 63 bits. -/
theorem economical_wildcardRange :
    1 ≤ wildcardRange.size ∧ wildcardRange.size < 2 ^ 128 ∧ halfBits wildcardRange.size = 63 ∧
      wildcardRange.Economical ∧
      ∑ n : Fin wildcardRange.size, passCount n ≤ 4 * 37 ^ 24 := by
  have hpos : 1 ≤ wildcardRange.size := by decide
  have hsize : wildcardRange.size < 2 ^ 128 := by decide
  have h : wildcardRange.Economical := economical hpos hsize
  exact ⟨hpos, hsize, by decide, h, h.average_le⟩

end Permutation

end NameHunt
