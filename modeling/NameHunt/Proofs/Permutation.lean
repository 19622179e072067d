import Mathlib
import NameHunt.Permutation

/-!
# The keyed permutation permutes

A round can be undone whatever its key, so a pass of the network is a permutation of its domain. On
a finite domain every number comes back to itself, so the walk from a number of the range meets the
range again, and two walks that meet the same number first started from the same one.

* `Permutation.encrypt_lt`, `Permutation.encrypt_inj`: a pass permutes the domain.
* `Permutation.size_le_domain`: the domain covers the range.
* `Permutation.apply_eq_iterate`: an index goes where its orbit first meets the range.
* `Permutation.apply_lt`, `Permutation.apply_inj`: the range is permuted.
* `Permutation.map_apply_range_perm`: every index is visited once.
* `Permutation.Passes`: the walk as a loop without any bound, with the passes that it makes.
* `Permutation.permutes`: the loop ends for every index, and what it ends with permutes the range.
-/

namespace NameHunt.Permutation

/-! ### One pass -/

/-- What a round mixes into the left half. -/
def mixed (bits : Nat) (key : UInt64) (right : Nat) : Nat :=
  (scramble (UInt64.ofNat right ^^^ key)).toNat % (1 <<< bits)

/-- Halves of a number of the domain. -/
def InDomain (bits : Nat) (halves : Halves) : Prop :=
  halves.left < 2 ^ bits ∧ halves.right < 2 ^ bits

theorem mixed_lt (bits : Nat) (key : UInt64) (right : Nat) : mixed bits key right < 2 ^ bits := by
  rw [mixed, Nat.one_shiftLeft]
  exact Nat.mod_lt _ (Nat.two_pow_pos bits)

theorem inDomain_round {bits : Nat} {halves : Halves} (h : InDomain bits halves) (key : UInt64) :
    InDomain bits (round bits halves key) :=
  ⟨h.2, Nat.xor_lt_two_pow h.1 (mixed_lt bits key halves.right)⟩

/-- The right half is kept, and it tells what was mixed into the left one. -/
theorem round_inj {bits : Nat} {key : UInt64} {a b : Halves}
    (h : round bits a key = round bits b key) : a = b := by
  have hright : a.right = b.right := congrArg Halves.left h
  have hleft : a.left ^^^ mixed bits key a.right = b.left ^^^ mixed bits key b.right :=
    congrArg Halves.right h
  rw [hright] at hleft
  have hcancel := congrArg (· ^^^ mixed bits key b.right) hleft
  simp only [Nat.xor_assoc, Nat.xor_self, Nat.xor_zero] at hcancel
  cases a
  cases b
  simp_all only

theorem inDomain_foldl_round {bits : Nat} (keys : List UInt64) {halves : Halves}
    (h : InDomain bits halves) : InDomain bits (keys.foldl (round bits) halves) := by
  induction keys generalizing halves with
  | nil => exact h
  | cons key rest ih => exact ih (inDomain_round h key)

theorem foldl_round_inj {bits : Nat} (keys : List UInt64) {a b : Halves}
    (h : keys.foldl (round bits) a = keys.foldl (round bits) b) : a = b := by
  induction keys generalizing a b with
  | nil => exact h
  | cons key rest ih => exact round_inj (ih h)

theorem inDomain_split (bits n : Nat) : InDomain bits (split bits n) := by
  constructor
  all_goals
    simp only [split, Nat.one_shiftLeft]
    exact Nat.mod_lt _ (Nat.two_pow_pos bits)

theorem join_split {bits n : Nat} (h : n < 2 ^ (2 * bits)) : join bits (split bits n) = n := by
  have hhigh : n / 2 ^ bits < 2 ^ bits := by
    rw [Nat.div_lt_iff_lt_mul (Nat.two_pow_pos bits), ← Nat.pow_add, ← Nat.two_mul]
    exact h
  simp only [join, split, Nat.shiftRight_eq_div_pow, Nat.shiftLeft_eq, Nat.one_mul]
  rw [Nat.mod_eq_of_lt hhigh, Nat.mul_comm]
  exact Nat.div_add_mod n (2 ^ bits)

theorem join_lt {bits : Nat} {halves : Halves} (h : InDomain bits halves) :
    join bits halves < 2 ^ (2 * bits) := by
  have hleft : (halves.left + 1) * 2 ^ bits ≤ 2 ^ bits * 2 ^ bits :=
    Nat.mul_le_mul_right _ h.1
  rw [Nat.succ_mul] at hleft
  rw [join, Nat.shiftLeft_eq, Nat.two_mul, Nat.pow_add]
  have hright := h.2
  omega

/-- Quotient and remainder give the halves back. -/
theorem join_inj {bits : Nat} {a b : Halves} (ha : InDomain bits a) (hb : InDomain bits b)
    (h : join bits a = join bits b) : a = b := by
  simp only [join, Nat.shiftLeft_eq] at h
  have hright : a.right = b.right := by
    have hmod := congrArg (· % 2 ^ bits) h
    simpa only [Nat.mul_add_mod_self_right, Nat.mod_eq_of_lt ha.2, Nat.mod_eq_of_lt hb.2] using hmod
  have hleft : a.left = b.left := by
    rw [hright] at h
    exact Nat.mul_right_cancel (Nat.two_pow_pos bits) (Nat.add_right_cancel h)
  cases a
  cases b
  simp_all only

variable (p : Permutation)

theorem domain_eq : p.domain = 2 ^ (2 * halfBits p.size) := by
  rw [domain, Nat.one_shiftLeft]

/-- A pass stays in the domain. -/
theorem encrypt_lt (n : Nat) : p.encrypt n < p.domain := by
  rw [domain_eq]
  exact join_lt (inDomain_foldl_round p.keys (inDomain_split _ n))

/-- Two numbers of the domain that a pass takes to the same one are equal. -/
theorem encrypt_inj {n m : Nat} (hn : n < p.domain) (hm : m < p.domain)
    (h : p.encrypt n = p.encrypt m) : n = m := by
  rw [domain_eq] at hn hm
  have hjoin := join_inj (inDomain_foldl_round p.keys (inDomain_split _ n))
    (inDomain_foldl_round p.keys (inDomain_split _ m)) h
  have hsplit := foldl_round_inj p.keys hjoin
  rw [← join_split hn, ← join_split hm, hsplit]

theorem lt_two_pow_bitLength (n : Nat) : n < 2 ^ bitLength n := by
  unfold bitLength
  split
  · rename_i hzero
    simp [hzero]
  · exact Nat.lt_log2_self

/-- The domain covers the range. -/
theorem size_le_domain : p.size ≤ p.domain := by
  have hbits : bitLength (p.size - 1) ≤ 2 * halfBits p.size := by
    unfold halfBits
    omega
  have hlt : p.size - 1 < 2 ^ (2 * halfBits p.size) :=
    Nat.lt_of_lt_of_le (lt_two_pow_bitLength _) (Nat.pow_le_pow_right (by decide) hbits)
  rw [domain_eq]
  omega

/-! ### The walk -/

/-- A pass as a function on the domain. -/
def pass (n : Fin p.domain) : Fin p.domain :=
  ⟨p.encrypt n, p.encrypt_lt n⟩

theorem pass_injective : Function.Injective p.pass := by
  intro n m h
  exact Fin.ext (p.encrypt_inj n.isLt m.isLt (congrArg Fin.val h))

theorem val_iterate_pass (k : Nat) (n : Fin p.domain) :
    ((p.pass)^[k] n).val = (p.encrypt)^[k] n.val := by
  induction k generalizing n with
  | zero => rfl
  | succ k ih =>
    rw [Function.iterate_succ_apply, Function.iterate_succ_apply, ih]
    rfl

theorem iterate_encrypt_inj (k : Nat) {n m : Nat} (hn : n < p.domain) (hm : m < p.domain)
    (h : (p.encrypt)^[k] n = (p.encrypt)^[k] m) : n = m := by
  have hpass : (p.pass)^[k] ⟨n, hn⟩ = (p.pass)^[k] ⟨m, hm⟩ := by
    refine Fin.ext ?_
    rw [val_iterate_pass, val_iterate_pass]
    exact h
  exact congrArg Fin.val (p.pass_injective.iterate k hpass)

theorem iterate_encrypt_lt (k : Nat) {n : Nat} (hn : n < p.domain) :
    (p.encrypt)^[k] n < p.domain := by
  rw [← p.val_iterate_pass k ⟨n, hn⟩]
  exact Fin.isLt _

/-- What two numbers have in common after some passes, one had in common with the other before. -/
theorem eq_iterate_of_iterate_add_eq {n m j d : Nat} (hn : n < p.domain) (hm : m < p.domain)
    (h : (p.encrypt)^[j] n = (p.encrypt)^[j + d] m) : n = (p.encrypt)^[d] m := by
  rw [Function.iterate_add_apply] at h
  exact p.iterate_encrypt_inj j hn (p.iterate_encrypt_lt d hm) h

/-- Every number of the domain comes back to itself, after at most as many passes as there are
numbers. -/
theorem exists_iterate_eq_self {n : Nat} (hn : n < p.domain) :
    ∃ k, 0 < k ∧ k ≤ p.domain ∧ (p.encrypt)^[k] n = n := by
  refine ⟨Function.minimalPeriod p.pass ⟨n, hn⟩, ?_, ?_, ?_⟩
  · exact Function.minimalPeriod_pos_of_mem_periodicPts (p.pass_injective.mem_periodicPts _)
  · have hcard := Function.minimalPeriod_le_card (f := p.pass) (x := ⟨n, hn⟩)
    rwa [Fintype.card_fin] at hcard
  · have hperiod := Function.isPeriodicPt_minimalPeriod p.pass ⟨n, hn⟩
    rw [← p.val_iterate_pass _ ⟨n, hn⟩, hperiod.eq]

/-- The walk stops at the first number of the orbit that lies in the range. -/
theorem walk_eq_iterate (fuel n : Nat)
    (h : ∃ k, 0 < k ∧ k ≤ fuel ∧ (p.encrypt)^[k] n < p.size) :
    ∃ k, 0 < k ∧ p.walk fuel n = (p.encrypt)^[k] n ∧ p.walk fuel n < p.size ∧
      ∀ j, 0 < j → j < k → p.size ≤ (p.encrypt)^[j] n := by
  induction fuel generalizing n with
  | zero =>
    obtain ⟨k, hpos, hle, -⟩ := h
    omega
  | succ fuel ih =>
    simp only [walk]
    split
    · rename_i hlt
      exact ⟨1, Nat.one_pos, rfl, hlt, fun j hj hj' => by omega⟩
    · rename_i hge
      have hrest : ∃ k, 0 < k ∧ k ≤ fuel ∧ (p.encrypt)^[k] (p.encrypt n) < p.size := by
        obtain ⟨k, hpos, hle, hlt⟩ := h
        obtain ⟨k, rfl⟩ : ∃ j, k = j + 1 := ⟨k - 1, by omega⟩
        rw [Function.iterate_succ_apply] at hlt
        refine ⟨k, ?_, by omega, hlt⟩
        rcases Nat.eq_zero_or_pos k with rfl | hk
        · exact absurd hlt hge
        · exact hk
      obtain ⟨k, hpos, heq, hlt, hfirst⟩ := ih (p.encrypt n) hrest
      refine ⟨k + 1, Nat.succ_pos k, by rw [heq, Function.iterate_succ_apply], hlt, ?_⟩
      intro j hj hjk
      obtain ⟨j, rfl⟩ : ∃ i, j = i + 1 := ⟨j - 1, by omega⟩
      rw [Function.iterate_succ_apply]
      rcases Nat.eq_zero_or_pos j with rfl | hj'
      · exact Nat.le_of_not_lt hge
      · exact hfirst j hj' (by omega)

variable {p}

/-- An index goes where its orbit first meets the range. -/
theorem apply_eq_iterate {n : Nat} (hn : n < p.size) :
    ∃ k, 0 < k ∧ p.apply n = (p.encrypt)^[k] n ∧ p.apply n < p.size ∧
      ∀ j, 0 < j → j < k → p.size ≤ (p.encrypt)^[j] n := by
  obtain ⟨k, hpos, hle, heq⟩ := p.exists_iterate_eq_self (Nat.lt_of_lt_of_le hn p.size_le_domain)
  exact p.walk_eq_iterate p.domain n ⟨k, hpos, hle, heq.symm ▸ hn⟩

theorem apply_lt {n : Nat} (hn : n < p.size) : p.apply n < p.size := by
  obtain ⟨k, -, -, hlt, -⟩ := apply_eq_iterate hn
  exact hlt

/-- Of two orbits that first meet the range at the same number, the one that took longer would have
met the other's start before. -/
theorem eq_of_iterate_eq {n m j k : Nat} (hn : n < p.size) (hm : m < p.size) (hjk : j ≤ k)
    (hfirst : ∀ i, 0 < i → i < k → p.size ≤ (p.encrypt)^[i] m) (hj : 0 < j)
    (h : (p.encrypt)^[j] n = (p.encrypt)^[k] m) : n = m := by
  have hn' : n < p.domain := Nat.lt_of_lt_of_le hn p.size_le_domain
  have hm' : m < p.domain := Nat.lt_of_lt_of_le hm p.size_le_domain
  obtain ⟨d, rfl⟩ : ∃ d, k = j + d := ⟨k - j, by omega⟩
  have hstart : n = (p.encrypt)^[d] m := p.eq_iterate_of_iterate_add_eq hn' hm' h
  rcases Nat.eq_zero_or_pos d with rfl | hd
  · exact hstart
  · have hge := hfirst d hd (by omega)
    rw [← hstart] at hge
    omega

/-- Two indices go to different places. -/
theorem apply_inj {n m : Nat} (hn : n < p.size) (hm : m < p.size) (h : p.apply n = p.apply m) :
    n = m := by
  obtain ⟨j, hj, hjeq, -, hjfirst⟩ := apply_eq_iterate hn
  obtain ⟨k, hk, hkeq, -, hkfirst⟩ := apply_eq_iterate hm
  rw [hjeq, hkeq] at h
  rcases Nat.le_total j k with hjk | hkj
  · exact eq_of_iterate_eq hn hm hjk hkfirst hj h
  · exact (eq_of_iterate_eq hm hn hkj hjfirst hk h.symm).symm

/-- Every index is visited once. -/
theorem map_apply_range_perm (p : Permutation) :
    ((List.range p.size).map p.apply).Perm (List.range p.size) := by
  have hnodup : ((List.range p.size).map p.apply).Nodup := by
    refine List.nodup_range.map_on ?_
    intro n hn m hm h
    exact apply_inj (List.mem_range.1 hn) (List.mem_range.1 hm) h
  have hsubset : (List.range p.size).map p.apply ⊆ List.range p.size := by
    intro n hn
    obtain ⟨m, hm, rfl⟩ := List.mem_map.1 hn
    exact List.mem_range.2 (apply_lt (List.mem_range.1 hm))
  exact (hnodup.subperm hsubset).perm_of_length_le (by simp)

/-! ### The walk as a loop -/

/-- The loop of a walk, from a number to the one that it ends with: a number outside the range goes
through one more pass. The passes are counted. -/
inductive Passes (p : Permutation) : Nat → Nat → Nat → Prop
  | inside {n : Nat} (h : n < p.size) : Passes p 0 n n
  | outside {k n m : Nat} (h : p.size ≤ n) (rest : Passes p k (p.encrypt n) m) :
      Passes p (k + 1) n m

/-- The loop can end in one way only. -/
theorem Passes.unique {k k' n m m' : Nat} (h : p.Passes k n m) (h' : p.Passes k' n m') :
    k = k' ∧ m = m' := by
  induction h generalizing k' with
  | inside hlt =>
    cases h' with
    | inside => exact ⟨rfl, rfl⟩
    | outside hle => omega
  | outside hle rest ih =>
    cases h' with
    | inside hlt => omega
    | outside hle' rest' =>
      obtain ⟨rfl, rfl⟩ := ih rest'
      exact ⟨rfl, rfl⟩

/-- An orbit that meets the range after `k` passes, and not before, makes the loop end there. -/
theorem passes_iterate {k n : Nat} (hbefore : ∀ j < k, p.size ≤ (p.encrypt)^[j] n)
    (hinside : (p.encrypt)^[k] n < p.size) : p.Passes k n ((p.encrypt)^[k] n) := by
  induction k generalizing n with
  | zero => exact .inside hinside
  | succ k ih =>
    rw [Function.iterate_succ_apply] at hinside ⊢
    refine .outside (hbefore 0 (Nat.succ_pos k)) (ih (fun j hj => ?_) hinside)
    rw [← Function.iterate_succ_apply]
    exact hbefore (j + 1) (Nat.succ_lt_succ hj)

/-- Numbers outside the range that a walk meets are different ones, so that there are fewer passes
than numbers in the domain. -/
theorem passes_apply {n : Nat} (hn : n < p.size) :
    ∃ k < p.domain, p.Passes k (p.encrypt n) (p.apply n) := by
  obtain ⟨k, hpos, heq, hinside, hfirst⟩ := apply_eq_iterate hn
  obtain ⟨k, rfl⟩ : ∃ j, k = j + 1 := ⟨k - 1, by omega⟩
  rw [Function.iterate_succ_apply] at heq
  refine ⟨k, ?_, ?_⟩
  · -- A longer walk would have come around to its start, which lies in the range.
    by_contra hlong
    obtain ⟨j, hj, hle, hself⟩ :=
      p.exists_iterate_eq_self (Nat.lt_of_lt_of_le hn p.size_le_domain)
    have houtside := hfirst j hj (by omega)
    omega
  · rw [heq] at hinside ⊢
    refine passes_iterate (fun j hj => ?_) hinside
    rw [← Function.iterate_succ_apply]
    exact hfirst (j + 1) (Nat.succ_pos j) (by omega)

/-- The places of the indices fill the range. -/
theorem exists_apply_eq {m : Nat} (hm : m < p.size) : ∃ n < p.size, p.apply n = m := by
  have hmem := p.map_apply_range_perm.symm.subset (List.mem_range.2 hm)
  obtain ⟨n, hn, rfl⟩ := List.mem_map.1 hmem
  exact ⟨n, List.mem_range.1 hn, rfl⟩

theorem bitLength_le {n bits : Nat} (h : n < 2 ^ bits) : bitLength n ≤ bits := by
  unfold bitLength
  split
  · exact Nat.zero_le bits
  · rename_i hpos
    exact Nat.succ_le_of_lt ((Nat.log2_lt hpos).2 h)

theorem halfBits_pos (size : Nat) : 1 ≤ halfBits size := by
  unfold halfBits
  omega

/-- A range of 128 bits has halves of 64 bits at most. -/
theorem halfBits_le {size : Nat} (h : size ≤ 2 ^ 128) : halfBits size ≤ 64 := by
  have hbits : bitLength (size - 1) ≤ 128 := bitLength_le (by omega)
  unfold halfBits
  omega

/-- What a walk does with the range. -/
structure Permutes (p : Permutation) : Prop where
  /-- The loop ends for every index, in one way only, and within the range. -/
  ends : ∀ n < p.size, p.apply n < p.size ∧ ∃ k < p.domain,
    p.Passes k (p.encrypt n) (p.apply n) ∧
      ∀ k' m, p.Passes k' (p.encrypt n) m → k' = k ∧ m = p.apply n
  bijOn : Set.BijOn p.apply (Set.Iio p.size) (Set.Iio p.size)
  /-- Where the size has 128 bits a half has 64 at most, and no pass leaves the 128 bits. -/
  fits : p.size < 2 ^ 128 → halfBits p.size ∈ Set.Icc 1 64 ∧ ∀ n, p.encrypt n < 2 ^ 128

/-- Whatever the keys are, every range is permuted. -/
theorem permutes (p : Permutation) : p.Permutes where
  ends := by
    intro n hn
    obtain ⟨k, hk, hpasses⟩ := passes_apply hn
    exact ⟨apply_lt hn, k, hk, hpasses, fun k' m hpasses' => hpasses'.unique hpasses⟩
  bijOn := by
    refine ⟨fun n hn => apply_lt hn, fun n hn m hm h => apply_inj hn hm h, fun m hm => ?_⟩
    obtain ⟨n, hn, heq⟩ := exists_apply_eq hm
    exact ⟨n, hn, heq⟩
  fits := by
    intro hsize
    have hbits : halfBits p.size ≤ 64 := halfBits_le (Nat.le_of_lt hsize)
    refine ⟨⟨halfBits_pos p.size, hbits⟩, fun n => ?_⟩
    have hlt : p.encrypt n < 2 ^ (2 * halfBits p.size) := p.domain_eq ▸ p.encrypt_lt n
    exact Nat.lt_of_lt_of_le hlt (Nat.pow_le_pow_right (by decide) (by omega))

end NameHunt.Permutation
