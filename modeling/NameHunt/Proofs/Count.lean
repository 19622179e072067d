import Mathlib
import NameHunt.Analysis

/-!
# Exact counts

A product of positive factors that stays below the ceiling is counted exactly, and one that does
not is flagged. A zero takes the value back below the ceiling and leaves the flag where it is.

* `Count.clamp`: the count of a number of any size.
* `Count.foldl_times_clamp`: multiplying counts is multiplying the numbers.
* `Count.Faithful`: a count that says of a number what a count can say.
* `Count.multiplied`: what any factors make of a number, zeros among them or not.
* `Pattern.size`: the product of the alphabet sizes, without a ceiling.
* `Pattern.count_eq_clamp`: the count of a pattern is that of its size.
-/

namespace NameHunt

namespace Count

/-- The count of a number of any size: the number, or the ceiling with the flag. -/
def clamp (n : Nat) : Count :=
  if n ≤ ceiling then exact n else ⟨ceiling, true⟩

theorem clamp_of_le {n : Nat} (h : n ≤ ceiling) : clamp n = exact n := if_pos h

theorem clamp_of_lt {n : Nat} (h : ceiling < n) : clamp n = ⟨ceiling, true⟩ :=
  if_neg (Nat.not_le.2 h)

theorem value?_clamp (n : Nat) : (clamp n).value? = if n ≤ ceiling then some n else none := by
  unfold clamp
  split <;> rfl

/-- A flagged count stays at the ceiling: one is the only factor that does not pass it again. -/
theorem times_of_flagged {factor : Nat} (hpos : 0 < factor) :
    (⟨ceiling, true⟩ : Count).times factor = ⟨ceiling, true⟩ := by
  obtain rfl | hlarge := Nat.eq_or_lt_of_le (Nat.succ_le_of_lt hpos)
  · exact times_of_le (Nat.le_of_eq (Nat.mul_one _))
  · refine times_of_lt ?_
    show ceiling < ceiling * factor
    exact (Nat.lt_mul_iff_one_lt_right (by decide)).2 hlarge

/-- A positive factor never takes a product back below the ceiling, so the flag of a count says
just that its number is above it. -/
theorem times_clamp {factor : Nat} (hpos : 0 < factor) (n : Nat) :
    (clamp n).times factor = clamp (n * factor) := by
  have hle : n ≤ n * factor := Nat.le_mul_of_pos_right n hpos
  by_cases hn : n ≤ ceiling
  · rw [clamp_of_le hn]
    by_cases hproduct : n * factor ≤ ceiling
    · rw [clamp_of_le hproduct]
      exact times_of_le hproduct
    · rw [clamp_of_lt (Nat.lt_of_not_le hproduct)]
      exact times_of_lt (Nat.lt_of_not_le hproduct)
  · have hlt : ceiling < n := Nat.lt_of_not_le hn
    rw [clamp_of_lt hlt, clamp_of_lt (Nat.lt_of_lt_of_le hlt hle), times_of_flagged hpos]

/-- Multiplying counts is multiplying the numbers. -/
theorem foldl_times_clamp (factors : List Nat) (hpos : ∀ f ∈ factors, 0 < f) (n : Nat) :
    factors.foldl times (clamp n) = clamp (n * factors.prod) := by
  induction factors generalizing n with
  | nil => rw [List.foldl_nil, List.prod_nil, Nat.mul_one]
  | cons factor rest ih =>
    have hrest : ∀ f ∈ rest, 0 < f := fun f hf => hpos f (List.mem_cons_of_mem factor hf)
    rw [List.foldl_cons, times_clamp (hpos factor List.mem_cons_self), ih hrest, List.prod_cons,
      Nat.mul_assoc]

/-! ### Factors of zero -/

/-- A count that says whether a number is above the ceiling, and what it is if it is not. -/
structure Faithful (count : Count) (n : Nat) : Prop where
  saturated_iff : count.saturated = true ↔ ceiling < n
  value_exact : count.saturated = false → count.value = n
  value_ceiling : count.saturated = true → count.value = ceiling

/-- The factors before the first zero. -/
def lead (factors : List Nat) : List Nat :=
  factors.takeWhile (· != 0)

/-- The factors that are not zero. -/
def nonzero (factors : List Nat) : List Nat :=
  factors.filter (· != 0)

theorem lead_of_not_mem {factors : List Nat} (h : 0 ∉ factors) : lead factors = factors := by
  rw [lead, List.takeWhile_eq_self_iff]
  intro factor hfactor
  exact bne_iff_ne.2 fun hzero => h (hzero ▸ hfactor)

theorem lead_cons {factor : Nat} (hpos : 0 < factor) (rest : List Nat) :
    lead (factor :: rest) = factor :: lead rest :=
  List.takeWhile_cons_of_pos (bne_iff_ne.2 (Nat.ne_of_gt hpos))

theorem prod_nonzero_pos (factors : List Nat) : 0 < (nonzero factors).prod := by
  refine Nat.pos_of_ne_zero fun hzero => ?_
  exact bne_iff_ne.1 (List.mem_filter.1 (List.prod_eq_zero_iff.1 hzero)).2 rfl

/-- The factors before the first zero are among those that are not zero. -/
theorem prod_lead_le (factors : List Nat) : (lead factors).prod ≤ (nonzero factors).prod := by
  induction factors with
  | nil => exact Nat.le_refl 1
  | cons factor rest ih =>
    obtain rfl | hpos := Nat.eq_zero_or_pos factor
    · exact prod_nonzero_pos (0 :: rest)
    · have hnonzero : nonzero (factor :: rest) = factor :: nonzero rest :=
        List.filter_cons_of_pos (bne_iff_ne.2 (Nat.ne_of_gt hpos))
      rw [lead_cons hpos, hnonzero, List.prod_cons, List.prod_cons]
      exact Nat.mul_le_mul_left factor ih

theorem prod_nonzero_of_perm {factors factors' : List Nat} (h : factors.Perm factors') :
    (nonzero factors).prod = (nonzero factors').prod :=
  (h.filter _).prod_eq

/-- The factors with the zeros last. -/
def zerosLast (factors : List Nat) : List Nat :=
  nonzero factors ++ factors.filter fun factor => !(factor != 0)

theorem zerosLast_perm (factors : List Nat) : (zerosLast factors).Perm factors :=
  List.filter_append_perm _ _

/-- With the zeros last, all other factors come before the first of them. -/
theorem lead_zerosLast (factors : List Nat) : lead (zerosLast factors) = nonzero factors := by
  have hnonzero : ∀ factor ∈ nonzero factors, (factor != 0) = true := fun factor hfactor =>
    (List.mem_filter.1 hfactor).2
  rw [lead, zerosLast, List.takeWhile_append_of_pos hnonzero]
  cases hzeros : factors.filter fun factor => !(factor != 0) with
  | nil => exact List.append_nil _
  | cons first rest =>
    have hfirst : first ∈ factors.filter fun factor => !(factor != 0) :=
      hzeros ▸ List.mem_cons_self
    obtain rfl : first = 0 := by simpa using (List.mem_filter.1 hfirst).2
    exact List.append_nil _

/-- The value is the product or the ceiling, whichever is less. -/
theorem value_times {count : Count} {n : Nat} (h : count.value = min n ceiling) (factor : Nat) :
    (count.times factor).value = min (n * factor) ceiling := by
  have htimes : (count.times factor).value = min (count.value * factor) ceiling := by
    unfold times
    split
    · rename_i hle
      exact (Nat.min_eq_left hle).symm
    · rename_i hlt
      exact (Nat.min_eq_right (Nat.le_of_not_le hlt)).symm
  rw [htimes, h]
  obtain rfl | hpos := Nat.eq_zero_or_pos factor
  · rfl
  · rw [← Nat.mul_min_mul_right, Nat.min_assoc,
      Nat.min_eq_right (Nat.le_mul_of_pos_right ceiling hpos)]

theorem value_foldl_times (factors : List Nat) {count : Count} {n : Nat}
    (h : count.value = min n ceiling) :
    (factors.foldl times count).value = min (n * factors.prod) ceiling := by
  induction factors generalizing count n with
  | nil => rw [List.foldl_nil, List.prod_nil, Nat.mul_one, h]
  | cons factor rest ih =>
    rw [List.foldl_cons, ih (value_times h factor), List.prod_cons, Nat.mul_assoc]

theorem foldl_times_of_value_zero (factors : List Nat) (saturated : Bool) :
    factors.foldl times ⟨0, saturated⟩ = ⟨0, saturated⟩ := by
  induction factors with
  | nil => rfl
  | cons factor rest ih =>
    have hzero : (⟨0, saturated⟩ : Count).times factor = ⟨0, saturated⟩ := by
      rw [times_of_le (by rw [Nat.zero_mul]; exact Nat.zero_le _), Nat.zero_mul]
    rw [List.foldl_cons, hzero, ih]

theorem saturated_clamp (n : Nat) : (clamp n).saturated = decide (ceiling < n) := by
  obtain hlt | hle := Nat.lt_or_ge ceiling n
  · rw [clamp_of_lt hlt, decide_eq_true hlt]
  · rw [clamp_of_le hle, decide_eq_false (Nat.not_lt.2 hle)]
    rfl

/-- The flag is set by the factors before the first zero. After that the value stays zero. -/
theorem saturated_foldl_times (factors : List Nat) (n : Nat) :
    (factors.foldl times (clamp n)).saturated = decide (ceiling < n * (lead factors).prod) := by
  induction factors generalizing n with
  | nil => rw [List.foldl_nil, saturated_clamp, lead, List.takeWhile_nil, List.prod_nil, Nat.mul_one]
  | cons factor rest ih =>
    obtain rfl | hpos := Nat.eq_zero_or_pos factor
    · have hzero : (clamp n).times 0 = ⟨0, (clamp n).saturated⟩ := times_of_le (Nat.zero_le _)
      have hlead : lead (0 :: rest) = [] := rfl
      rw [List.foldl_cons, hzero, foldl_times_of_value_zero, saturated_clamp, hlead, List.prod_nil,
        Nat.mul_one]
    · rw [List.foldl_cons, times_clamp hpos, ih, lead_cons hpos, List.prod_cons, Nat.mul_assoc]

/-- A count with the right value is faithful if its flag is. -/
theorem faithful_iff_of_value {count : Count} {n : Nat} (h : count.value = min n ceiling) :
    count.Faithful n ↔ (count.saturated = true ↔ ceiling < n) := by
  refine ⟨Faithful.saturated_iff, fun hflag => ⟨hflag, fun hexact => ?_, fun hsaturated => ?_⟩⟩
  · have hle : n ≤ ceiling := Nat.not_lt.1 fun hlt => by simp [hflag.2 hlt] at hexact
    rw [h, Nat.min_eq_left hle]
  · rw [h, Nat.min_eq_right (Nat.le_of_lt (hflag.1 hsaturated))]

theorem eq_of_value_of_saturated {count count' : Count} (hvalue : count.value = count'.value)
    (hsaturated : count.saturated = count'.saturated) : count = count' := by
  obtain ⟨value, saturated⟩ := count
  obtain rfl : value = count'.value := hvalue
  obtain rfl : saturated = count'.saturated := hsaturated
  rfl

section

variable {n : Nat} (h : n ≤ ceiling)

include h

theorem value_foldl_exact (factors : List Nat) :
    (factors.foldl times (exact n)).value = min (n * factors.prod) ceiling :=
  value_foldl_times factors (Nat.min_eq_left h).symm

theorem saturated_foldl_exact (factors : List Nat) :
    (factors.foldl times (exact n)).saturated =
      decide (ceiling < n * (lead factors).prod) := by
  rw [← saturated_foldl_times, clamp_of_le h]

/-- With a zero in front the ceiling is not passed. -/
theorem saturated_cons_zero (factors : List Nat) :
    ((0 :: factors).foldl times (exact n)).saturated = false := by
  have hlead : lead (0 :: factors) = [] := rfl
  rw [saturated_foldl_exact h, hlead, List.prod_nil, Nat.mul_one]
  exact decide_eq_false (Nat.not_lt.2 h)

/-- If the factors that are not zero do not pass the ceiling, those before a zero do not either. -/
theorem saturated_of_nonzero_le {factors : List Nat}
    (hsmall : n * (nonzero factors).prod ≤ ceiling) :
    (factors.foldl times (exact n)).saturated = false := by
  rw [saturated_foldl_exact h]
  exact decide_eq_false (Nat.not_lt.2 ((Nat.mul_le_mul_left n (prod_lead_le factors)).trans hsmall))

/-- The flag is the same in every order if there is no zero, or if the other factors do not pass the
ceiling. -/
theorem saturated_of_perm {factors factors' : List Nat} (hperm : factors'.Perm factors)
    (hsmall : 0 ∈ factors → n * (nonzero factors).prod ≤ ceiling) :
    (factors'.foldl times (exact n)).saturated = (factors.foldl times (exact n)).saturated := by
  by_cases hzero : 0 ∈ factors
  · have hle := hsmall hzero
    rw [saturated_of_nonzero_le h hle]
    rw [← prod_nonzero_of_perm hperm] at hle
    exact saturated_of_nonzero_le h hle
  · have hzero' : 0 ∉ factors' := fun hmem => hzero (hperm.mem_iff.1 hmem)
    rw [saturated_foldl_exact h, saturated_foldl_exact h, lead_of_not_mem hzero,
      lead_of_not_mem hzero', hperm.prod_eq]

end

/-- What multiplying by some factors makes of a number. -/
structure Multiplied (n : Nat) (factors : List Nat) : Prop where
  /-- The value is the product or the ceiling, whichever is less. -/
  value : (factors.foldl times (exact n)).value = min (n * factors.prod) ceiling
  /-- The flag is up to the factors before the first zero. -/
  saturated_iff : (factors.foldl times (exact n)).saturated = true ↔
    ceiling < n * (lead factors).prod
  /-- The count is faithful unless it passes the ceiling on the way to a zero. -/
  faithful_iff : (factors.foldl times (exact n)).Faithful (n * factors.prod) ↔
    (0 ∈ factors → n * (lead factors).prod ≤ ceiling)
  /-- The order of the factors does not matter unless that happens in one of the orders. -/
  order_iff : (∀ factors' : List Nat, factors'.Perm factors →
      factors'.foldl times (exact n) = factors.foldl times (exact n)) ↔
    (0 ∈ factors → n * (nonzero factors).prod ≤ ceiling)

theorem multiplied {n : Nat} (h : n ≤ ceiling) (factors : List Nat) : Multiplied n factors := by
  have hflag : (factors.foldl times (exact n)).saturated = true ↔
      ceiling < n * (lead factors).prod := by
    rw [saturated_foldl_exact h, decide_eq_true_iff]
  refine ⟨value_foldl_exact h factors, hflag, ?_, ?_⟩
  · rw [faithful_iff_of_value (value_foldl_exact h factors), hflag]
    by_cases hzero : 0 ∈ factors
    · rw [List.prod_eq_zero hzero, Nat.mul_zero, imp_iff_right hzero, ← Nat.not_lt,
        iff_false_right (Nat.not_lt_zero ceiling)]
    · rw [lead_of_not_mem hzero]
      exact iff_of_true Iff.rfl (absurd · hzero)
  · constructor
    · intro hsame hzero
      -- With the zeros last the flag would be up, with a zero in front it is not.
      have hfirst := saturated_cons_zero h (factors.erase 0)
      rw [hsame _ (List.perm_cons_erase hzero).symm, ← hsame _ (zerosLast_perm factors),
        saturated_foldl_exact h, lead_zerosLast, decide_eq_false_iff_not] at hfirst
      exact Nat.not_lt.1 hfirst
    · intro hsmall factors' hperm
      refine eq_of_value_of_saturated ?_ (saturated_of_perm h hperm hsmall)
      rw [value_foldl_exact h, value_foldl_exact h, hperm.prod_eq]

/-- Twice the ceiling and then nothing: the count shows a flag and a zero. -/
theorem multiplied_ceiling :
    ceiling ≤ ceiling ∧ Multiplied ceiling [2, 0] ∧
      [2, 0].foldl times (exact ceiling) = ⟨0, true⟩ :=
  ⟨Nat.le_refl _, multiplied (Nat.le_refl _) [2, 0], by decide⟩

/-- A count that passed the ceiling does not come back from it with a zero, and with the zero in
front it would not have passed it. -/
theorem not_faithful_after_zero :
    ¬ ([2, 0].foldl times (exact ceiling)).Faithful (ceiling * [2, 0].prod) ∧
      [2, 0].foldl times (exact ceiling) ≠ [0, 2].foldl times (exact ceiling) := by
  refine ⟨fun h => ?_, by decide⟩
  have hvalue := h.value_ceiling (by decide)
  exact absurd hvalue (by decide)

end Count

namespace Pattern

/-- The product of the alphabet sizes, without a ceiling. -/
def size (p : Pattern) : Nat :=
  (p.map Segment.radix).prod

@[simp] theorem size_nil : size [] = 1 := rfl

@[simp] theorem size_cons (s : Segment) (p : Pattern) : size (s :: p) = s.radix * size p := by
  simp [size]

/-- The count of a pattern is that of its size. -/
theorem count_eq_clamp (p : Pattern) : p.count = Count.clamp p.size := by
  have hradix : ∀ f ∈ p.map Segment.radix, 0 < f := by
    intro f hf
    obtain ⟨s, -, rfl⟩ := List.mem_map.1 hf
    exact s.radix_pos
  have hfold : p.count = (p.map Segment.radix).foldl Count.times (Count.clamp 1) := by
    rw [List.foldl_map]
    rfl
  rw [hfold, Count.foldl_times_clamp _ hradix, Nat.one_mul, size]

/-- A pattern has an exact value if its size is below the ceiling. -/
theorem value?_count (p : Pattern) :
    p.count.value? = if p.size ≤ Count.ceiling then some p.size else none := by
  rw [count_eq_clamp, Count.value?_clamp]

end Pattern

end NameHunt
