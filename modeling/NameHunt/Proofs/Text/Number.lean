import Mathlib
import NameHunt.Text.Number

/-!
# Unsigned numbers

The reading of a number goes through its digits once and keeps a running value. The value is that
of the digits in the positional system, and nothing is read but digits with an optional plus sign.

* `Numeral`, `numeralValue`: one or more digits, and the number they stand for.
* `digitsValue_eq`: the running value is this number.
* `Unsigned`: a numeral with an optional plus sign.
* `readUnsigned?_eq_some_iff`: these are the texts that are read, up to the bound.
-/

namespace NameHunt.Text

/-- One or more ASCII digits. -/
structure Numeral (digits : List Char) : Prop where
  ne_nil : digits ≠ []
  digit : ∀ c ∈ digits, c ∈ Set.Icc '0' '9'

/-- The number that digits stand for in the decimal system. -/
def numeralValue (digits : List Char) : Nat :=
  Nat.ofDigits 10 (digits.reverse.map fun c => c.toNat - '0'.toNat)

/-- A numeral with an optional plus sign, and its number. -/
inductive Unsigned : List Char → Nat → Prop
  | bare {digits : List Char} (h : Numeral digits) : Unsigned digits (numeralValue digits)
  | plus {digits : List Char} (h : Numeral digits) : Unsigned ('+' :: digits) (numeralValue digits)

theorem digitsValue_eq (digits : List Char) : digitsValue digits = numeralValue digits := by
  rw [numeralValue, Nat.ofDigits_eq_foldr, List.foldr_map, List.foldr_reverse]
  simp only [digitsValue, Nat.cast_id, Nat.add_comm]

theorem mem_digits_iff {c : Char} : c ∈ Set.Icc '0' '9' ↔ c.isDigit = true := by
  simp only [Char.isDigit, Set.mem_Icc, Char.le_def, Bool.and_eq_true, decide_eq_true_eq]

theorem readDigits?_eq_some_iff {s : List Char} {n : Nat} :
    readDigits? s = some n ↔ Numeral s ∧ n = numeralValue s := by
  unfold readDigits?
  constructor
  · intro h
    split at h
    · cases h
    · rename_i hne
      split at h
      · rename_i hall
        refine ⟨⟨by simpa using hne, fun c hc => ?_⟩, ?_⟩
        · exact mem_digits_iff.2 (List.all_eq_true.1 hall c hc)
        · rw [← digitsValue_eq]
          exact (Option.some.inj h).symm
      · cases h
  · rintro ⟨hs, rfl⟩
    have hall : s.all Char.isDigit = true :=
      List.all_eq_true.2 fun c hc => mem_digits_iff.1 (hs.digit c hc)
    rw [if_neg (by simpa using hs.ne_nil), if_pos hall, digitsValue_eq]

/-- What is left without a plus sign in front is a numeral exactly if the text is an unsigned
number. -/
theorem readDigits?_dropPlus {s : List Char} {n : Nat} :
    readDigits? (dropPlus s) = some n ↔ Unsigned s n := by
  constructor
  · intro h
    obtain ⟨hnumeral, rfl⟩ := readDigits?_eq_some_iff.1 h
    unfold dropPlus at hnumeral ⊢
    split at hnumeral
    · exact .plus hnumeral
    · exact .bare hnumeral
  · intro h
    refine readDigits?_eq_some_iff.2 ?_
    cases h with
    | plus h => exact ⟨h, rfl⟩
    | bare h =>
      suffices hdrop : dropPlus s = s by rw [hdrop]; exact ⟨h, rfl⟩
      unfold dropPlus
      split
      · -- a numeral does not start with a plus sign
        exact absurd (h.digit '+' List.mem_cons_self) (by decide)
      · rfl

theorem readUnsigned?_eq (bound : Nat) (s : List Char) :
    readUnsigned? bound s = (readDigits? (dropPlus s)).filter (· ≤ bound) := by
  unfold readUnsigned?
  cases readDigits? (dropPlus s) with
  | none => rfl
  | some n => simp [Option.filter_some]

/-- A smaller bound only takes numbers away. -/
theorem readUnsigned?_eq_filter {bound larger : Nat} (h : bound ≤ larger) (s : List Char) :
    readUnsigned? bound s = (readUnsigned? larger s).filter (· ≤ bound) := by
  rw [readUnsigned?_eq, readUnsigned?_eq, Option.filter_filter]
  congr 1
  funext n
  simp only [← Bool.decide_and, decide_eq_decide]
  omega

theorem readUnsigned?_of_unsigned {s : List Char} {n : Nat} (h : Unsigned s n) (bound : Nat) :
    readUnsigned? bound s = if n ≤ bound then some n else none := by
  rw [readUnsigned?_eq, readDigits?_dropPlus.2 h, Option.filter_some]
  simp only [decide_eq_true_eq]

theorem readUnsigned?_eq_some_iff {bound n : Nat} {s : List Char} :
    readUnsigned? bound s = some n ↔ Unsigned s n ∧ n ≤ bound := by
  rw [readUnsigned?_eq, Option.filter_eq_some_iff, readDigits?_dropPlus, decide_eq_true_eq]

/-! ### The characters of a number -/

theorem Unsigned.chars {s : List Char} {n : Nat} (h : Unsigned s n) :
    ∀ c ∈ s, c = '+' ∨ c ∈ Set.Icc '0' '9' := by
  intro c hc
  cases h with
  | bare h => exact .inr (h.digit c hc)
  | plus h =>
    rcases List.mem_cons.1 hc with rfl | hc
    · exact .inl rfl
    · exact .inr (h.digit c hc)

/-- From the plus sign to the digit nine there is no blank and no letter. -/
theorem Unsigned.range {s : List Char} {n : Nat} (h : Unsigned s n) :
    ∀ c ∈ s, 0x2B ≤ c.toNat ∧ c.toNat ≤ 0x39 := by
  intro c hc
  rcases h.chars c hc with rfl | hdigit
  · decide
  · have hrange := Char.isDigit_iff_toNat.1 (mem_digits_iff.1 hdigit)
    have hzero : '0'.toNat = 0x30 := rfl
    have hnine : '9'.toNat = 0x39 := rfl
    omega

end NameHunt.Text
