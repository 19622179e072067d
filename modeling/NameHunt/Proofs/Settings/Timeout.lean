import NameHunt.Proofs.Text.LowerCase
import NameHunt.Proofs.Text.Number
import NameHunt.Proofs.Text.Padding
import NameHunt.Settings.Timeout

/-!
# Timeouts in words

A timeout is written as a number of seconds or of minutes: an optional plus sign, digits, and the
letter of the unit, small or capital; a number alone is one of seconds. The reading lower-cases the
text as a whole before it looks for the letter. Lower-casing makes no sign, no digit and neither of
the two letters out of anything but ASCII, so the texts that come to be of this form are those that
were. What is read is the true number of seconds, or nothing where it is zero or too large.

* `TimeUnit`: the units, their lengths and their endings.
* `Timeout.Amount`: a number of units as it is written.
* `Timeout.amount_lower`: lower-casing makes amounts of amounts alone.
* `Timeout.read?_of_amount`, `Timeout.exists_amount_of_read?`: what is read of an amount, and that
  nothing else is read.
* `Timeout.Understood`, `Timeout.understood`: what is read of any text.
-/

namespace NameHunt

/-- The units of time that a timeout can be written in. -/
inductive TimeUnit where
  | second
  | minute

namespace TimeUnit

/-- The length of a unit in seconds. -/
def seconds : TimeUnit → Nat
  | second => 1
  | minute => 60

/-- What may follow a number of units. -/
def endings : TimeUnit → List (List Char)
  | second => [[], ['s'], ['S']]
  | minute => [['m'], ['M']]

/-- The endings in small letters. -/
def smallEndings : TimeUnit → List (List Char)
  | second => [[], ['s']]
  | minute => [['m']]

theorem seconds_pos (unit : TimeUnit) : 0 < unit.seconds := by
  cases unit <;> decide

theorem length_le_one {unit : TimeUnit} {ending : List Char} (h : ending ∈ unit.endings) :
    ending.length ≤ 1 := by
  have hall : ∀ e ∈ unit.endings, e.length ≤ 1 := by cases unit <;> decide
  exact hall ending h

theorem isAlpha_of_mem {unit : TimeUnit} {ending : List Char} (h : ending ∈ unit.endings) :
    ∀ c ∈ ending, c.isAlpha = true := by
  have hall : ∀ e ∈ unit.endings, e.all Char.isAlpha = true := by cases unit <;> decide
  exact List.all_eq_true.1 (hall ending h)

theorem native_of_mem {unit : TimeUnit} {ending : List Char} (h : ending ∈ unit.smallEndings) :
    ∀ c ∈ ending, Text.Native c := by
  intro c hc
  have hall : ∀ e ∈ unit.smallEndings, e.all (fun d => d == 's' || d == 'm') = true := by
    cases unit <;> decide
  have hletter : c = 's' ∨ c = 'm' := by
    simpa using List.all_eq_true.1 (hall ending h) c hc
  rcases hletter with rfl | rfl
  · exact ⟨by decide, by decide, by decide⟩
  · exact ⟨by decide, by decide, by decide⟩

/-- The endings are what has a small ending for its small form. -/
theorem map_toLower_mem_iff {unit : TimeUnit} {ending : List Char} :
    ending.map Char.toLower ∈ unit.smallEndings ↔ ending ∈ unit.endings := by
  constructor
  · intro h
    have hletter : ∀ d : Char, ending.map Char.toLower = [d] →
        ending = [d] ∨ ending = [d.toUpper] := by
      intro d hd
      obtain ⟨c, rfl, hc⟩ := List.map_eq_singleton_iff.1 hd
      rcases Text.eq_or_eq_toUpper_of_toLower hc with rfl | rfl
      · exact .inl rfl
      · exact .inr rfl
    cases unit with
    | second =>
      rcases List.mem_pair.1 h with hnil | hs
      · rw [List.map_eq_nil_iff.1 hnil]
        decide
      · rcases hletter 's' hs with rfl | rfl <;> decide
    | minute =>
      rcases hletter 'm' (List.mem_singleton.1 h) with rfl | rfl <;> decide
  · intro h
    have hall : ∀ e ∈ unit.endings, e.map Char.toLower ∈ unit.smallEndings := by
      cases unit <;> decide
    exact hall ending h

end TimeUnit

namespace Timeout

open Text (Unsigned Padded Tidy)

/-- A text is a number and one of some endings. -/
def Amount (endings : List (List Char)) (text : List Char) (number : Nat) : Prop :=
  ∃ count, ∃ ending ∈ endings, text = count ++ ending ∧ Unsigned count number

/-- A text stands for `n` seconds: it is a number of units, the number and the seconds have 64 bits,
and there is no timeout of zero seconds. -/
def Denotes (text : List Char) (n : Nat) : Prop :=
  ∃ unit : TimeUnit, ∃ number, Amount unit.endings text number ∧ number < 2 ^ 64 ∧
    n = number * unit.seconds ∧ n < 2 ^ 64 ∧ 1 ≤ n

/-! ### The characters of an amount -/

/-- A number has no letters. -/
theorem caseless_of_mem_count {count : List Char} {number : Nat} (h : Unsigned count number) :
    ∀ c ∈ count, c.isUpper = false ∧ c.isLower = false := by
  intro c hc
  have hrange := h.range c hc
  rw [← Bool.not_eq_true, ← Bool.not_eq_true, Text.isUpper_iff, Text.isLower_iff]
  omega

theorem native_of_mem_count {count : List Char} {number : Nat} (h : Unsigned count number) :
    ∀ c ∈ count, Text.Native c := by
  intro c hc
  have hrange := h.range c hc
  have hi : 'i'.toNat = 0x69 := rfl
  have hk : 'k'.toNat = 0x6B := rfl
  constructor
  · omega
  · intro heq
    rw [heq] at hrange
    omega
  · intro heq
    rw [heq] at hrange
    omega

section

variable {unit : TimeUnit} {text : List Char} {number : Nat}

theorem native_of_mem_amount (h : Amount unit.smallEndings text number) :
    ∀ c ∈ text, Text.Native c := by
  obtain ⟨count, ending, hending, rfl, hcount⟩ := h
  intro c hc
  rcases List.mem_append.1 hc with hc | hc
  · exact native_of_mem_count hcount c hc
  · exact TimeUnit.native_of_mem hending c hc

theorem Amount.range (h : Amount unit.endings text number) :
    ∀ c ∈ text, 0x20 < c.toNat ∧ c.toNat < 0x80 := by
  obtain ⟨count, ending, hending, rfl, hcount⟩ := h
  intro c hc
  rcases List.mem_append.1 hc with hc | hc
  · have hrange := hcount.range c hc
    omega
  · have halpha := TimeUnit.isAlpha_of_mem hending c hc
    rw [Char.isAlpha, Bool.or_eq_true, Text.isUpper_iff, Text.isLower_iff] at halpha
    omega

/-- No blank stands in an amount. -/
theorem Amount.tidy (h : Amount unit.endings text number) : Tidy text := by
  refine Text.tidy_of_not_blank fun c hc => ?_
  obtain ⟨hlow, hhigh⟩ := h.range c hc
  exact Text.isBlank_of_range hlow hhigh

/-- The last character of an amount may be a letter, the one before it is part of the number. -/
theorem Amount.chars_of_suffix (h : Amount unit.endings text number) {a b : Char}
    (hsuffix : [a, b] <:+ text) : a = '+' ∨ a ∈ Set.Icc '0' '9' := by
  obtain ⟨count, ending, hending, rfl, hcount⟩ := h
  obtain ⟨front, hfront⟩ := hsuffix
  rw [List.append_cons] at hfront
  have ha : a ∈ count := by
    rcases ending with _ | ⟨c, rest⟩
    · rw [List.append_nil] at hfront
      rw [← hfront]
      simp
    · have hrest : rest = [] := by
        have hlength := TimeUnit.length_le_one hending
        rw [List.length_cons] at hlength
        exact List.eq_nil_of_length_eq_zero (by omega)
      subst hrest
      rw [← (List.append_inj' hfront rfl).1]
      simp
  exact hcount.chars a ha

/-! ### Lower-casing -/

/-- An amount in small letters comes from the same amount in letters of either case. -/
theorem amount_lower :
    Amount unit.smallEndings (Text.lower text) number ↔ Amount unit.endings text number := by
  constructor
  · intro h
    -- nothing outside ASCII can have left an amount, so each character is lower-cased on its own
    have hascii := Text.ascii_of_lower (native_of_mem_amount h)
    obtain ⟨count, ending, hending, htext, hcount⟩ := h
    rw [Text.lower_of_ascii hascii] at htext
    obtain ⟨front, back, rfl, hfront, hback⟩ := List.map_eq_append_iff.1 htext
    obtain rfl := Text.eq_of_map_toLower (fun c hc => (caseless_of_mem_count hcount c hc).2) hfront
    exact ⟨front, back, TimeUnit.map_toLower_mem_iff.1 (hback ▸ hending), rfl, hcount⟩
  · intro h
    have hascii : ∀ c ∈ text, c.toNat < 0x80 := fun c hc => (h.range c hc).2
    obtain ⟨count, ending, hending, rfl, hcount⟩ := h
    refine ⟨count, ending.map Char.toLower, TimeUnit.map_toLower_mem_iff.2 hending, ?_, hcount⟩
    rw [Text.lower_of_ascii hascii, List.map_append,
      Text.map_toLower_eq_self fun c hc => (caseless_of_mem_count hcount c hc).1]

end

/-! ### Reading -/

theorem readSmall?_of_unsigned {s : List Char} {number : Nat} (h : Unsigned s number) :
    readSmall? s = Text.readUnsigned? Text.max64 s := by
  unfold readSmall?
  split
  · rename_i hlast
    exact absurd (h.range 's' (List.mem_of_getLast? hlast)) (by decide)
  · rename_i hlast
    exact absurd (h.range 'm' (List.mem_of_getLast? hlast)) (by decide)
  · rfl

theorem readSmall?_of_amount {unit : TimeUnit} {s : List Char} {number : Nat}
    (h : Amount unit.smallEndings s number) :
    readSmall? s =
      if number * unit.seconds ≤ Text.max64 then some (number * unit.seconds) else none := by
  obtain ⟨count, ending, hending, rfl, hcount⟩ := h
  have hread := Text.readUnsigned?_of_unsigned hcount Text.max64
  cases unit with
  | second =>
    show _ = if number * 1 ≤ Text.max64 then some (number * 1) else none
    rw [Nat.mul_one, ← hread]
    rcases List.mem_pair.1 hending with rfl | rfl
    · rw [List.append_nil, readSmall?_of_unsigned hcount]
    · simp [readSmall?]
  | minute =>
    obtain rfl := List.mem_singleton.1 hending
    have hsmall : readSmall? (count ++ ['m']) =
        (Text.readUnsigned? Text.max64 count).bind ofMinutes? := by
      simp [readSmall?]
    show _ = ofMinutes? number
    rw [hsmall, hread]
    by_cases hnumber : number ≤ Text.max64
    · rw [if_pos hnumber, Option.bind_some]
    · -- the product is at least the number, so it is too large as well
      rw [if_neg hnumber, Option.bind_none, ofMinutes?, if_neg (by omega)]

theorem exists_amount_of_readSmall? {s : List Char} {n : Nat} (h : readSmall? s = some n) :
    ∃ unit : TimeUnit, ∃ number, Amount unit.smallEndings s number := by
  unfold readSmall? at h
  split at h
  · rename_i hlast
    refine ⟨.second, n, s.dropLast, ['s'], by decide, ?_, (Text.readUnsigned?_eq_some_iff.1 h).1⟩
    exact (List.dropLast_append_getLast? 's' hlast).symm
  · rename_i hlast
    obtain ⟨number, hread, -⟩ := Option.bind_eq_some_iff.1 h
    refine ⟨.minute, number, s.dropLast, ['m'], by decide, ?_,
      (Text.readUnsigned?_eq_some_iff.1 hread).1⟩
    exact (List.dropLast_append_getLast? 'm' hlast).symm
  · exact ⟨.second, n, s, [], by decide, (List.append_nil s).symm,
      (Text.readUnsigned?_eq_some_iff.1 h).1⟩

/-- Of an amount the true number of seconds is read, if it is not zero and has 64 bits. -/
theorem read?_of_amount {s : String} {text : List Char} {unit : TimeUnit} {number : Nat}
    (hpadded : Padded text s.toList) (h : Amount unit.endings text number) :
    read? s =
      if 1 ≤ number * unit.seconds ∧ number * unit.seconds < 2 ^ 64 then
        some (number * unit.seconds)
      else none := by
  have htrim : Text.trim s.toList = text := hpadded.trim_eq.trans h.tidy.trim_eq
  rw [read?, htrim, readSmall?_of_amount (amount_lower.2 h)]
  have hmax : Text.max64 = 2 ^ 64 - 1 := rfl
  by_cases hle : number * unit.seconds ≤ Text.max64
  · rw [if_pos hle, Option.filter_some]
    simp only [decide_eq_true_eq]
    congr 1
    rw [eq_iff_iff]
    omega
  · rw [if_neg hle, if_neg (by omega), Option.filter_none]

/-- Nothing is read of a text that is no amount. -/
theorem exists_amount_of_read? {s : String} {n : Nat} (h : read? s = some n) :
    ∃ unit : TimeUnit, ∃ number, Amount unit.endings (Text.trim s.toList) number := by
  obtain ⟨hread, -⟩ := Option.filter_eq_some_iff.1 h
  obtain ⟨unit, number, hamount⟩ := exists_amount_of_readSmall? hread
  exact ⟨unit, number, amount_lower.1 hamount⟩

theorem read?_eq_some_iff {s : String} {n : Nat} :
    read? s = some n ↔ ∃ text, Padded text s.toList ∧ Denotes text n := by
  constructor
  · intro h
    obtain ⟨unit, number, hamount⟩ := exists_amount_of_read? h
    have hpadded := Text.padded_trim s.toList
    rw [read?_of_amount hpadded hamount] at h
    obtain ⟨⟨hpos, hlt⟩, hn⟩ := Option.ite_none_right_eq_some.1 h
    obtain rfl := Option.some.inj hn
    have hle : number ≤ number * unit.seconds := Nat.le_mul_of_pos_right number unit.seconds_pos
    exact ⟨_, hpadded, unit, number, hamount, by omega, rfl, hlt, hpos⟩
  · intro h
    obtain ⟨text, hpadded, unit, number, hamount, -, rfl, hlt, hpos⟩ := h
    rw [read?_of_amount hpadded hamount, if_pos ⟨hpos, hlt⟩]

/-- What is read of a text as a timeout. -/
structure Understood (s : String) : Prop where
  some_iff : ∀ n, read? s = some n ↔ ∃ text, Padded text s.toList ∧ Denotes text n
  none_iff : read? s = none ↔ ∀ text n, Padded text s.toList → ¬ Denotes text n
  ne_zero : read? s ≠ some 0
  /-- The product of an amount is not wrapped around: it is read as it is or not at all. -/
  product : ∀ text (unit : TimeUnit) number, Padded text s.toList →
    Amount unit.endings text number → read? s =
      if 1 ≤ number * unit.seconds ∧ number * unit.seconds < 2 ^ 64 then
        some (number * unit.seconds)
      else none
  /-- Only a sign and digits stand before the last character, so there is no second letter. -/
  one_letter : ∀ a b, a ≠ '+' → a ∉ Set.Icc '0' '9' → [a, b] <:+ Text.trim s.toList →
    read? s = none

/-- What is read of a text is what the grammar of timeouts says of it. -/
theorem understood (s : String) : Understood s where
  some_iff := fun n => read?_eq_some_iff
  none_iff := by
    rw [Option.eq_none_iff_forall_ne_some]
    constructor
    · intro h text n hpadded hdenotes
      exact h n (read?_eq_some_iff.2 ⟨text, hpadded, hdenotes⟩)
    · intro h n hread
      obtain ⟨text, hpadded, hdenotes⟩ := read?_eq_some_iff.1 hread
      exact h text n hpadded hdenotes
  ne_zero := by
    intro h
    obtain ⟨text, -, unit, number, -, -, -, -, hpos⟩ := read?_eq_some_iff.1 h
    omega
  product := fun text unit number hpadded hamount => read?_of_amount hpadded hamount
  one_letter := by
    intro a b hplus hdigit hsuffix
    refine Option.eq_none_iff_forall_ne_some.2 fun n hread => ?_
    obtain ⟨unit, number, hamount⟩ := exists_amount_of_read? hread
    exact (hamount.chars_of_suffix hsuffix).elim hplus hdigit

/-- Capitals and blanks make no difference, and the product is the last that has 64 bits. -/
example : read? " +307445734561825860M\u3000" = some 18446744073709551600 := by decide

/-- The product is too large, there are two letters, and the sign of the kelvin is lower-cased. -/
example : ["307445734561825861m", "5ms", "0s", "5\u212A"].map read? = [none, none, none, none] := by
  decide

end Timeout

end NameHunt
