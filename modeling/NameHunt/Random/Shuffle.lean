import NameHunt.Random.Words

/-!
# Shuffling

* `Words.below`: a number below a range, each equally likely.
* `Words.shuffle`: an array in random order, by exchanges from the back.
-/

namespace NameHunt.Words

/-- How many values a half of a word has. -/
def halfRange : Nat := 0x100000000

/-- The largest lower half of a product that is kept: the range moved left until it fills 32 bits,
less one. -/
def zone (range : Nat) : Nat :=
  range <<< (31 - range.log2) - 1

/-- How many words are tried before one is taken as it comes. -/
def patience : Nat := 0x100000000

/-- The upper half of the product of the range and the upper half of a word. A product whose lower
half lies outside the zone is thrown away, which makes all numbers equally likely. -/
def belowWithin (range : Nat) : Nat → Words → Nat × Words
  | 0, words => (0, words)
  | tries + 1, words =>
    let (word, words) := words.next
    let product := (word >>> 32).toNat * range
    if product % halfRange ≤ zone range then (product / halfRange, words)
    else belowWithin range tries words

/-- A number below a range of at most 32 bits. -/
def below (range : Nat) (words : Words) : Nat × Words :=
  belowWithin range patience words

/-- The exchanges for the places from `i` down to one. -/
def shuffleFrom {α : Type} : Nat → Array α → Words → Array α × Words
  | 0, items, words => (items, words)
  | i + 1, items, words =>
    let (j, words) := words.below (i + 2)
    shuffleFrom i (items.swapIfInBounds (i + 1) j) words

/-- An array in random order. -/
def shuffle {α : Type} (items : Array α) (words : Words) : Array α × Words :=
  shuffleFrom (items.size - 1) items words

theorem below_lt (range : Nat) (h : 0 < range) (words : Words) : (words.below range).1 < range := by
  suffices ∀ tries words, (belowWithin range tries words).1 < range from this _ _
  intro tries
  induction tries with
  | zero => intro words; exact h
  | succ tries ih =>
    intro words
    simp only [belowWithin]
    split
    · have hword : ((words.next).1 >>> 32).toNat < halfRange := by
        have := (words.next).1.toNat_lt
        simp only [UInt64.toNat_shiftRight, UInt64.reduceToNat, Nat.shiftRight_eq_div_pow,
          Nat.reduceMod, Nat.reducePow, halfRange]
        omega
      rw [Nat.div_lt_iff_lt_mul (by decide)]
      have := Nat.mul_lt_mul_of_pos_right hword h
      rw [Nat.mul_comm range]
      exact this
    · exact ih _

end NameHunt.Words
