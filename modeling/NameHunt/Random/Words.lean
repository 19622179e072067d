/-!
# Random words

* `Words`: an endless row of 64-bit words with a reading position.
* `Words.next`: the next word.
* `scramble`: the step of the SplitMix64 generator from a state to its word.
* `Words.ofSeed`: some given words, then the words of SplitMix64 from a seed.
-/

namespace NameHunt

/-- An endless row of words and how many were read. -/
structure Words where
  word : Nat → UInt64
  position : Nat

/-- The amount by which SplitMix64 moves its state. -/
def stride : UInt64 := 0x9E3779B97F4A7C15

/-- The word that SplitMix64 makes from the state before a step. -/
def scramble (state : UInt64) : UInt64 :=
  let z := state + stride
  let z := (z ^^^ (z >>> 30)) * 0xBF58476D1CE4E5B9
  let z := (z ^^^ (z >>> 27)) * 0x94D049BB133111EB
  z ^^^ (z >>> 31)

namespace Words

/-- The next word and the rest of the row. -/
def next (words : Words) : UInt64 × Words :=
  (words.word words.position, { words with position := words.position + 1 })

/-- The next `n` words. -/
def take : Nat → Words → List UInt64 × Words
  | 0, words => ([], words)
  | n + 1, words =>
    let (first, words) := words.next
    let (others, words) := take n words
    (first :: others, words)

/-- The given words, then those of SplitMix64 from a seed. -/
def ofSeed (given : Array UInt64) (seed : UInt64) : Words where
  word i := if h : i < given.size then given[i] else
    scramble (seed + stride * UInt64.ofNat (i - given.size))
  position := 0

theorem length_take (n : Nat) (words : Words) : (words.take n).1.length = n := by
  induction n generalizing words with
  | zero => rfl
  | succ n ih => simp [take, ih]

end Words

end NameHunt
