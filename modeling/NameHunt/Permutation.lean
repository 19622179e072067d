import NameHunt.Random.Words

/-!
# Keyed permutations of an index range

A Feistel network shuffles the numbers of twice as many bits as each half has. It is repeated until
the number falls into the range, which makes it a permutation of the range and needs no memory.

* `Permutation`: the size of the range and the keys of the rounds.
* `Permutation.halfBits`: the width of a half, the smallest with which two halves cover the range.
* `Permutation.encrypt`: one pass of the network.
* `Permutation.apply`: passes until the range is met.
-/

namespace NameHunt

/-- A permutation of the numbers below `size`. -/
structure Permutation where
  size : Nat
  keys : List UInt64
  deriving Repr, DecidableEq

namespace Permutation

/-- How many rounds a pass has. -/
def rounds : Nat := 6

/-- One key for each round. -/
def ofWords (size : Nat) (words : Words) : Permutation × Words :=
  let (keys, words) := words.take rounds
  (⟨size, keys⟩, words)

/-- How many binary digits a number has. -/
def bitLength (n : Nat) : Nat :=
  if n = 0 then 0 else n.log2 + 1

/-- Half of the bits of the largest index, rounded up, and at least one. -/
def halfBits (size : Nat) : Nat :=
  (max 2 (bitLength (size - 1)) + 1) / 2

/-- A number in two halves. -/
structure Halves where
  left : Nat
  right : Nat
  deriving Repr, DecidableEq

/-- A round exchanges the halves and mixes the right one, with the key, into the left one. -/
def round (bits : Nat) (halves : Halves) (key : UInt64) : Halves where
  left := halves.right
  right := halves.left ^^^ ((scramble (UInt64.ofNat halves.right ^^^ key)).toNat % (1 <<< bits))

/-- The halves of a number. -/
def split (bits n : Nat) : Halves :=
  ⟨(n >>> bits) % (1 <<< bits), n % (1 <<< bits)⟩

/-- The number of two halves. -/
def join (bits : Nat) (halves : Halves) : Nat :=
  halves.left <<< bits + halves.right

/-- One pass through all rounds. -/
def encrypt (p : Permutation) (n : Nat) : Nat :=
  let bits := halfBits p.size
  join bits (p.keys.foldl (round bits) (split bits n))

/-- The first pass result inside the range; `fuel` bounds the passes. -/
def walk (p : Permutation) : Nat → Nat → Nat
  | 0, n => n
  | fuel + 1, n =>
    let next := p.encrypt n
    if next < p.size then next else walk p fuel next

/-- How many numbers the network permutes. -/
def domain (p : Permutation) : Nat :=
  1 <<< (2 * halfBits p.size)

/-- Where an index goes. A pass permutes the whole domain, so after as many passes as it has numbers
the walk has come around and met the range. -/
def apply (p : Permutation) (index : Nat) : Nat :=
  p.walk p.domain index

end Permutation

end NameHunt
