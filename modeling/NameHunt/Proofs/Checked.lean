import NameHunt.Proofs.Generator

/-!
# Generating names within 128 bits

The arithmetic behind a generator, with every operation checked: a sum or a shift that leaves the
128 bits, a difference below zero, a division by zero, an access past the end of a list, or a walk
that does not end stops the computation with a `Trap`. Numbers below a size of 128 bits never do,
so the checked computations give the results of the unchecked ones.

* `Trap`: what can go wrong.
* `Checked.encrypt_eq`, `Checked.apply_eq`: a pass of the network, and a walk.
* `Checked.spell_eq`: the name of a number.
-/

namespace NameHunt

/-- What stops a checked computation. -/
inductive Trap where
  | overflow
  | underflow
  | zeroDivisor
  | outOfRange
  | endless
  deriving Repr, DecidableEq

namespace Checked

/-! ### Operations -/

/-- A number, if it has 128 bits at most. -/
def fit (n : Nat) : Except Trap Nat :=
  if n < 2 ^ 128 then .ok n else .error .overflow

def add (a b : Nat) : Except Trap Nat :=
  fit (a + b)

def sub (a b : Nat) : Except Trap Nat :=
  if b ≤ a then .ok (a - b) else .error .underflow

def div (a b : Nat) : Except Trap Nat :=
  if b = 0 then .error .zeroDivisor else .ok (a / b)

def mod (a b : Nat) : Except Trap Nat :=
  if b = 0 then .error .zeroDivisor else .ok (a % b)

/-- No bits may be lost on the left. -/
def shiftLeft (a bits : Nat) : Except Trap Nat :=
  if bits < 128 then fit (a <<< bits) else .error .overflow

def shiftRight (a bits : Nat) : Except Trap Nat :=
  if bits < 128 then .ok (a >>> bits) else .error .overflow

/-- A number as a word, if it has 64 bits at most. -/
def toWord (n : Nat) : Except Trap UInt64 :=
  if n < 2 ^ 64 then .ok (UInt64.ofNat n) else .error .overflow

def entry {α : Type} (l : List α) (place : Nat) : Except Trap α :=
  match l[place]? with
  | some a => .ok a
  | none => .error .outOfRange

theorem fit_eq {n : Nat} (h : n < 2 ^ 128) : fit n = .ok n :=
  if_pos h

theorem add_eq {a b : Nat} (h : a + b < 2 ^ 128) : add a b = .ok (a + b) :=
  fit_eq h

theorem eq_of_add {a b c : Nat} (h : add a b = .ok c) : c = a + b := by
  rw [add, fit] at h
  split at h
  · exact (Except.ok.inj h).symm
  · cases h

theorem sub_eq {a b : Nat} (h : b ≤ a) : sub a b = .ok (a - b) :=
  if_pos h

theorem div_eq {a b : Nat} (h : 0 < b) : div a b = .ok (a / b) :=
  if_neg (Nat.ne_of_gt h)

theorem mod_eq {a b : Nat} (h : 0 < b) : mod a b = .ok (a % b) :=
  if_neg (Nat.ne_of_gt h)

theorem shiftLeft_eq {a bits : Nat} (hbits : bits < 128) (h : a <<< bits < 2 ^ 128) :
    shiftLeft a bits = .ok (a <<< bits) := by
  rw [shiftLeft, if_pos hbits, fit_eq h]

theorem shiftRight_eq {bits : Nat} (a : Nat) (hbits : bits < 128) :
    shiftRight a bits = .ok (a >>> bits) :=
  if_pos hbits

theorem toWord_eq {n : Nat} (h : n < 2 ^ 64) : toWord n = .ok (UInt64.ofNat n) :=
  if_pos h

theorem entry_eq {α : Type} {l : List α} {place : Nat} {a : α} (h : l[place]? = some a) :
    entry l place = .ok a := by
  rw [entry, h]

/-! ### The network -/

open Permutation (Halves InDomain halfBits)

/-- The bits of a half. -/
def mask (bits : Nat) : Except Trap Nat := do
  if 64 ≤ bits then return 2 ^ 64 - 1
  else
    let power ← shiftLeft 1 bits
    sub power 1

theorem mask_eq {bits : Nat} (h : bits ≤ 64) : mask bits = .ok (2 ^ bits - 1) := by
  rw [mask]
  split
  · rename_i hle
    rw [Nat.le_antisymm h hle]
    rfl
  · have hpower : 1 <<< bits < 2 ^ 128 := by
      rw [Nat.one_shiftLeft]
      exact Nat.pow_lt_pow_right (by decide) (by omega)
    rw [shiftLeft_eq (by omega) hpower, Nat.one_shiftLeft]
    exact sub_eq (Nat.two_pow_pos bits)

/-- A round, with the mask of a half. -/
def round (mask : Nat) (halves : Halves) (key : UInt64) : Except Trap Halves := do
  let right ← toWord halves.right
  let mixed := (scramble (right ^^^ key)).toNat &&& mask
  return ⟨halves.right, halves.left ^^^ mixed⟩

theorem round_eq {bits : Nat} (hbits : bits ≤ 64) {halves : Halves} (h : InDomain bits halves)
    (key : UInt64) : round (2 ^ bits - 1) halves key = .ok (Permutation.round bits halves key) := by
  have hword : halves.right < 2 ^ 64 :=
    Nat.lt_of_lt_of_le h.2 (Nat.pow_le_pow_right (by decide) hbits)
  rw [round, toWord_eq hword]
  simp only [Permutation.round, Nat.and_two_pow_sub_one_eq_mod, Nat.one_shiftLeft]
  rfl

/-- The halves stay in the domain from round to round. -/
theorem foldlM_round_eq {bits : Nat} (hbits : bits ≤ 64) (keys : List UInt64) {halves : Halves}
    (h : InDomain bits halves) :
    keys.foldlM (round (2 ^ bits - 1)) halves =
      .ok (keys.foldl (Permutation.round bits) halves) := by
  induction keys generalizing halves with
  | nil => rfl
  | cons key rest ih =>
    rw [List.foldlM_cons, round_eq hbits h]
    exact ih (Permutation.inDomain_round h key)

theorem shiftLeft_lt {bits : Nat} (hbits : bits ≤ 64) {halves : Halves} (h : InDomain bits halves) :
    halves.left <<< bits < 2 ^ 128 := by
  have hjoin : halves.left <<< bits + halves.right < 2 ^ (2 * bits) := Permutation.join_lt h
  have hpower : 2 ^ (2 * bits) ≤ 2 ^ 128 := Nat.pow_le_pow_right (by decide) (by omega)
  omega

/-- One pass through all rounds. -/
def encrypt (p : Permutation) (n : Nat) : Except Trap Nat := do
  let bits := halfBits p.size
  let mask ← mask bits
  let high ← shiftRight n bits
  let halves ← p.keys.foldlM (round mask) ⟨high &&& mask, n &&& mask⟩
  let left ← shiftLeft halves.left bits
  return left ||| halves.right

variable {p : Permutation}

theorem encrypt_eq (hsize : p.size < 2 ^ 128) (n : Nat) : encrypt p n = .ok (p.encrypt n) := by
  have hbits : halfBits p.size ≤ 64 := Permutation.halfBits_le (Nat.le_of_lt hsize)
  have hsplit := Permutation.inDomain_split (halfBits p.size) n
  have hdomain := Permutation.inDomain_foldl_round p.keys hsplit
  have hhalves : (⟨(n >>> halfBits p.size) &&& (2 ^ halfBits p.size - 1),
      n &&& (2 ^ halfBits p.size - 1)⟩ : Halves) = Permutation.split (halfBits p.size) n := by
    simp only [Permutation.split, Nat.and_two_pow_sub_one_eq_mod, Nat.one_shiftLeft]
  have hleft := shiftLeft_lt hbits hdomain
  show (mask (halfBits p.size) >>= _) = _
  rw [mask_eq hbits]
  show (shiftRight n (halfBits p.size) >>= _) = _
  rw [shiftRight_eq n (by omega)]
  show (p.keys.foldlM (round (2 ^ halfBits p.size - 1)) _ >>= _) = _
  rw [hhalves, foldlM_round_eq hbits p.keys hsplit]
  show (shiftLeft _ (halfBits p.size) >>= _) = _
  rw [shiftLeft_eq (by omega) hleft]
  show Except.ok (_ ||| _) = Except.ok (_ + _)
  rw [Nat.shiftLeft_add_eq_or_of_lt hdomain.2]

/-- Passes until the range is met; `fuel` bounds them. -/
def walk (p : Permutation) : Nat → Nat → Except Trap Nat
  | 0, _ => .error .endless
  | fuel + 1, n => do
    let next ← encrypt p n
    if next < p.size then return next else walk p fuel next

theorem walk_eq (hsize : p.size < 2 ^ 128) {k n m : Nat} (h : p.Passes k (p.encrypt n) m)
    {fuel : Nat} (hfuel : k < fuel) : walk p fuel n = .ok m := by
  -- On the fuel, which outlasts the passes that are left.
  induction fuel generalizing k n with
  | zero => omega
  | succ fuel ih =>
    show (encrypt p n >>= _) = _
    rw [encrypt_eq hsize]
    show (if p.encrypt n < p.size then Except.ok (p.encrypt n) else walk p fuel (p.encrypt n)) = _
    cases h with
    | inside hlt => rw [if_pos hlt]
    | outside hle rest => rw [if_neg (Nat.not_lt.2 hle), ih rest (by omega)]

/-- Where an index goes. -/
def apply (p : Permutation) (n : Nat) : Except Trap Nat :=
  walk p p.domain n

theorem apply_eq (hsize : p.size < 2 ^ 128) {n : Nat} (hn : n < p.size) :
    apply p n = .ok (p.apply n) := by
  obtain ⟨k, hk, hpasses⟩ := Permutation.passes_apply hn
  exact walk_eq hsize hpasses hk

/-! ### Spelling -/

/-- The characters of a number after the ones in `out` (newest first). -/
def spellFrom : Pattern → Nat → List Char → Except Trap (Option (List Char))
  | [], _, out => .ok (if out.head? == some '-' then none else some out.reverse)
  | segment :: rest, index, out => do
    let digit ← mod index segment.alphabet.length
    let index ← div index segment.alphabet.length
    let piece ← entry segment.alphabet digit
    match segment, piece with
    | .choice _, [] => return none
    | .choice _, c :: _ =>
      if clashes out c then return none else spellFrom rest index (piece.reverse ++ out)
    | .literal _, _ => spellFrom rest index (piece.reverse ++ out)

theorem spellFrom_eq (p : Pattern) (index : Nat) (out : List Char) :
    spellFrom p index out = .ok (NameHunt.spellFrom p index out) := by
  induction p generalizing index out with
  | nil => rfl
  | cons segment rest ih =>
    have hpos : 0 < segment.alphabet.length := by
      rw [Segment.length_alphabet]
      exact segment.radix_pos
    show (mod index segment.alphabet.length >>= _) = _
    rw [mod_eq hpos]
    show (div index segment.alphabet.length >>= _) = _
    rw [div_eq hpos]
    show (entry segment.alphabet (index % segment.alphabet.length) >>= _) = _
    cases segment with
    | literal text =>
      have hpiece : entry [text] (index % 1) = .ok text := entry_eq (by rw [Nat.mod_one]; rfl)
      show (entry [text] (index % 1) >>= _) = _
      rw [hpiece]
      show spellFrom rest (index / 1) (text.reverse ++ out) = _
      rw [Nat.div_one, ih]
      rfl
    | choice token =>
      have hlength : (Segment.choice token).alphabet.length = token.alphabet.length :=
        List.length_map _
      obtain ⟨c, hdigit, -⟩ := Pattern.textAt_choice token rest index
      have hpiece : entry (Segment.choice token).alphabet (index % token.alphabet.length) =
          .ok [c] := by
        refine entry_eq ?_
        rw [Segment.alphabet, List.getElem?_map, hdigit]
        rfl
      rw [hlength, hpiece, NameHunt.spellFrom, hdigit]
      show (if clashes out c = true then Except.ok none
        else spellFrom rest (index / token.alphabet.length) (c :: out)) =
          Except.ok (if clashes out c = true then none
            else NameHunt.spellFrom rest (index / token.alphabet.length) (c :: out))
      split
      · rfl
      · exact ih _ _

/-- The name of a number. -/
def spell (p : Pattern) (index : Nat) : Except Trap (Option String) := do
  let text ← spellFrom p index []
  return text.map String.ofList

theorem spell_eq (p : Pattern) (index : Nat) : spell p index = .ok (NameHunt.spell p index) := by
  rw [spell, spellFrom_eq]
  rfl

end Checked

end NameHunt
