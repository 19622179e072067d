import NameHunt.Analysis
import NameHunt.Permutation
import NameHunt.Random.Shuffle

/-!
# Generating names

The combinations of a pattern are numbered; a number in mixed radix, first segment least
significant, spells a name. The numbers are visited in a random order, each once. A spelling that
is no name is passed over.

* `spell`: the name of a number.
* `Order`: the order of the numbers, as a list or as a permutation.
* `Generator`: a pattern, an order, and how far it was followed.
* `Generator.create`: a generator for a pattern; fails if its numbers cannot be ordered.
* `Generator.next`, `Generator.take`: the names still to come.
-/

namespace NameHunt

/-- Whether a character may not come next after the ones in `out` (newest first): a digit or a
hyphen at the front, or a hyphen after a hyphen. -/
def clashes (out : List Char) (c : Char) : Bool :=
  (out.isEmpty && (c == '-' || c.isDigit)) || (c == '-' && out.head? == some '-')

/-- The characters of a number after the ones in `out` (newest first). Literals are not checked
character by character. -/
def spellFrom : Pattern → Nat → List Char → Option (List Char)
  | [], _, out => if out.head? == some '-' then none else some out.reverse
  | .literal text :: rest, index, out => spellFrom rest index (text.reverse ++ out)
  | .choice token :: rest, index, out =>
    match token.alphabet[index % token.alphabet.length]? with
    | none => none
    | some c =>
      if clashes out c then none
      else spellFrom rest (index / token.alphabet.length) (c :: out)

/-- The name of a number, unless it starts or ends with a hyphen, starts with a digit that is no
literal, or doubles a hyphen. -/
def spell (p : Pattern) (index : Nat) : Option String :=
  (spellFrom p index []).map String.ofList

/-- In which order the numbers are visited. -/
inductive Order where
  | listed (indices : Array Nat)
  | keyed (permutation : Permutation)
  deriving Repr, DecidableEq

namespace Order

/-- How many numbers there are. -/
def size : Order → Nat
  | listed indices => indices.size
  | keyed permutation => permutation.size

/-- The number at a place of the order. -/
def index : Order → Nat → Nat
  | listed indices, place => indices.getD place 0
  | keyed permutation, place => permutation.apply place

end Order

/-- How the order is chosen. -/
inductive Strategy where
  /-- A list up to `Strategy.listLimit` numbers, a permutation above. -/
  | auto
  | shuffle
  | permute
  deriving Repr, DecidableEq

/-- The longest list that is made without being asked for. -/
def Strategy.listLimit : Nat := 1048576

/-- Whether the order is a list. -/
def Strategy.lists (strategy : Strategy) (total : Nat) : Bool :=
  match strategy with
  | .auto => total ≤ Strategy.listLimit
  | .shuffle => true
  | .permute => false

/-- The names of a pattern in some order. -/
structure Generator where
  pattern : Pattern
  order : Order
  /-- How many numbers were visited, whether they spelled a name or not. -/
  visited : Nat
  deriving Repr, DecidableEq

namespace Generator

/-- How many numbers are visited in all. A pattern without segments has none. -/
def indexCount (p : Pattern) (combinations : Nat) : Nat :=
  if p.isEmpty then 0 else combinations

/-- A generator in random order. A pattern is too large if its count passed the ceiling, or if a
list of its numbers is asked for and they do not fit 32 bits. -/
def create (p : Pattern) (strategy : Strategy) (words : Words) :
    Except Error (Generator × Words) :=
  match p.count.value? with
  | none => .error (.patternTooLarge p.describe)
  | some combinations =>
    let total := indexCount p combinations
    if strategy.lists total then
      if total ≤ Text.max32 then
        let (indices, words) := words.shuffle (Array.range total)
        .ok (⟨p, .listed indices, 0⟩, words)
      else .error (.patternTooLarge p.describe)
    else
      let (permutation, words) := Permutation.ofWords total words
      .ok (⟨p, .keyed permutation, 0⟩, words)

/-- How many numbers are visited in all. -/
def total (g : Generator) : Nat := g.order.size

/-- How many numbers are still to be visited. -/
def remaining (g : Generator) : Nat := g.total - g.visited

/-- An upper bound of the names to come, if it fits 64 bits. -/
def upperBound? (g : Generator) : Option Nat :=
  if g.remaining ≤ Text.max64 then some g.remaining else none

/-- One number further. -/
def advance (g : Generator) : Generator :=
  { g with visited := g.visited + 1 }

/-- The next name. Numbers that spell none are visited on the way. -/
def next (g : Generator) : Option String × Generator :=
  if _h : g.visited < g.order.size then
    match spell g.pattern (g.order.index g.visited) with
    | some name => (some name, g.advance)
    | none => next g.advance
  else (none, g)
termination_by g.order.size - g.visited
decreasing_by simp only [advance]; omega

/-- The next names up to a number, after the ones in `seen` (newest first). -/
def takeAfter (seen : List String) : Nat → Generator → List String × Generator
  | 0, g => (seen.reverse, g)
  | n + 1, g =>
    match g.next with
    | (some name, g) => takeAfter (name :: seen) n g
    | (none, g) => (seen.reverse, g)

/-- Up to `n` names. -/
def take (n : Nat) (g : Generator) : List String × Generator :=
  takeAfter [] n g

/-- A generator that found a name has come further, and no further than the end. -/
theorem next_some {g g' : Generator} {name : String} (h : g.next = (some name, g')) :
    g'.order = g.order ∧ g'.pattern = g.pattern ∧ g.visited < g'.visited ∧
      g'.visited ≤ g.order.size := by
  fun_induction next g with
  | case1 g hlt found hfound =>
    obtain ⟨-, rfl⟩ := Prod.mk.inj h
    exact ⟨rfl, rfl, Nat.lt_succ_self _, hlt⟩
  | case2 g hlt hspell ih =>
    obtain ⟨horder, hpattern, hbefore, hafter⟩ := ih h
    exact ⟨horder, hpattern, Nat.lt_trans (Nat.lt_succ_self _) hbefore, hafter⟩
  | case3 g hge => simp at h

/-- A generator that found none has come to the end. -/
theorem next_none {g g' : Generator} (h : g.next = (none, g')) (hle : g.visited ≤ g.order.size) :
    g'.visited = g.order.size := by
  fun_induction next g with
  | case1 g hlt found hfound => simp at h
  | case2 g hlt hspell ih => exact ih h hlt
  | case3 g hge =>
    obtain ⟨-, rfl⟩ := Prod.mk.inj h
    exact Nat.le_antisymm hle (Nat.not_lt.1 hge)

/-- With every name found there is less to come. -/
theorem remaining_lt_of_next {g g' : Generator} {name : String}
    (h : g.next = (some name, g')) : g'.remaining < g.remaining := by
  obtain ⟨horder, -, hbefore, hafter⟩ := next_some h
  simp only [remaining, total, horder]
  omega

end Generator

end NameHunt
