import NameHunt.Generator

/-!
# Candidate domains

The domains of an analysis are its names under each of its extensions, name by name. They are made
one at a time, because there may be very many.

* `isCandidate`: which names are used at all.
* `Candidates`: the domains still to come.
* `Candidates.next?`: the next domain.
* `Candidates.toList`: all of them.
-/

namespace NameHunt

/-- A name starts neither with a digit nor with a hyphen and does not end with a hyphen. -/
def isCandidate (name : List Char) : Bool :=
  match name with
  | [] => false
  | first :: _ => first != '-' && !first.isDigit && name.getLast? != some '-'

/-- The domains still to come: those of the names of a generator, and before them the newest name
under the extensions that are left. -/
structure Candidates where
  generator : Generator
  extensions : List String
  base : String
  pending : List String
  deriving Repr, DecidableEq

namespace Candidates

/-- The domains of an analysis in random order. -/
def ofAnalysis (analysis : Analysis) (words : Words) : Except Error (Candidates × Words) :=
  match Generator.create analysis.segments .auto words with
  | .ok (generator, words) => .ok (⟨generator, analysis.extensions, "", []⟩, words)
  | .error error => .error error

/-- The next name that is a candidate. -/
def nextBase (g : Generator) : Option (String × Generator) :=
  match _h : g.next with
  | (some name, g') => if isCandidate name.toList then some (name, g') else nextBase g'
  | (none, _) => none
termination_by g.remaining
decreasing_by exact Generator.remaining_lt_of_next _h

theorem remaining_lt_of_nextBase {g g' : Generator} {name : String}
    (h : nextBase g = some (name, g')) : g'.remaining < g.remaining := by
  fun_induction nextBase g with
  | case1 g found next hnext hcandidate =>
    obtain ⟨-, rfl⟩ := Prod.mk.inj (Option.some.inj h)
    exact Generator.remaining_lt_of_next hnext
  | case2 g found next hnext hcandidate ih =>
    exact Nat.lt_trans (ih h) (Generator.remaining_lt_of_next hnext)
  | case3 g next hnext => simp at h

/-- The next domain. -/
def next? (c : Candidates) : Option (String × Candidates) :=
  match c.pending, c.extensions with
  | extension :: rest, _ => some (c.base ++ extension, { c with pending := rest })
  | [], [] => none
  | [], extension :: rest =>
    match nextBase c.generator with
    | some (base, generator) =>
      some (base ++ extension, { c with generator := generator, base := base, pending := rest })
    | none => none

/-- An upper bound of the domains to come. -/
def room (c : Candidates) : Nat :=
  c.generator.remaining * c.extensions.length + c.pending.length

theorem room_lt_of_next? {c c' : Candidates} {domain : String}
    (h : c.next? = some (domain, c')) : c'.room < c.room := by
  unfold next? at h
  split at h
  · rename_i extension rest _ hpending
    obtain ⟨-, rfl⟩ := Prod.mk.inj (Option.some.inj h)
    simp [room, hpending]
  · simp at h
  · rename_i extension rest hpending hextensions
    split at h
    · rename_i base generator hbase
      obtain ⟨-, rfl⟩ := Prod.mk.inj (Option.some.inj h)
      have hlt := remaining_lt_of_nextBase hbase
      have := Nat.mul_le_mul_right (rest.length + 1) hlt
      simp only [room, hpending, hextensions, List.length_cons, List.length_nil]
      rw [Nat.succ_mul] at this
      omega
    · simp at h

/-- All domains to come, in order. -/
def toList (c : Candidates) : List String :=
  match _h : c.next? with
  | some (domain, c') => domain :: toList c'
  | none => []
termination_by c.room
decreasing_by exact room_lt_of_next? _h

theorem toList_of_next? {c c' : Candidates} {domain : String}
    (h : c.next? = some (domain, c')) : c.toList = domain :: c'.toList := by
  rw [toList]
  split
  · rename_i d c'' hnext
    rw [h] at hnext
    obtain ⟨rfl, rfl⟩ := Prod.mk.inj (Option.some.inj hnext)
    rfl
  · rename_i hnext
    simp [h] at hnext

theorem toList_of_next?_none {c : Candidates} (h : c.next? = none) : c.toList = [] := by
  rw [toList]
  split
  · rename_i hnext
    simp [h] at hnext
  · rfl

/-- The domains to come put on an array, for lists too long for the stack. -/
def pushAll (seen : Array String) (c : Candidates) : Array String :=
  match _h : c.next? with
  | some (domain, c') => pushAll (seen.push domain) c'
  | none => seen
termination_by c.room
decreasing_by exact room_lt_of_next? _h

/-- All domains to come, in order, as an array. -/
def toArray (c : Candidates) : Array String :=
  c.pushAll #[]

theorem toList_pushAll (seen : Array String) (c : Candidates) :
    (c.pushAll seen).toList = seen.toList ++ c.toList := by
  fun_induction pushAll seen c with
  | case1 seen c domain rest hnext ih =>
    rw [ih, toList_of_next? hnext, Array.toList_push, List.append_assoc]
    rfl
  | case2 seen c hnext => rw [toList_of_next?_none hnext, List.append_nil]

theorem toList_toArray (c : Candidates) : c.toArray.toList = c.toList := by
  simp [toArray, toList_pushAll]

end Candidates

end NameHunt
