import NameHunt.Text.CaseTable

/-!
# Lower-casing

Full lower-casing of a text. All letters are mapped one by one except two: a capital I with a dot
becomes a small i and a combining dot, and a capital sigma becomes a final sigma where it ends a
word.

* `lowerChar`: the small form of one character.
* `isFinalSigma`: a cased letter stands before, none stands after; ignorable characters are passed
  over.
* `lower`: the small form of a text.
-/

namespace NameHunt.Text

/-- Whether a code point lies in one of the runs. -/
def inRuns (runs : List (Nat × Nat)) (n : Nat) : Bool :=
  runs.any fun run => run.1 ≤ n && n ≤ run.2

/-- The small letter at the same place of the run, if the run reaches the code point. -/
def CaseRun.lower? (run : CaseRun) (n : Nat) : Option Nat :=
  if run.first ≤ n && n ≤ run.last && (n - run.first) % run.stride == 0 then
    some (run.lower + (n - run.first))
  else none

/-- The small form of a character that is not in final position. -/
def lowerChar (c : Char) : List Char :=
  if c.toNat < 0x80 then [c.toLower]
  else if c.toNat = 0x130 then ['i', Char.ofNat 0x307]
  else
    match lowerRuns.findSome? (·.lower? c.toNat) with
    | some n => [Char.ofNat n]
    | none => [c]

/-- Whether the first character that is not passed over has a case. -/
def facesCased (s : List Char) : Bool :=
  match s.dropWhile (fun c => inRuns ignorableRuns c.toNat) with
  | [] => false
  | c :: _ => inRuns casedRuns c.toNat

/-- A sigma between `before` (nearest first) and `after` ends a word. -/
def isFinalSigma (before after : List Char) : Bool :=
  facesCased before && !facesCased after

/-- The small form of a text that follows `before` (nearest first). -/
def lowerAfter (before : List Char) : List Char → List Char
  | [] => []
  | c :: rest =>
    let small :=
      if c.toNat = 0x3A3 then [Char.ofNat (if isFinalSigma before rest then 0x3C2 else 0x3C3)]
      else lowerChar c
    small ++ lowerAfter (c :: before) rest

/-- The small form of a text. -/
def lower (s : List Char) : List Char :=
  lowerAfter [] s

end NameHunt.Text
