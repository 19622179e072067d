import NameHunt.Hunt.State
import NameHunt.Report

/-!
# What a hunt would look up

* `Preview`: the domains that were found, in order, and what else was found on the way.
* `Preview.ofEntries`: the domains of the entries that the cache does not know, up to a limit.
-/

namespace NameHunt

/-- Something that is found on the way. -/
inductive Sight where
  | rejected (pattern : String) (error : Error)
  | domain (name : String)
  deriving Repr, DecidableEq

/-- What was found, newest first. -/
structure Preview where
  sights : List Sight := []
  /-- The entries that were looked into. -/
  valid : Nat := 0
  /-- The domains that were found. -/
  found : Nat := 0
  /-- The domains that the cache knows. -/
  skipped : Nat := 0
  deriving Repr, DecidableEq

namespace Preview

/-- The preview with one more domain, which the cache may know. -/
def add (p : Preview) (cache : Cache) (domain : String) : Preview :=
  if cache.test domain then { p with skipped := p.skipped + 1 }
  else { p with sights := .domain domain :: p.sights, found := p.found + 1 }

/-- The preview with the domains of one entry, up to the limit. -/
def addDomains (limit : Nat) (cache : Cache) (p : Preview) (source : Candidates) : Preview :=
  match _h : source.next? with
  | none => p
  | some (domain, source') =>
    if limit ≤ p.found then p else addDomains limit cache (p.add cache domain) source'
termination_by source.room
decreasing_by exact Candidates.room_lt_of_next? _h

/-- The preview with more entries. No entry is looked into after the limit was reached. The words
give the order of the domains, by the number of entries that come after. -/
def addEntries (limit : Nat) (cache : Cache) (words : Nat → Words) :
    Preview → List Entry → Preview
  | p, [] => p
  | p, entry :: rest =>
    if limit ≤ p.found then p
    else
      match Hunt.examine entry (words rest.length) with
      | .ok (_, source) =>
        addEntries limit cache words
          (addDomains limit cache { p with valid := p.valid + 1 } source) rest
      | .error error =>
        addEntries limit cache words
          { p with sights := .rejected entry.pattern error :: p.sights } rest

/-- The limit that is no limit. -/
def noLimit : Nat := Text.max64

/-- The preview of some entries. -/
def ofEntries (limit : Option Nat) (cache : Cache) (words : Nat → Words) (entries : List Entry) :
    Preview :=
  addEntries (limit.getD noLimit) cache words {} entries

/-- What is printed about a sight. A domain is quoted for programs. -/
def printSight (json : Bool) : Sight → Line
  | .rejected pattern error => Report.rejected pattern error
  | .domain name => Report.toOutput (if json then (Document.text name).json else name)

/-- What is printed about all sights. -/
def lines (json : Bool) (p : Preview) : List Line :=
  (p.sights.map (printSight json)).reverse

/-- The totals of a preview. -/
def total (p : Preview) : Line :=
  Report.toErrors
    (toString p.found ++ " domains would be checked (" ++ toString p.skipped ++
      " already in cache)")

end Preview

end NameHunt
