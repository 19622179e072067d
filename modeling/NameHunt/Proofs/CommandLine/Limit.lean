import NameHunt.CommandLine.Session
import NameHunt.Proofs.Hunt.Repeats
import NameHunt.Proofs.Hunt.Resume

/-!
# Dry runs up to a limit

A dry run looks at the entries one after the other and stops as soon as it has printed as many
domains as the limit allows. So it prints the first of the domains that the cache does not know. It
fails if it has looked into no entry: all of them have faults, or the limit is zero and it stopped
before the first one.

* `Preview.domains`, `Preview.rejections`: what a preview shows.
* `Preview.sights_ofEntries`: it shows what there is until the limit is reached.
* `output_dryRun`, `errors_dryRun`: what a dry run prints of its preview.
* `Preview.valid_addEntries_eq_zero_iff`: when no entry was looked into.
* `Limited`: what a dry run with a limit prints, and when it fails.
* `dryRun_limited`: every dry run does so.
-/

namespace NameHunt

open Hunt

/-- The domain that is shown. -/
def Sight.domain? : Sight → Option String
  | domain name => some name
  | rejected _ _ => none

/-- The entry that is shown to be left out, and why. -/
def Sight.rejection? : Sight → Option (String × Error)
  | domain _ => none
  | rejected pattern error => some (pattern, error)

namespace Hunt

/-- Why an entry is left out, if it is. -/
def rejectionOf (words : Words) (entry : Entry) : Option (String × Error) :=
  match examine entry words with
  | .ok _ => none
  | .error error => some (entry.pattern, error)

theorem rejectionOf_eq (words words' : Words) (entry : Entry) :
    rejectionOf words entry = rejectionOf words' entry := by
  unfold rejectionOf
  cases hexamine : examine entry words with
  | error error => rw [examine_error hexamine words']
  | ok found =>
    cases hexamine' : examine entry words' with
    | error error =>
      rw [examine_error hexamine' words] at hexamine
      cases hexamine
    | ok found' => rfl

end Hunt

namespace Preview

variable {cache : Cache} {words : Nat → Words} {limit : Nat}

/-- The domains that a preview shows, in order. -/
def domains (p : Preview) : List String :=
  p.sights.reverse.filterMap Sight.domain?

/-- The entries that a preview shows to be left out, in order. -/
def rejections (p : Preview) : List (String × Error) :=
  p.sights.reverse.filterMap Sight.rejection?

/-- What is shown of an entry. -/
def shown (cache : Cache) (words : Words) (entry : Entry) : List Sight :=
  match examine entry words with
  | .ok (_, source) => (source.toList.filter fun domain => !cache.test domain).map .domain
  | .error error => [.rejected entry.pattern error]

/-- What is shown of some entries, one after the other. -/
def shownAll (cache : Cache) (words : Nat → Words) : List Entry → List Sight
  | [] => []
  | entry :: rest => shown cache (words rest.length) entry ++ shownAll cache words rest

theorem filterMap_domain_shown (cache : Cache) (words : Words) (entry : Entry) :
    (shown cache words entry).filterMap Sight.domain? =
      (domainsOf words entry).filter fun domain => !cache.test domain := by
  unfold shown domainsOf
  cases examine entry words with
  | error error => rfl
  | ok found =>
    rw [List.filterMap_map]
    exact List.filterMap_some

theorem filterMap_rejection_shown (cache : Cache) (words : Words) (entry : Entry) :
    (shown cache words entry).filterMap Sight.rejection? = (rejectionOf words entry).toList := by
  unfold shown rejectionOf
  cases examine entry words with
  | error error => rfl
  | ok found =>
    rw [List.filterMap_map, Option.toList_none, List.filterMap_eq_nil_iff]
    exact fun domain _ => rfl

/-- The domains of some entries that the cache does not know, entry after entry. -/
def unknown (cache : Cache) (words : Nat → Words) : List Entry → List String
  | [] => []
  | entry :: rest =>
    ((domainsOf (words rest.length) entry).filter fun domain => !cache.test domain) ++
      unknown cache words rest

theorem filterMap_domain_shownAll (cache : Cache) (words : Nat → Words) (entries : List Entry) :
    (shownAll cache words entries).filterMap Sight.domain? = unknown cache words entries := by
  induction entries with
  | nil => rfl
  | cons entry rest ih =>
    rw [shownAll, List.filterMap_append, filterMap_domain_shown, ih, unknown]

theorem filterMap_rejection_shownAll (w : Words) (cache : Cache) (words : Nat → Words)
    (entries : List Entry) :
    (shownAll cache words entries).filterMap Sight.rejection? =
      entries.filterMap (rejectionOf w) := by
  induction entries with
  | nil => rfl
  | cons entry rest ih =>
    rw [shownAll, List.filterMap_append, filterMap_rejection_shown, ih, rejectionOf_eq _ w,
      List.filterMap_cons]
    cases rejectionOf w entry <;> rfl

/-- The words decide on nothing but the order of the domains. -/
theorem unknown_perm (w : Words) (cache : Cache) (words : Nat → Words) (entries : List Entry) :
    (unknown cache words entries).Perm
      ((entries.flatMap (domainsOf w)).filter fun domain => !cache.test domain) := by
  induction entries with
  | nil => exact List.Perm.refl _
  | cons entry rest ih =>
    rw [unknown, List.flatMap_cons, List.filter_append]
    exact ((domainsOf_perm _ w entry).filter _).append ih

/-! ### Up to a limit -/

/-- What is seen until a number of domains is reached. -/
def upTo : Nat → List Sight → List Sight
  | 0, _ => []
  | _ + 1, [] => []
  | n + 1, .domain name :: rest => .domain name :: upTo n rest
  | n + 1, .rejected pattern error :: rest => .rejected pattern error :: upTo (n + 1) rest

theorem upTo_zero (sights : List Sight) : upTo 0 sights = [] := by
  cases sights <;> rfl

theorem upTo_nil (n : Nat) : upTo n [] = [] := by
  cases n <;> rfl

theorem upTo_map_domain_append (n : Nat) (names : List String) (rest : List Sight) :
    upTo n (names.map .domain ++ rest) =
      (names.take n).map .domain ++ upTo (n - names.length) rest := by
  induction names generalizing n with
  | nil => simp
  | cons name names ih =>
    cases n with
    | zero => simp [upTo_zero]
    | succ n =>
      have hroom : n + 1 - (name :: names).length = n - names.length := by
        rw [List.length_cons]
        omega
      rw [hroom]
      show Sight.domain name :: upTo n (names.map .domain ++ rest) = _
      rw [ih]
      rfl

theorem filterMap_domain_upTo (n : Nat) (sights : List Sight) :
    (upTo n sights).filterMap Sight.domain? = (sights.filterMap Sight.domain?).take n := by
  fun_induction upTo n sights with
  | case1 sights => rfl
  | case2 n => rfl
  | case3 n name rest ih =>
    show name :: (upTo n rest).filterMap Sight.domain? = _
    rw [ih]
    rfl
  | case4 n pattern error rest ih => exact ih

/-- A limit that is not reached does not matter. -/
theorem upTo_of_lt {n : Nat} {sights : List Sight}
    (h : (sights.filterMap Sight.domain?).length < n) : upTo n sights = sights := by
  fun_induction upTo n sights with
  | case1 sights => exact absurd h (Nat.not_lt_zero _)
  | case2 n => rfl
  | case3 n name rest ih =>
    have hrest : (rest.filterMap Sight.domain?).length + 1 < n + 1 := h
    rw [ih (Nat.lt_of_succ_lt_succ hrest)]
  | case4 n pattern error rest ih => rw [ih h]

/-- The domains of an entry are looked at until the limit is reached. -/
theorem sights_addDomains (limit : Nat) (cache : Cache) (p : Preview) (source : Candidates) :
    let names := source.toList.filter fun domain => !cache.test domain
    (addDomains limit cache p source).sights =
        ((names.take (limit - p.found)).map Sight.domain).reverse ++ p.sights ∧
      (addDomains limit cache p source).found = p.found + min (limit - p.found) names.length := by
  fun_induction addDomains limit cache p source with
  | case1 p source hnext =>
    rw [Candidates.toList_of_next?_none hnext]
    exact ⟨by simp, by simp⟩
  | case2 p source domain source' hnext hfull =>
    rw [Nat.sub_eq_zero_of_le hfull]
    exact ⟨by simp, by simp⟩
  | case3 p source domain source' hnext hfree ih =>
    rw [Candidates.toList_of_next? hnext]
    obtain ⟨hsights, hfound⟩ := ih
    rw [hsights, hfound]
    by_cases hknown : cache.test domain = true
    · have hadd : p.add cache domain = { p with skipped := p.skipped + 1 } := if_pos hknown
      have hnames (rest : List String) : (domain :: rest).filter (fun d => !cache.test d) =
          rest.filter fun d => !cache.test d := List.filter_cons_of_neg (by simp [hknown])
      rw [hadd, hnames]
      exact ⟨rfl, rfl⟩
    · have hadd : p.add cache domain =
          { p with sights := .domain domain :: p.sights, found := p.found + 1 } := if_neg hknown
      have hnames (rest : List String) : (domain :: rest).filter (fun d => !cache.test d) =
          domain :: rest.filter fun d => !cache.test d := List.filter_cons_of_pos (by simp [hknown])
      obtain ⟨room, hroom⟩ : ∃ room, limit - p.found = room + 1 := ⟨limit - p.found - 1, by omega⟩
      have hroom' : limit - (p.found + 1) = room := by omega
      rw [hadd, hnames, hroom]
      simp only [hroom', List.take_succ_cons, List.map_cons, List.reverse_cons, List.append_assoc,
        List.length_cons]
      exact ⟨rfl, by omega⟩

/-- The entries are looked at until the limit is reached. -/
theorem sights_addEntries (limit : Nat) (cache : Cache) (words : Nat → Words) (p : Preview)
    (entries : List Entry) :
    (addEntries limit cache words p entries).sights =
      (upTo (limit - p.found) (shownAll cache words entries)).reverse ++ p.sights := by
  induction entries generalizing p with
  | nil => rw [shownAll, upTo_nil]; rfl
  | cons entry rest ih =>
    rw [addEntries]
    split
    · rename_i hfull
      rw [Nat.sub_eq_zero_of_le hfull, upTo_zero]
      rfl
    · rename_i hfree
      rw [shownAll, shown]
      cases hexamine : examine entry (words rest.length) with
      | error error =>
        obtain ⟨room, hroom⟩ : ∃ room, limit - p.found = room + 1 :=
          ⟨limit - p.found - 1, by omega⟩
        show (addEntries limit cache words _ rest).sights =
          (upTo (limit - p.found) (.rejected entry.pattern error :: _)).reverse ++ p.sights
        rw [ih, hroom, upTo, List.reverse_cons, List.append_assoc, ← hroom]
        rfl
      | ok found =>
        obtain ⟨analysis, source⟩ := found
        obtain ⟨hsights, hfound⟩ :=
          sights_addDomains limit cache { p with valid := p.valid + 1 } source
        have hroom (length : Nat) : limit - (p.found + min (limit - p.found) length) =
            limit - p.found - length := by omega
        show (addEntries limit cache words _ rest).sights = _
        rw [ih, hsights, hfound, hroom, upTo_map_domain_append, List.reverse_append,
          List.append_assoc]

/-- A preview shows what there is until the limit is reached. -/
theorem sights_ofEntries (limit : Option Nat) (cache : Cache) (words : Nat → Words)
    (entries : List Entry) :
    (ofEntries limit cache words entries).sights.reverse =
      upTo (limit.getD noLimit) (shownAll cache words entries) := by
  rw [ofEntries, sights_addEntries, List.reverse_append, List.reverse_reverse]
  rfl

/-- The domains that are shown are the first ones that the cache does not know. -/
theorem domains_ofEntries (limit : Option Nat) (cache : Cache) (words : Nat → Words)
    (entries : List Entry) :
    (ofEntries limit cache words entries).domains =
      (unknown cache words entries).take (limit.getD noLimit) := by
  rw [domains, sights_ofEntries, filterMap_domain_upTo, filterMap_domain_shownAll]

/-- Without a limit and with fewer domains than the limit that stands for none, everything is
shown. -/
theorem sights_ofEntries_none (w : Words) (cache : Cache) (words : Nat → Words)
    {entries : List Entry} (hfew : (entries.flatMap (domainsOf w)).length < noLimit) :
    (ofEntries none cache words entries).sights.reverse = shownAll cache words entries := by
  rw [sights_ofEntries, Option.getD_none]
  refine upTo_of_lt ?_
  rw [filterMap_domain_shownAll, (unknown_perm w cache words entries).length_eq]
  exact (List.length_filter_le _ _).trans_lt hfew

theorem domains_ofEntries_none (w : Words) (cache : Cache) (words : Nat → Words)
    {entries : List Entry} (hfew : (entries.flatMap (domainsOf w)).length < noLimit) :
    (ofEntries none cache words entries).domains.Perm
      ((entries.flatMap (domainsOf w)).filter fun domain => !cache.test domain) := by
  rw [domains, sights_ofEntries_none w cache words hfew, filterMap_domain_shownAll]
  exact unknown_perm w cache words entries

theorem rejections_ofEntries_none (w : Words) (cache : Cache) (words : Nat → Words)
    {entries : List Entry} (hfew : (entries.flatMap (domainsOf w)).length < noLimit) :
    (ofEntries none cache words entries).rejections = entries.filterMap (rejectionOf w) := by
  rw [rejections, sights_ofEntries_none w cache words hfew, filterMap_rejection_shownAll w]

end Preview

/-! ### What is printed -/

/-- What is printed about a domain. -/
def Preview.domainLine (json : Bool) (domain : String) : Line :=
  Report.toOutput (if json then (Document.text domain).json else domain)

theorem Preview.filter_output_lines (json : Bool) (p : Preview) :
    (p.lines json).filter (fun line => line.channel == .output) =
      p.domains.map (Preview.domainLine json) := by
  rw [lines, ← List.map_reverse, domains]
  induction p.sights.reverse with
  | nil => rfl
  | cons sight rest ih =>
    rw [List.map_cons, List.filter_cons, ih]
    cases sight <;> rfl

theorem Preview.filter_errors_lines (json : Bool) (p : Preview) :
    (p.lines json).filter (fun line => line.channel == .errors) =
      p.rejections.map fun rejection => Report.rejected rejection.1 rejection.2 := by
  rw [lines, ← List.map_reverse, rejections]
  induction p.sights.reverse with
  | nil => rfl
  | cons sight rest ih =>
    rw [List.map_cons, List.filter_cons, ih]
    cases sight <;> rfl

/-- A dry run prints its preview, and its totals unless no entry is valid. -/
theorem exists_lines_dryRun (w : World) (a : Arguments) (entries : List Entry) (cache : Cache) :
    ∃ totals : List Line, (∀ line ∈ totals, line.channel = .errors) ∧
      (Session.dryRun w a entries cache).lines =
        (Preview.ofEntries a.limit cache w.words entries).lines a.json ++ totals := by
  by_cases hvalid : (Preview.ofEntries a.limit cache w.words entries).valid = 0
  · refine ⟨[], nofun, ?_⟩
    simp only [Session.dryRun, if_pos hvalid, List.append_nil]
  · refine ⟨[(Preview.ofEntries a.limit cache w.words entries).total], ?_, ?_⟩
    · intro line hline
      rw [List.mem_singleton.1 hline]
      rfl
    · simp only [Session.dryRun, if_neg hvalid]

/-- What a dry run prints on the output are the domains of its preview. -/
theorem output_dryRun (w : World) (a : Arguments) (entries : List Entry) (cache : Cache) :
    (Session.dryRun w a entries cache).lines.filter (fun line => line.channel == .output) =
      (Preview.ofEntries a.limit cache w.words entries).domains.map
        (Preview.domainLine a.json) := by
  obtain ⟨totals, htotals, hlines⟩ := exists_lines_dryRun w a entries cache
  have hnone : totals.filter (fun line => line.channel == .output) = [] := by
    rw [List.filter_eq_nil_iff]
    intro line hline
    rw [htotals line hline]
    nofun
  rw [hlines, List.filter_append, hnone, List.append_nil, Preview.filter_output_lines]

/-- A dry run complains of the entries that its preview leaves out. -/
theorem errors_dryRun (w : World) (a : Arguments) (entries : List Entry) (cache : Cache) :
    ((Preview.ofEntries a.limit cache w.words entries).rejections.map fun rejection =>
        Report.rejected rejection.1 rejection.2) <+:
      (Session.dryRun w a entries cache).lines.filter fun line => line.channel == .errors := by
  obtain ⟨totals, -, hlines⟩ := exists_lines_dryRun w a entries cache
  rw [hlines, List.filter_append, Preview.filter_errors_lines]
  exact List.prefix_append _ _

/-! ### When a dry run fails -/

/-- An entry that is left out, in whatever order its domains would come. -/
def Refused (entry : Entry) : Prop :=
  ∀ words, ∃ error, examine entry words = .error error

theorem refused_of_error {entry : Entry} {words : Words} {error : Error}
    (h : examine entry words = .error error) : Refused entry :=
  fun words' => ⟨error, examine_error h words'⟩

theorem not_refused_of_ok {entry : Entry} {words : Words} {found : Analysis × Candidates}
    (h : examine entry words = .ok found) : ¬ Refused entry := by
  intro hrefused
  obtain ⟨error, herror⟩ := hrefused words
  rw [h] at herror
  cases herror

namespace Preview

theorem valid_addDomains (limit : Nat) (cache : Cache) (p : Preview) (source : Candidates) :
    (addDomains limit cache p source).valid = p.valid := by
  fun_induction addDomains limit cache p source with
  | case1 p source hnext => rfl
  | case2 p source domain source' hnext hfull => rfl
  | case3 p source domain source' hnext hfree ih =>
    rw [ih, add]
    split <;> rfl

theorem le_valid_addEntries (limit : Nat) (cache : Cache) (words : Nat → Words) (p : Preview)
    (entries : List Entry) : p.valid ≤ (addEntries limit cache words p entries).valid := by
  induction entries generalizing p with
  | nil => exact Nat.le_refl _
  | cons entry rest ih =>
    rw [addEntries]
    split
    · exact Nat.le_refl _
    · split
      · refine Nat.le_trans ?_ (ih _)
        rw [valid_addDomains]
        exact Nat.le_succ _
      · rename_i error _
        exact ih { p with sights := .rejected entry.pattern error :: p.sights }

/-- No entry is looked into if the limit is reached before, or if all entries are left out. -/
theorem valid_addEntries_eq_zero_iff (limit : Nat) (cache : Cache) (words : Nat → Words)
    (p : Preview) (entries : List Entry) :
    (addEntries limit cache words p entries).valid = 0 ↔
      p.valid = 0 ∧ (limit ≤ p.found ∨ ∀ entry ∈ entries, Refused entry) := by
  induction entries generalizing p with
  | nil => simp [addEntries]
  | cons entry rest ih =>
    rw [addEntries, List.forall_mem_cons]
    split
    · rename_i hfull
      exact (and_iff_left (.inl hfull)).symm
    · rename_i hfree
      cases hexamine : examine entry (words rest.length) with
      | error error =>
        rw [and_iff_right (refused_of_error hexamine)]
        exact ih _
      | ok found =>
        obtain ⟨analysis, source⟩ := found
        have hlooked := le_valid_addEntries limit cache words
          (addDomains limit cache { p with valid := p.valid + 1 } source) rest
        rw [valid_addDomains] at hlooked
        have haccepted := not_refused_of_ok hexamine
        simp only [haccepted, false_and, or_false, hfree, and_false, iff_false]
        exact Nat.ne_of_gt (Nat.lt_of_lt_of_le (Nat.succ_pos p.valid) hlooked)

theorem valid_ofEntries_eq_zero_iff (limit : Option Nat) (cache : Cache) (words : Nat → Words)
    (entries : List Entry) :
    (ofEntries limit cache words entries).valid = 0 ↔
      limit.getD noLimit = 0 ∨ ∀ entry ∈ entries, Refused entry := by
  rw [ofEntries, valid_addEntries_eq_zero_iff, and_iff_right rfl]
  exact or_congr_left Nat.le_zero

end Preview

/-- What a dry run prints up to a limit, and when it fails. -/
structure Limited (w : World) (a : Arguments) (entries : List Entry) (cache : Cache)
    (limit : Nat) : Prop where
  /-- The first domains that the cache does not know are printed, as many as the limit allows. -/
  printed : (Session.dryRun w a entries cache).lines.filter (fun line => line.channel == .output) =
    ((Preview.unknown cache w.words entries).take limit).map (Preview.domainLine a.json)
  failure : ∀ message ∈ (Session.dryRun w a entries cache).failure,
    message = Session.noValidPatterns entries.length
  fails_iff : (Session.dryRun w a entries cache).failure.isSome = true ↔
    limit = 0 ∨ ∀ entry ∈ entries, Refused entry
  /-- The failure tells that all entries are left out, unless the limit is zero. -/
  truthful_iff : ((Session.dryRun w a entries cache).failure.isSome = true ↔
      ∀ entry ∈ entries, Refused entry) ↔
    (limit = 0 → ∀ entry ∈ entries, Refused entry)

/-- Every dry run goes up to its limit, and up to the limit that stands for none without one. -/
theorem dryRun_limited (w : World) (a : Arguments) (entries : List Entry) (cache : Cache) :
    Limited w a entries cache (a.limit.getD Preview.noLimit) := by
  have hfails : (Session.dryRun w a entries cache).failure.isSome = true ↔
      a.limit.getD Preview.noLimit = 0 ∨ ∀ entry ∈ entries, Refused entry := by
    rw [← Preview.valid_ofEntries_eq_zero_iff a.limit cache w.words entries, Session.dryRun]
    split
    · exact iff_of_true rfl ‹_›
    · exact iff_of_false nofun ‹_›
  refine ⟨?_, ?_, hfails, ?_⟩
  · rw [output_dryRun, Preview.domains_ofEntries]
  · intro message hmessage
    rw [Session.dryRun] at hmessage
    split at hmessage
    · exact (Option.some.inj hmessage).symm
    · cases hmessage
  · rw [hfails]
    exact ⟨fun h hzero => h.1 (.inl hzero), fun h => ⟨fun hall => hall.elim h id, .inr⟩⟩

namespace Hunt

/-- A world in which there are no files and every domain is free. -/
def calmWorld : World where
  files := .empty
  environment := fun _ => none
  input := #[]
  words := fun _ => ⟨fun _ => 0, 0⟩
  ask := fun _ _ => .ok 404
  lookUpTime := .ofMillis 0
  huntTime := .ofMillis 0

/-- With the limit zero a dry run complains of an entry that has no fault. -/
theorem not_truthful_at_zero :
    ¬ ((Session.dryRun calmWorld { limit := some 0 } [doubled] eightSlots).failure.isSome = true ↔
      ∀ entry ∈ [doubled], Refused entry) := by
  intro h
  have hrefused := h.1 rfl doubled (List.mem_singleton.2 rfl)
  obtain ⟨words, source, hexamine, -⟩ := examined_doubled
  exact not_refused_of_ok hexamine hrefused

end Hunt

end NameHunt
