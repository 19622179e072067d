import NameHunt.Proofs.CommandLine.Limit

/-!
# What a dry run predicts

A dry run goes through the entries with the cache as it is. A hunt goes through them with a cache
that grows, in an order of its own, and several look-ups are under way at once. Still a hunt
launches nothing that the dry run does not print, and what it does not launch of that is in its
cache at the end.

* `Told.rejectedIn_eq`: a hunt that comes to its end with the flag down leaves out the same
  entries.
* `Predicted`: what a dry run says of a hunt.
* `Runs.predicted`: it is right about every hunt.
-/

namespace NameHunt

open Hunt

namespace Hunt

variable {σ : Type} {entries : List Entry} {cache : Cache} {log : List Note} {t : State σ}

/-! ### What a hunt does with all domains -/

/-- The entry that is left out, and why. -/
def Note.rejection? : Note → Option (String × Error)
  | told (.rejected pattern error) => some (pattern, error)
  | _ => none

/-- The entries that were left out. -/
def rejectedIn (log : List Note) : List (String × Error) :=
  log.filterMap Note.rejection?

theorem rejectedIn_append (log log' : List Note) :
    rejectedIn (log ++ log') = rejectedIn log ++ rejectedIn log' :=
  List.filterMap_append

theorem Told.rejectedIn_eq {rules : Rules σ} (h : Told rules entries t log)
    (hclosed : t.phase = .closed) (hopen : t.cancelled = false) (w : Words) :
    rejectedIn log = entries.filterMap (rejectionOf w) := by
  obtain ⟨chapters, admitted, current, rfl, hstory⟩ := h
  obtain ⟨rfl, hentries⟩ := hstory.atEnd hclosed
  rw [List.append_nil, part_flatMap rfl rejectedIn_append, ← hentries hopen, List.filterMap_map,
    List.filterMap_eq_flatMap_toList]
  refine List.flatMap_congr fun chapter hchapter => ?_
  have hsound := hstory.sound chapter hchapter
  cases chapter with
  | rejected entry error =>
    show [(entry.pattern, error)] = (rejectionOf w entry).toList
    rw [rejectionOf, hsound w]
    rfl
  | hunted entry analysis body =>
    obtain ⟨domains, ⟨words, source, hexamine, -⟩, hsettled⟩ := hsound
    have hbody : rejectedIn body = [] := by
      rw [rejectedIn, List.filterMap_eq_nil_iff]
      intro note hnote
      have hinner := hsettled.inner note hnote
      cases note with
      | told event =>
        cases event with
        | rejected pattern error => cases hinner
        | _ => rfl
      | _ => rfl
    show rejectedIn (body ++ [.told (.finished entry.pattern)]) = (rejectionOf w entry).toList
    rw [rejectedIn_append, hbody, rejectionOf_eq w words, rejectionOf, hexamine]
    rfl

/-- What a dry run says of a hunt of the same entries with the same cache. -/
structure Predicted (w : World) (a : Arguments) (entries : List Entry) (cache : Cache)
    (log : List Note) (t : State σ) (preview : Preview) : Prop where
  /-- The domains are printed. -/
  printed : (Session.dryRun w a entries cache).lines.filter (fun line => line.channel == .output) =
    preview.domains.map (Preview.domainLine a.json)
  launched : (launchedIn log).Subperm preview.domains
  /-- What was printed and is not launched comes to be known. -/
  known : t.phase = .closed → t.cancelled = false →
    ∀ domain, (launchedIn log).count domain < preview.domains.count domain →
      t.cache.test domain = true
  /-- The same entries are left out, for the same reasons. -/
  rejected : t.phase = .closed → t.cancelled = false → rejectedIn log = preview.rejections
  rejections : ∀ words, preview.rejections = entries.filterMap (rejectionOf words)
  complaints : (preview.rejections.map fun rejection =>
      Report.rejected rejection.1 rejection.2) <+:
    (Session.dryRun w a entries cache).lines.filter fun line => line.channel == .errors

/-- A dry run without a limit predicts every hunt, whatever its look-ups say, as long as there are
fewer candidates than the limit that stands for none. -/
theorem Runs.predicted {rules : Rules σ} {cancelled : Bool} {disk : σ} {w : World} {a : Arguments}
    {words : Words} (hconcurrency : 1 ≤ rules.concurrency) (hlimit : a.limit = none)
    (hfew : (entries.flatMap (domainsOf words)).length < Preview.noLimit)
    (h : Runs rules (.start entries cancelled cache disk) log t) :
    Predicted w a entries cache log t (Preview.ofEntries none cache w.words entries) := by
  have htold := told_of_runs h
  have hremembers := remembers_of_runs h
  have hdomains := Preview.domains_ofEntries_none words cache w.words hfew
  have hrejections := Preview.rejections_ofEntries_none words cache w.words hfew
  refine ⟨?_, ?_, ?_, ?_, ?_, ?_⟩
  · rw [output_dryRun, hlimit]
  · -- The cache did not know what was launched when the hunt began.
    have hall := (htold.launchedIn_subperm words).filter fun d => !cache.test d
    have hunknown : (launchedIn log).filter (fun d => !cache.test d) = launchedIn log := by
      rw [List.filter_eq_self]
      intro domain hlaunched
      rw [hremembers.launched domain hlaunched]
      rfl
    rw [hunknown] at hall
    exact hall.trans hdomains.symm.subperm
  · intro hclosed hopen domain hfewer
    have hcount :=
      (htold.skipped_launched_perm hconcurrency hclosed hopen words).count_eq domain
    have hshown : (Preview.ofEntries none cache w.words entries).domains.count domain ≤
        (entries.flatMap (domainsOf words)).count domain := by
      rw [hdomains.count_eq domain]
      exact List.filter_sublist.count_le domain
    rw [List.count_append] at hcount
    have hskipped : 0 < (skippedIn log).count domain := by omega
    exact hremembers.skipped domain (List.count_pos_iff.1 hskipped)
  · intro hclosed hopen
    rw [hrejections]
    exact htold.rejectedIn_eq hclosed hopen words
  · intro words'
    rw [hrejections]
    exact List.filterMap_congr fun entry _ => rejectionOf_eq words words' entry
  · have hcomplaints := errors_dryRun w a entries cache
    rwa [hlimit] at hcomplaints

/-- A domain that comes twice is printed twice. -/
theorem predicted_huntDoubled :
    ∃ log, Runs twoAtOnce (.start [doubled] false eightSlots ()) log (huntDoubled eightSlots) ∧
      (huntDoubled eightSlots).phase = .closed ∧ (huntDoubled eightSlots).cancelled = false ∧
      (Preview.ofEntries none eightSlots calmWorld.words [doubled]).domains.Perm
        ["ab.com", "ab.com"] ∧
      Predicted calmWorld {} [doubled] eightSlots log (huntDoubled eightSlots)
        (Preview.ofEntries none eightSlots calmWorld.words [doubled]) := by
  obtain ⟨log, hruns, hclosed, hopen, -⟩ := runs_huntDoubled eightSlots
  let words : Words := ⟨fun _ => 0, 0⟩
  have hdomains : (([doubled].flatMap (domainsOf words))).Perm ["ab.com", "ab.com"] := by
    have hperm := ((examined_doubled.domainsOf words).perm examined_doubled).2
    simpa using hperm
  have hfew : ([doubled].flatMap (domainsOf words)).length < Preview.noLimit := by
    rw [hdomains.length_eq]
    decide
  refine ⟨log, hruns, hclosed, hopen, ?_, Runs.predicted (by decide) rfl hfew hruns⟩
  have hnew : eightSlots.test "ab.com" = false :=
    Bits.get_replicate 1 (eightSlots.slot "ab.com")
  have hshown := (Preview.domains_ofEntries_none words eightSlots calmWorld.words hfew).trans
    (hdomains.filter _)
  simpa [hnew] using hshown

end Hunt

end NameHunt
