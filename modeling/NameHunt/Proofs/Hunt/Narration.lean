import NameHunt.Proofs.Hunt.Events
import NameHunt.Proofs.Hunt.Resume

/-!
# The events of a hunt, entry by entry

The events come in blocks, one for each entry that was done, in the order of the entries. A block is
the rejection of an entry that has a fault, or all that happened to the domains of one that has
none.

* `Event.Tells`: an event of the domains of an entry.
* `Opening`: the events of an entry that is hunted, from its start.
* `Opening.of_body`: the notes of its domains are such events.
* `Block`: all events of an entry.
* `Chapter.Sound.block`: what a sound chapter tells is a block.
* `Narrated`: the events in blocks, with their totals.
* `Runs.exists_narrated`: so are the events of every truthful run.
-/

namespace NameHunt

/-- An event of one of these domains, or a checkpoint. -/
def Event.Tells (domains : List String) : Event → Prop
  | .skipped domain => domain ∈ domains
  | .checked outcome => outcome.domain ∈ domains
  | .checkpoint _ => True
  | .started _ | .rejected _ _ | .finished _ => False

namespace Hunt

variable {σ : Type} {rules : Rules σ} {entries admitted : List Entry} {t : State σ}
  {entry : Entry} {analysis : Analysis} {domains : List String} {body log current : List Note}
  {chapters : List Chapter}

/-- The events of an entry that is hunted, from its start on and before its end. -/
structure Opening (entry : Entry) (analysis : Analysis) (inner : List Event) : Prop where
  analyzed : analyze entry = .ok analysis
  faultless : entry.fault? = none
  within : ∀ words, ∀ event ∈ inner, event.Tells (domainsOf words entry)
  /-- Every checkpoint comes right after an answer that says something. -/
  follows : (.started analysis :: inner).IsChain Follows

/-- All events of an entry: it is left out for its fault, or hunted to its end. -/
inductive Block : Entry → List Event → Prop
  | rejected {entry : Entry} {error : Error} (hfault : entry.fault? = some error) :
      Block entry [.rejected entry.pattern error]
  | hunted {entry : Entry} {analysis : Analysis} {inner : List Event}
      (hopening : Opening entry analysis inner) :
      Block entry (.started analysis :: (inner ++ [.finished entry.pattern]))

/-! ### The notes of an entry -/

theorem mem_skippedIn {domain : String} (h : .told (.skipped domain) ∈ log) :
    domain ∈ skippedIn log :=
  List.mem_filterMap.2 ⟨_, h, rfl⟩

theorem mem_checkedIn {outcome : Outcome} (h : .told (.checked outcome) ∈ log) :
    outcome.domain ∈ checkedIn log :=
  List.mem_map_of_mem (List.mem_filterMap.2 ⟨_, h, rfl⟩)

/-- The notes of the domains of an accepted entry are events of these domains. -/
theorem Opening.of_body (hexamined : Examined entry analysis domains)
    (hinner : ∀ note ∈ body, note.isInner = true) (hskipped : skippedIn body ⊆ domains)
    (hchecked : checkedIn body ⊆ domains)
    (hfollows : (.started analysis :: eventsIn body).IsChain Follows) :
    Opening entry analysis (eventsIn body) := by
  have ⟨words, source, hexamine, _⟩ := hexamined
  have hfault : entry.fault? = none := Option.isNone_iff_eq_none.1 (isAccepted_of_examine hexamine)
  refine ⟨(analyze_of_examine hexamine).1, hfault, fun words' event hevent => ?_, hfollows⟩
  have hdomains := (hexamined.perm (hexamined.domainsOf words')).2
  have hmem := mem_eventsIn.1 hevent
  have hnote := hinner _ hmem
  cases event with
  | skipped domain => exact hdomains.mem_iff.1 (hskipped (mem_skippedIn hmem))
  | checked outcome => exact hdomains.mem_iff.1 (hchecked (mem_checkedIn hmem))
  | checkpoint bits => trivial
  | started | rejected | finished => cases hnote

/-- What a sound chapter tells is a block, if its look-ups spoke of the domains they were launched
for. -/
theorem Chapter.Sound.block {complete : Prop} {chapter : Chapter} (h : chapter.Sound complete)
    (htruthful : Truthful chapter.notes) (hfollows : (eventsIn chapter.notes).IsChain Follows) :
    Block chapter.entry (eventsIn chapter.notes) := by
  cases chapter with
  | rejected entry error => exact .rejected (examine_error_iff.1 (h ⟨fun _ => 0, 0⟩))
  | hunted entry analysis body =>
    obtain ⟨domains, hexamined, hsettled⟩ := h
    have hwithin := hsettled.within.subset
    have hchecked := hsettled.checkedIn_perm (htruthful.mono (body_subset_notes _ _ _))
    have hevents : eventsIn (Chapter.hunted entry analysis body).notes =
        .started analysis :: (eventsIn body ++ [.finished entry.pattern]) := by
      simp [Chapter.notes]
    rw [hevents] at hfollows ⊢
    refine .hunted (.of_body hexamined hsettled.inner ?_ ?_ ?_)
    · exact List.Subset.trans (List.subset_append_left _ _) hwithin
    · exact List.Subset.trans hchecked.subset
        (List.Subset.trans (List.subset_append_right _ _) hwithin)
    · exact hfollows.prefix ⟨[.finished entry.pattern], rfl⟩

/-- What was noted so far of the domains of the present entry are such events. -/
theorem Underway.opening {sweep : Sweep} (h : Underway sweep admitted current)
    (htruthful : Truthful current) (hfollows : (eventsIn current).IsChain Follows) :
    ∃ entry analysis inner, admitted = [entry] ∧ eventsIn current = .started analysis :: inner ∧
      Opening entry analysis inner := by
  obtain ⟨entry, analysis, domains, body, hadmitted, rfl, -, hexamined, haccounts⟩ := h
  have hwithin : skippedIn body ++ launchedIn body ⊆ domains :=
    List.Subset.trans (List.subset_append_left _ _) haccounts.total.subset
  have hlaunched : launchedIn body ⊆ domains :=
    List.Subset.trans (List.subset_append_right _ _) hwithin
  refine ⟨entry, analysis, eventsIn body, hadmitted, rfl,
    .of_body hexamined haccounts.inner ?_ ?_ hfollows⟩
  · exact List.Subset.trans (List.subset_append_left _ _) hwithin
  · rw [haccounts.echoed.checkedIn_eq (htruthful.mono (List.subset_cons_self _ _))]
    exact List.Subset.trans haccounts.returnedIn_subperm.subset hlaunched

/-! ### The events of a run -/

/-- The events of a hunt in blocks, one for each entry that was done, and the events of the present
one. -/
structure Narrated (entries : List Entry) (t : State σ) (blocks : List (Entry × List Event))
    (present : List Event) : Prop where
  events_eq : t.events.reverse = blocks.flatMap Prod.snd ++ present
  block : ∀ block ∈ blocks, Block block.1 block.2
  inOrder : blocks.map Prod.fst <+: entries
  /-- The present entry is the next one. -/
  opening : present = [] ∨ ∃ entry analysis inner, present = .started analysis :: inner ∧
    Opening entry analysis inner ∧ blocks.map Prod.fst ++ [entry] <+: entries
  /-- At the end there is no present entry, and none is left out unless the flag was raised. -/
  atEnd : t.phase = .closed →
    present = [] ∧ (t.cancelled = false → blocks.map Prod.fst = entries)
  totals : Totals t.summary t.events

/-- The entry of a chapter with its events. -/
def Chapter.block (chapter : Chapter) : Entry × List Event :=
  (chapter.entry, eventsIn chapter.notes)

theorem map_fst_block (chapters : List Chapter) :
    (chapters.map Chapter.block).map Prod.fst = chapters.map Chapter.entry :=
  List.map_map

theorem flatMap_snd_block (chapters : List Chapter) :
    (chapters.map Chapter.block).flatMap Prod.snd = eventsIn (chapters.flatMap Chapter.notes) := by
  rw [part_flatMap eventsIn_nil eventsIn_append, List.flatMap_map]
  rfl

theorem Story.narrated (h : Story rules entries t chapters admitted current)
    (hevents : t.events.reverse = eventsIn (chapters.flatMap Chapter.notes ++ current))
    (htruthful : Truthful (chapters.flatMap Chapter.notes ++ current))
    (hfollows : t.events.reverse.IsChain Follows) (htotals : Totals t.summary t.events) :
    Narrated entries t (chapters.map Chapter.block) (eventsIn current) := by
  have hall : t.events.reverse =
      (chapters.map Chapter.block).flatMap Prod.snd ++ eventsIn current := by
    rw [flatMap_snd_block, hevents, eventsIn_append]
  refine ⟨hall, ?_, ?_, ?_, ?_, htotals⟩
  · intro block hblock
    have hpart : block.2 <:+: t.events.reverse := by
      rw [hall]
      exact (List.infix_of_mem_flatten (List.mem_map_of_mem hblock)).trans
        (List.prefix_append _ _).isInfix
    have hown := List.IsChain.infix hfollows hpart
    obtain ⟨chapter, hchapter, rfl⟩ := List.mem_map.1 hblock
    have htrue := htruthful.mono (notes_subset_of_mem hchapter current)
    exact (h.sound chapter hchapter).block htrue hown
  · rw [map_fst_block]
    exact ⟨_, h.entries_eq.symm⟩
  · obtain rfl | ⟨sweep, hunderway⟩ := h.present.nil_or_underway
    · exact .inl rfl
    · have hpart : eventsIn current <:+: t.events.reverse := by
        rw [hall]
        exact (List.suffix_append _ _).isInfix
      have hown := List.IsChain.infix hfollows hpart
      obtain ⟨entry, analysis, inner, rfl, hcurrent, hopening⟩ :=
        hunderway.opening (truthful_append.1 htruthful).2 hown
      refine .inr ⟨entry, analysis, inner, hcurrent, hopening, t.entries, ?_⟩
      rw [map_fst_block, List.append_assoc, ← h.entries_eq]
  · intro hclosed
    obtain ⟨rfl, hentries⟩ := h.atEnd hclosed
    rw [map_fst_block]
    exact ⟨rfl, hentries⟩

/-- The events of every truthful run come in blocks, and the totals count them. -/
theorem Runs.exists_narrated (hevery : 1 ≤ rules.checkpointEvery) {cancelled : Bool}
    {cache : Cache} {disk : σ} (h : Runs rules (.start entries cancelled cache disk) log t)
    (htruthful : Truthful log) :
    ∃ blocks present, Narrated entries t blocks present := by
  obtain ⟨chapters, admitted, current, rfl, hstory⟩ := told_of_runs h
  have hevents : t.events.reverse = eventsIn (chapters.flatMap Chapter.notes ++ current) :=
    h.events_eq
  exact ⟨_, _, hstory.narrated hevents htruthful (follows_of_runs hevery h) (totals_of_runs h)⟩

end Hunt

end NameHunt
