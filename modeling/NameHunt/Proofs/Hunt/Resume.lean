import NameHunt.Proofs.Cache.Format
import NameHunt.Proofs.Hunt.Chapters
import NameHunt.Proofs.Hunt.Memory

/-!
# Hunting the same entries again

A hunt that starts from the cache of an earlier one launches only domains that the earlier one
checked without finding anything out about them.

* `domainsOf`: the domains of an entry for some words.
* `Told.launchedIn_subperm`: what is launched are domains of the entries, none of them more often.
* `Told.skipped_launched_perm`: a hunt that comes to its end with the flag down skips or launches all
  domains.
* `failed_of_launched`: what a later hunt launches was checked in vain.
* `Resumable`: what a hunt leaves in its cache, and what it leaves to a later one.
* `Runs.resumable`: every truthful hunt can be resumed from its cache.
-/

namespace NameHunt.Hunt

variable {σ : Type}

/-! ### Logs made of chapters -/

namespace Chapter

/-- The notes of the domains of the entry. -/
def body : Chapter → List Note
  | rejected _ _ => []
  | hunted _ _ body => body

@[simp] theorem launchedIn_notes (chapter : Chapter) :
    launchedIn chapter.notes = launchedIn chapter.body := by
  cases chapter <;> simp [notes, body]

@[simp] theorem skippedIn_notes (chapter : Chapter) :
    skippedIn chapter.notes = skippedIn chapter.body := by
  cases chapter <;> simp [notes, body]

end Chapter

/-- What is taken from a log note by note can be taken chapter by chapter. -/
theorem part_flatMap {α : Type} {part : List Note → List α} (hnil : part [] = [])
    (happend : ∀ log log', part (log ++ log') = part log ++ part log') (chapters : List Chapter) :
    part (chapters.flatMap Chapter.notes) =
      chapters.flatMap fun chapter => part chapter.notes := by
  induction chapters with
  | nil => exact hnil
  | cons chapter chapters ih => rw [List.flatMap_cons, happend, ih, List.flatMap_cons]

theorem launchedIn_flatMap (chapters : List Chapter) :
    launchedIn (chapters.flatMap Chapter.notes) =
      chapters.flatMap fun chapter => launchedIn chapter.body := by
  simp [part_flatMap launchedIn_nil launchedIn_append]

theorem skippedIn_flatMap (chapters : List Chapter) :
    skippedIn (chapters.flatMap Chapter.notes) =
      chapters.flatMap fun chapter => skippedIn chapter.body := by
  simp [part_flatMap skippedIn_nil skippedIn_append]

/-! ### What is launched and what is reported -/

/-- The domains of an entry for some words. -/
def domainsOf (words : Words) (entry : Entry) : List String :=
  match examine entry words with
  | .ok (_, source) => source.toList
  | .error _ => []

theorem domainsOf_of_error {entry : Entry} {words : Words} {error : Error}
    (h : examine entry words = .error error) : domainsOf words entry = [] := by
  simp [domainsOf, h]

/-- An accepted entry is accepted for all words. -/
theorem Examined.domainsOf {entry : Entry} {analysis : Analysis} {domains : List String}
    (h : Examined entry analysis domains) (words : Words) :
    Examined entry analysis (domainsOf words entry) := by
  cases hexamine : examine entry words with
  | error error =>
    obtain ⟨words', source, hexamine', -⟩ := h
    have hfault := examine_error hexamine words'
    simp [hexamine'] at hfault
  | ok found =>
    obtain ⟨analysis', source⟩ := found
    have hfound : Examined entry analysis' source.toList := ⟨words, source, hexamine, rfl⟩
    obtain ⟨rfl, -⟩ := h.perm hfound
    simpa [Hunt.domainsOf, hexamine] using hfound

/-- The words decide on nothing but the order of the domains of an entry. -/
theorem domainsOf_perm (words words' : Words) (entry : Entry) :
    (domainsOf words entry).Perm (domainsOf words' entry) := by
  cases hexamine : examine entry words with
  | error error =>
    rw [domainsOf_of_error hexamine, domainsOf_of_error (examine_error hexamine words')]
  | ok found =>
    obtain ⟨analysis, source⟩ := found
    have hexamined : Examined entry analysis source.toList := ⟨words, source, hexamine, rfl⟩
    exact ((hexamined.domainsOf words).perm (hexamined.domainsOf words')).2

theorem subperm_flatMap {α β : Type} [BEq β] [LawfulBEq β] {f g : α → List β} {l : List α}
    (h : ∀ a ∈ l, (f a).Subperm (g a)) : (l.flatMap f).Subperm (l.flatMap g) := by
  induction l with
  | nil => exact List.nil_subperm
  | cons a l ih =>
    rw [List.flatMap_cons, List.flatMap_cons]
    exact (h a List.mem_cons_self).append (ih fun b hb => h b (List.mem_cons_of_mem a hb))

/-- Nothing is launched but domains of the entries, and nothing more often. -/
theorem Told.launchedIn_subperm {rules : Rules σ} {entries : List Entry} {s : State σ}
    {log : List Note} (h : Told rules entries s log) (words : Words) :
    (launchedIn log).Subperm (entries.flatMap (domainsOf words)) := by
  obtain ⟨chapters, admitted, current, rfl, hstory⟩ := h
  rw [launchedIn_append, launchedIn_flatMap, hstory.entries_eq, List.flatMap_append,
    List.flatMap_map, List.flatMap_append]
  apply List.Subperm.append
  · apply subperm_flatMap
    intro chapter hchapter
    have hsound := hstory.sound chapter hchapter
    cases chapter with
    | rejected entry error => exact List.nil_subperm
    | hunted entry analysis body =>
      obtain ⟨domains, hexamined, hsettled⟩ := hsound
      have hlaunched : (launchedIn body).Subperm domains :=
        (List.sublist_append_right _ _).subperm.trans hsettled.within
      exact hlaunched.trans ((hexamined.perm (hexamined.domainsOf words)).2).subperm
  · refine List.Subperm.trans ?_ (List.sublist_append_left _ _).subperm
    obtain rfl | ⟨sweep, entry, analysis, domains, body, rfl, rfl, -, hexamined, haccounts⟩ :=
      hstory.present.nil_or_underway
    · exact List.nil_subperm
    · have hlaunched : (launchedIn body).Subperm domains :=
        ((List.sublist_append_right _ _).trans (List.sublist_append_left _ _)).subperm.trans
          haccounts.total.subperm
      have hall := hlaunched.trans ((hexamined.perm (hexamined.domainsOf words)).2).subperm
      simpa using hall

/-- A hunt that comes to its end with the flag down skips or launches all domains. -/
theorem Told.skipped_launched_perm {rules : Rules σ} {entries : List Entry} {t : State σ}
    {log : List Note} (h : Told rules entries t log) (hconcurrency : 1 ≤ rules.concurrency)
    (hclosed : t.phase = .closed) (hopen : t.cancelled = false) (words : Words) :
    (skippedIn log ++ launchedIn log).Perm (entries.flatMap (domainsOf words)) := by
  obtain ⟨chapters, admitted, current, rfl, hstory⟩ := h
  obtain ⟨rfl, hentries⟩ := hstory.atEnd hclosed
  rw [List.append_nil, skippedIn_flatMap, launchedIn_flatMap, ← hentries hopen, List.flatMap_map]
  refine (List.flatMap_append_perm _ _ _).trans ?_
  refine List.Perm.flatMap_left _ fun chapter hchapter => ?_
  have hsound := hstory.sound chapter hchapter
  cases chapter with
  | rejected entry error =>
    rw [Chapter.entry, domainsOf_of_error (hsound words)]
    exact List.Perm.refl _
  | hunted entry analysis body =>
    obtain ⟨domains, hexamined, hsettled⟩ := hsound
    have hwhole := hsettled.whole ⟨hconcurrency, hopen⟩
    exact hwhole.trans (hexamined.perm (hexamined.domainsOf words)).2

/-- Where nothing is launched and the hunt comes to its end with the flag down, all domains are
skipped. -/
theorem Told.skippedIn_perm {rules : Rules σ} {entries : List Entry} {t : State σ}
    {log : List Note} (h : Told rules entries t log) (hconcurrency : 1 ≤ rules.concurrency)
    (hclosed : t.phase = .closed) (hopen : t.cancelled = false) (hnone : launchedIn log = [])
    (words : Words) : (skippedIn log).Perm (entries.flatMap (domainsOf words)) := by
  have hall := h.skipped_launched_perm hconcurrency hclosed hopen words
  rwa [hnone, List.append_nil] at hall

/-! ### Two hunts -/

section Again

variable {rules : Rules σ} {entries : List Entry} {cancelled : Bool} {cache : Cache} {disk : σ}
  {log : List Note} {t : State σ}

/-- A domain that was answered is known to the cache at the end. -/
theorem test_of_answered (h : Runs rules (.start entries cancelled cache disk) log t)
    {outcome : Outcome} (hmem : outcome ∈ outcomesIn log) (hsuccess : outcome.success = true) :
    t.cache.test outcome.domain = true := by
  rw [(remembers_of_runs h).grown]
  exact Cache.test_insertAll_of_mem _
    (List.mem_map.2 ⟨outcome, List.mem_filter.2 ⟨hmem, hsuccess⟩, rfl⟩)

/-- What a later hunt launches was checked by the earlier one, if that came to its end with the
flag down, and nothing was found out about it. -/
theorem failed_of_launched (hconcurrency : 1 ≤ rules.concurrency)
    (h : Runs rules (.start entries cancelled cache disk) log t) (htruthful : Truthful log)
    (hclosed : t.phase = .closed) (hopen : t.cancelled = false) {σ' : Type} {rules' : Rules σ'}
    {cancelled' : Bool} {disk' : σ'} {log' : List Note} {t' : State σ'}
    (h' : Runs rules' (.start entries cancelled' t.cache disk') log' t') {domain : String}
    (hlaunched : domain ∈ launchedIn log') :
    domain ∈ checkedIn log ∧
      ∀ outcome ∈ outcomesIn log, outcome.domain = domain → outcome.success = false := by
  let words : Words := ⟨fun _ => 0, 0⟩
  have hunknown : t.cache.test domain = false :=
    (remembers_of_runs h').launched domain hlaunched
  constructor
  · have hdomain := ((told_of_runs h').launchedIn_subperm words).subset hlaunched
    have hall := (told_of_runs h).skipped_launched_perm hconcurrency hclosed hopen words
    obtain hskipped | hbefore := List.mem_append.1 (hall.mem_iff.2 hdomain)
    · rw [(remembers_of_runs h).skipped domain hskipped] at hunknown
      cases hunknown
    · rw [h.echoed.checkedIn_eq htruthful, (h.returnedIn_perm hclosed).mem_iff]
      exact List.mem_append_right _ hbefore
  · rintro outcome hmem rfl
    cases hsuccess : outcome.success with
    | false => rfl
    | true =>
      rw [test_of_answered h hmem hsuccess] at hunknown
      cases hunknown

theorem launchedIn_eq_nil (hconcurrency : 1 ≤ rules.concurrency)
    (h : Runs rules (.start entries cancelled cache disk) log t) (htruthful : Truthful log)
    (hclosed : t.phase = .closed) (hopen : t.cancelled = false)
    (hsuccess : ∀ outcome ∈ outcomesIn log, outcome.success = true) {σ' : Type}
    {rules' : Rules σ'} {cancelled' : Bool} {disk' : σ'} {log' : List Note} {t' : State σ'}
    (h' : Runs rules' (.start entries cancelled' t.cache disk') log' t') :
    launchedIn log' = [] := by
  refine List.eq_nil_iff_forall_not_mem.2 fun domain hlaunched => ?_
  obtain ⟨hchecked, hfailed⟩ :=
    failed_of_launched hconcurrency h htruthful hclosed hopen h' hlaunched
  obtain ⟨outcome, hmem, rfl⟩ := List.mem_map.1 hchecked
  have hnot := hfailed outcome hmem rfl
  simp [hsuccess outcome hmem] at hnot

end Again

/-- A hunt that starts from the bytes of a cache. -/
def Resumed (rules : Rules σ) (entries : List Entry) (cache : Cache) (log : List Note)
    (t : State σ) : Prop :=
  ∃ reread cancelled disk, Cache.decode cache.encode = .ok reread ∧
    Runs rules (.start entries cancelled reread disk) log t

/-- What a hunt of some entries leaves in its cache, and what it leaves to a later one. -/
structure Resumable (entries : List Entry) (cache : Cache) (t : State σ) (log : List Note) :
    Prop where
  grown : t.cache = cache.insertAll (answeredIn log)
  capacity_eq : t.cache.capacity = cache.capacity
  /-- The slots of the domains about which something was found out are set, and no others that were
  not. -/
  isSet_iff : ∀ i, t.cache.isSet i = true ↔ cache.isSet i = true ∨
    ∃ outcome ∈ outcomesIn log, outcome.success = true ∧ cache.slot outcome.domain = i
  readable : Cache.decode t.cache.encode = .ok t.cache
  /-- What is launched again was checked, and with failures only. -/
  retried : t.phase = .closed → t.cancelled = false →
    ∀ (σ' : Type) (rules' : Rules σ') (log' : List Note) (t' : State σ'),
      Resumed rules' entries t.cache log' t' →
      ∀ domain ∈ launchedIn log', domain ∈ checkedIn log ∧
        ∀ outcome ∈ outcomesIn log, outcome.domain = domain → outcome.success = false
  /-- Without failures nothing is launched again, and all domains are skipped. -/
  completed : t.phase = .closed → t.cancelled = false →
    (∀ outcome ∈ outcomesIn log, outcome.success = true) →
    ∀ (σ' : Type) (rules' : Rules σ') (log' : List Note) (t' : State σ'),
      Resumed rules' entries t.cache log' t' →
      launchedIn log' = [] ∧
        (1 ≤ rules'.concurrency → t'.phase = .closed → t'.cancelled = false →
          ∀ words, (skippedIn log').Perm (entries.flatMap (domainsOf words)))

/-- Every hunt can be resumed from its cache if its look-ups spoke of the domains they were launched
for. -/
theorem Runs.resumable {rules : Rules σ} {entries : List Entry} {cancelled : Bool} {cache : Cache}
    {disk : σ} {log : List Note} {t : State σ} (hconcurrency : 1 ≤ rules.concurrency)
    (h : Runs rules (.start entries cancelled cache disk) log t) (htruthful : Truthful log) :
    Resumable entries cache t log := by
  have hgrown : t.cache = cache.insertAll (answeredIn log) := (remembers_of_runs h).grown
  refine ⟨hgrown, ?_, ?_, t.cache.decode_encode, ?_, ?_⟩
  · rw [hgrown, Cache.capacity_insertAll]
  · intro i
    rw [hgrown, Cache.isSet_insertAll]
    simp [answeredIn, and_assoc]
  · rintro hclosed hopen σ' rules' log' t' ⟨reread, cancelled', disk', hreread, h'⟩
    obtain rfl := Except.ok.inj (t.cache.decode_encode.symm.trans hreread)
    exact fun domain hlaunched =>
      failed_of_launched hconcurrency h htruthful hclosed hopen h' hlaunched
  · rintro hclosed hopen hsuccess σ' rules' log' t' ⟨reread, cancelled', disk', hreread, h'⟩
    obtain rfl := Except.ok.inj (t.cache.decode_encode.symm.trans hreread)
    have hnone := launchedIn_eq_nil hconcurrency h htruthful hclosed hopen hsuccess h'
    exact ⟨hnone, fun hconcurrency' hclosed' hopen' words =>
      (told_of_runs h').skippedIn_perm hconcurrency' hclosed' hopen' hnone words⟩

theorem resumable_huntDoubled :
    ∃ log log', 1 ≤ twoAtOnce.concurrency ∧
      Runs twoAtOnce (.start [doubled] false eightSlots ()) log (huntDoubled eightSlots) ∧
      Truthful log ∧
      Resumable [doubled] eightSlots (huntDoubled eightSlots) log ∧
      Resumed twoAtOnce [doubled] (huntDoubled eightSlots).cache log'
        (huntDoubled (huntDoubled eightSlots).cache) ∧
      launchedIn log' = [] := by
  obtain ⟨log, hruns, hclosed, hopen, htruthful, hsuccess⟩ := runs_huntDoubled eightSlots
  obtain ⟨log', hruns', -⟩ := runs_huntDoubled (huntDoubled eightSlots).cache
  have hresumable : Resumable [doubled] eightSlots (huntDoubled eightSlots) log :=
    Runs.resumable (by decide) hruns htruthful
  have hresumed : Resumed twoAtOnce [doubled] (huntDoubled eightSlots).cache log'
      (huntDoubled (huntDoubled eightSlots).cache) :=
    ⟨_, false, (), hresumable.readable, hruns'⟩
  exact ⟨log, log', by decide, hruns, htruthful, hresumable, hresumed,
    (hresumable.completed hclosed hopen hsuccess _ _ _ _ hresumed).1⟩

end NameHunt.Hunt
