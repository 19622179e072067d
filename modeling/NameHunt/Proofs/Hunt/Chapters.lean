import NameHunt.Proofs.Hunt.Account
import NameHunt.Proofs.Hunt.Scene

/-!
# The log of a hunt, entry by entry

A log is made of one chapter for each entry that was done, in the order of the entries, and of what
was noted so far for the present one.

* `Chapter`: what an entry leaves in the log.
* `Present`: what holds within each phase.
* `Story`: a log taken apart into its chapters.
* `told_of_runs`: every log can be taken apart.
* `Chronicle`: what a log says of its chapters. Each launch has its outcome, and unless the flag was
  raised, all domains of an entry are reported.
* `Runs.exists_chronicle`: the log of every truthful run is a chronicle.
-/

namespace NameHunt.Hunt

variable {σ : Type}

/-- What an entry leaves in the log. -/
inductive Chapter where
  | rejected (entry : Entry) (error : Error)
  | hunted (entry : Entry) (analysis : Analysis) (body : List Note)

namespace Chapter

def entry : Chapter → Entry
  | rejected entry _ => entry
  | hunted entry _ _ => entry

def notes : Chapter → List Note
  | rejected entry error => [.told (.rejected entry.pattern error)]
  | hunted entry analysis body =>
    .told (.started analysis) :: (body ++ [.told (.finished entry.pattern)])

/-- A rejected entry has the fault that was reported, and the domains of a hunted one are
settled. -/
def Sound (complete : Prop) : Chapter → Prop
  | rejected entry error => ∀ words, examine entry words = .error error
  | hunted entry analysis body =>
    ∃ domains, Examined entry analysis domains ∧ Settled complete domains body

theorem Sound.mono {complete complete' : Prop} {chapter : Chapter} (h : chapter.Sound complete)
    (hcomplete : complete' → complete) : chapter.Sound complete' := by
  cases chapter with
  | rejected entry error => exact h
  | hunted entry analysis body =>
    obtain ⟨domains, hexamined, hsettled⟩ := h
    exact ⟨domains, hexamined, { hsettled with whole := fun hc => hsettled.whole (hcomplete hc) }⟩

end Chapter

/-- Nothing keeps the hunt from going through all domains. -/
def Thorough (rules : Rules σ) (s : State σ) : Prop :=
  0 < rules.concurrency ∧ s.cancelled = false

/-- The present entry is accepted and its domains are accounted for. -/
def Underway (sweep : Sweep) (admitted : List Entry) (current : List Note) : Prop :=
  ∃ entry analysis domains body,
    admitted = [entry] ∧ current = .told (.started analysis) :: body ∧
      sweep.pattern = entry.pattern ∧ Examined entry analysis domains ∧
      Accounts domains body sweep

/-- What holds within each phase of the present entry and its notes. -/
def Present (rules : Rules σ) (s : State σ) (admitted : List Entry) (current : List Note) : Prop :=
  match s.phase with
  | .boundary => admitted = [] ∧ current = []
  | .examining entry => admitted = [entry] ∧ current = []
  | .turning sweep => Underway sweep admitted current
  | .acting sweep mayLaunch =>
    Underway sweep admitted current ∧
      (mayLaunch = true → sweep.inFlight.length < rules.concurrency) ∧
      (mayLaunch = false → sweep.inFlight ≠ [])
  | .closed => admitted = [] ∧ current = [] ∧ (s.cancelled = true ∨ s.entries = [])

/-- There are notes of the present entry only while its domains are gone through. -/
theorem Present.nil_or_underway {rules : Rules σ} {s : State σ} {admitted : List Entry}
    {current : List Note} (h : Present rules s admitted current) :
    current = [] ∨ ∃ sweep, Underway sweep admitted current := by
  unfold Present at h
  split at h
  · exact .inl h.2
  · exact .inl h.2
  · exact .inr ⟨_, h⟩
  · exact .inr ⟨_, h.1⟩
  · exact .inl h.2.1

/-- The entries that were done, the present one, and those to come are the entries of the hunt. -/
structure Story (rules : Rules σ) (entries : List Entry) (s : State σ) (chapters : List Chapter)
    (admitted : List Entry) (current : List Note) : Prop where
  entries_eq : entries = chapters.map Chapter.entry ++ (admitted ++ s.entries)
  sound : ∀ chapter ∈ chapters, chapter.Sound (Thorough rules s)
  present : Present rules s admitted current

/-- The log is a story. -/
def Told (rules : Rules σ) (entries : List Entry) (s : State σ) (log : List Note) : Prop :=
  ∃ chapters admitted current,
    log = chapters.flatMap Chapter.notes ++ current ∧
      Story rules entries s chapters admitted current

/-! ### What a move does to the present entry -/

/-- A move within an entry keeps the accounts. -/
theorem Underway.move {sweep sweep' : Sweep} {admitted : List Entry} {current notes : List Note}
    (h : Underway sweep admitted current) (hpattern : sweep'.pattern = sweep.pattern)
    (hmove : ∀ domains body, Accounts domains body sweep →
      Accounts domains (body ++ notes) sweep') :
    Underway sweep' admitted (current ++ notes) := by
  obtain ⟨entry, analysis, domains, body, rfl, rfl, hentry, hexamined, haccounts⟩ := h
  exact ⟨entry, analysis, domains, body ++ notes, rfl, rfl, hpattern.trans hentry, hexamined,
    hmove domains body haccounts⟩

namespace Story

variable {rules : Rules σ} {entries admitted : List Entry} {s t : State σ}
  {chapters : List Chapter} {current notes : List Note}

/-- The present entry goes on. -/
theorem goOn (h : Story rules entries s chapters admitted current)
    (hentries : t.entries = s.entries) (hcancelled : t.cancelled = s.cancelled)
    (hpresent : Present rules t admitted (current ++ notes)) :
    Told rules entries t (chapters.flatMap Chapter.notes ++ current ++ notes) := by
  refine ⟨chapters, admitted, current ++ notes, List.append_assoc _ _ _, ?_, ?_, hpresent⟩
  · rw [hentries]
    exact h.entries_eq
  · intro chapter hchapter
    exact (h.sound chapter hchapter).mono fun hthorough => ⟨hthorough.1, hcancelled ▸ hthorough.2⟩

/-- The present entry is done. -/
theorem turnPage (h : Story rules entries s chapters admitted current) (chapter : Chapter)
    (hadmitted : admitted = [chapter.entry]) (hnotes : current ++ notes = chapter.notes)
    (hsound : chapter.Sound (Thorough rules s)) (hentries : t.entries = s.entries)
    (hcancelled : t.cancelled = s.cancelled) (hphase : t.phase = .boundary) :
    Told rules entries t (chapters.flatMap Chapter.notes ++ current ++ notes) := by
  refine ⟨chapters ++ [chapter], [], [], ?_, ?_, ?_, ?_⟩
  · simp [hnotes]
  · rw [hentries, h.entries_eq, hadmitted]
    simp
  · intro chapter' hchapter'
    have hmono : Thorough rules t → Thorough rules s :=
      fun hthorough => ⟨hthorough.1, hcancelled ▸ hthorough.2⟩
    obtain hold | rfl := by simpa using hchapter'
    · exact (h.sound chapter' hold).mono hmono
    · exact hsound.mono hmono
  · simp [Present, hphase]

/-- An entry is left when nothing is under way and nothing may be launched. -/
theorem finish (h : Story rules entries s chapters admitted current) {sweep : Sweep}
    (hunderway : Underway sweep admitted current)
    (hblocked : canLaunch rules s.cancelled sweep = false) (hidle : sweep.inFlight = []) :
    Told rules entries (s.finish sweep.pattern)
      (chapters.flatMap Chapter.notes ++ current ++ [.told (.finished sweep.pattern)]) := by
  obtain ⟨entry, analysis, domains, body, hadmitted, rfl, hpattern, hexamined, haccounts⟩ :=
    hunderway
  refine h.turnPage (.hunted entry analysis body) hadmitted ?_ ?_ rfl rfl rfl
  · rw [hpattern]
    rfl
  · exact ⟨domains, hexamined, haccounts.settled hblocked hidle⟩

end Story

/-- After any move the log is a story again. -/
theorem told_of_move {rules : Rules σ} {entries : List Entry} {s t : State σ}
    {action : Action} {log notes : List Note} (h : Told rules entries s log)
    (hmove : Moves rules s action notes t) :
    Told rules entries t (log ++ notes) := by
  obtain ⟨chapters, admitted, current, rfl, hstory⟩ := h
  have hpresent := hstory.present
  unfold Present at hpresent
  cases hmove with
  | cancel =>
    -- The raised flag ends the hope for completeness, so that the chapters stay sound.
    refine ⟨chapters, admitted, current, by simp, hstory.entries_eq, ?_, ?_⟩
    · intro chapter hchapter
      exact (hstory.sound chapter hchapter).mono fun hthorough => absurd hthorough.2 (by simp)
    · unfold Present
      split at hpresent <;> simp_all
  | close hphase hdone =>
    simp only [hphase] at hpresent
    refine hstory.goOn rfl rfl ?_
    simpa [Present] using ⟨hpresent.1, hpresent.2, hdone⟩
  | take hphase hentries hopen =>
    simp only [hphase] at hpresent
    obtain ⟨rfl, rfl⟩ := hpresent
    refine ⟨chapters, _, [], List.append_nil _, ?_, ?_, ⟨rfl, rfl⟩⟩
    · rw [hstory.entries_eq, hentries]
      rfl
    · exact fun chapter hchapter => (hstory.sound chapter hchapter).mono id
  | @reject entry words error hphase hexamine =>
    simp only [hphase] at hpresent
    obtain ⟨hadmitted, rfl⟩ := hpresent
    exact hstory.turnPage (.rejected entry error) hadmitted rfl
      (examine_error hexamine) rfl rfl rfl
  | @begin entry words analysis source hphase hexamine =>
    simp only [hphase] at hpresent
    obtain ⟨hadmitted, rfl⟩ := hpresent
    refine hstory.goOn rfl rfl ?_
    exact ⟨entry, analysis, source.toList, [], hadmitted, rfl, rfl, ⟨words, source, hexamine, rfl⟩,
      .start _ _⟩
  | finish hphase hblocked hidle =>
    simp only [hphase] at hpresent
    exact hstory.finish hpresent hblocked hidle
  | @settle sweep mayLaunch hphase hmay hlive =>
    simp only [hphase] at hpresent
    refine hstory.goOn rfl rfl ?_
    rw [List.append_nil]
    refine ⟨hpresent, ?_, hlive⟩
    rintro rfl
    simp only [canLaunch, Bool.and_eq_true, decide_eq_true_eq] at hmay
    exact hmay.2
  | exhaust hphase hpending hnext =>
    simp only [hphase] at hpresent
    refine hstory.goOn rfl rfl (hpresent.1.move rfl fun domains body haccounts => ?_)
    rw [List.append_nil]
    exact haccounts.exhaust hpending hnext
  | skip hphase hpending hnext hknown =>
    simp only [hphase] at hpresent
    exact hstory.goOn rfl rfl (hpresent.1.move rfl fun domains body haccounts =>
      haccounts.skip hnext)
  | pend hphase hpending hnext hnew =>
    simp only [hphase] at hpresent
    refine hstory.goOn rfl rfl (hpresent.1.move rfl fun domains body haccounts => ?_)
    rw [List.append_nil]
    exact haccounts.pend hpending hnext
  | launch hphase hpending =>
    simp only [hphase] at hpresent
    exact hstory.goOn rfl rfl (hpresent.1.move rfl fun domains body haccounts =>
      haccounts.launch hpending)
  | complete hphase hselect hplace =>
    simp only [hphase] at hpresent
    exact hstory.goOn (entries_checkpoint rules _) (State.checkpoint_frame rules _).1
      (hpresent.1.move rfl fun domains body haccounts => haccounts.complete _ hplace)
  | giveUp hphase hidle =>
    -- Nothing to launch and nothing under way: this was ruled out when the flag was read.
    simp only [hphase] at hpresent
    exact absurd hidle (hpresent.2.2 trivial)

/-! ### Runs -/

theorem told_start (rules : Rules σ) (entries : List Entry) (cancelled : Bool) (cache : Cache)
    (disk : σ) : Told rules entries (.start entries cancelled cache disk) [] :=
  ⟨[], [], [], rfl, rfl, nofun, rfl, rfl⟩

/-- The log of every run from a start is a story. -/
theorem told_of_runs {rules : Rules σ} {entries : List Entry} {cancelled : Bool} {cache : Cache}
    {disk : σ} {log : List Note} {t : State σ}
    (h : Runs rules (.start entries cancelled cache disk) log t) : Told rules entries t log := by
  induction h with
  | refl => exact told_start rules entries cancelled cache disk
  | snoc hruns hstep ih => exact told_of_move ih (moves_of_step hstep)

/-- An entry is not done while it is the present one. -/
theorem Present.not_finished {rules : Rules σ} {s : State σ} {admitted : List Entry}
    {current : List Note} (h : Present rules s admitted current) (pattern : String) :
    .told (.finished pattern) ∉ current := by
  obtain rfl | ⟨sweep, entry, analysis, domains, body, -, rfl, -, -, haccounts⟩ := h.nil_or_underway
  · exact List.not_mem_nil
  · intro hmem
    obtain hfirst | hbody := List.mem_cons.1 hmem
    · cases hfirst
    · exact absurd (haccounts.inner _ hbody) (by simp)

/-- At the end there is no present entry, and none is left out unless the flag was raised. -/
theorem Story.atEnd {rules : Rules σ} {entries admitted : List Entry} {t : State σ}
    {current : List Note} {chapters : List Chapter}
    (h : Story rules entries t chapters admitted current) (hclosed : t.phase = .closed) :
    current = [] ∧ (t.cancelled = false → chapters.map Chapter.entry = entries) := by
  have hpresent := h.present
  simp only [Present, hclosed] at hpresent
  obtain ⟨rfl, hcurrent, hdone⟩ := hpresent
  refine ⟨hcurrent, fun hopen => ?_⟩
  have hentries : t.entries = [] := by simpa [hopen] using hdone
  simpa [hentries] using h.entries_eq.symm

/-! ### Chronicles -/

/-- A chapter is part of the log. -/
theorem notes_subset_of_mem {chapters : List Chapter} {chapter : Chapter}
    (h : chapter ∈ chapters) (current : List Note) :
    chapter.notes ⊆ chapters.flatMap Chapter.notes ++ current :=
  fun _ hnote => List.mem_append_left _ (List.mem_flatMap.2 ⟨chapter, h, hnote⟩)

theorem body_subset_notes (entry : Entry) (analysis : Analysis) (body : List Note) :
    body ⊆ (Chapter.hunted entry analysis body).notes :=
  fun _ hnote => List.mem_cons_of_mem _ (List.mem_append_left _ hnote)

/-- A log in chapters, one for each entry that was done, and the notes of the present one. -/
structure Chronicle (entries : List Entry) (t : State σ) (log : List Note)
    (chapters : List Chapter) (current : List Note) : Prop where
  log_eq : log = chapters.flatMap Chapter.notes ++ current
  /-- The present entry is not done. -/
  unfinished : ∀ pattern, .told (.finished pattern) ∉ current
  inOrder : chapters.map Chapter.entry <+: entries
  /-- At the end there is no present entry, and none is left out unless the flag was raised. -/
  atEnd : t.phase = .closed →
    current = [] ∧ (t.cancelled = false → chapters.map Chapter.entry = entries)
  rejected : ∀ entry error, .rejected entry error ∈ chapters →
    ∀ words, examine entry words = .error error
  accepted : ∀ entry analysis body, .hunted entry analysis body ∈ chapters →
    (∃ domains, Examined entry analysis domains) ∧ ∀ note ∈ body, note.isInner = true
  /-- Each launch has its one outcome, after it and before the entry is done. -/
  answered : ∀ entry analysis body, .hunted entry analysis body ∈ chapters →
    (checkedIn body).Perm (launchedIn body) ∧ Ordered body
  /-- Nothing is skipped or checked that is no domain of the entry, nor more often. -/
  within : ∀ entry analysis body domains, .hunted entry analysis body ∈ chapters →
    Examined entry analysis domains → (skippedIn body ++ checkedIn body).Subperm domains
  /-- All domains of the entry are skipped or checked unless the flag was raised. -/
  whole : t.cancelled = false →
    ∀ entry analysis body domains, .hunted entry analysis body ∈ chapters →
      Examined entry analysis domains → (skippedIn body ++ checkedIn body).Perm domains

theorem Story.chronicle {rules : Rules σ} {entries admitted : List Entry} {t : State σ}
    {log current : List Note} {chapters : List Chapter} (hconcurrency : 1 ≤ rules.concurrency)
    (hlog : log = chapters.flatMap Chapter.notes ++ current) (htruthful : Truthful log)
    (h : Story rules entries t chapters admitted current) :
    Chronicle entries t log chapters current := by
  have hbody : ∀ entry analysis body, .hunted entry analysis body ∈ chapters → Truthful body := by
    intro entry analysis body hmem
    rw [hlog] at htruthful
    exact (htruthful.mono (notes_subset_of_mem hmem current)).mono (body_subset_notes _ _ _)
  exact
    { log_eq := hlog
      unfinished := h.present.not_finished
      inOrder := ⟨_, h.entries_eq.symm⟩
      atEnd := h.atEnd
      rejected := fun entry error hmem => h.sound _ hmem
      accepted := by
        intro entry analysis body hmem
        obtain ⟨domains, hexamined, hsettled⟩ := h.sound _ hmem
        exact ⟨⟨domains, hexamined⟩, hsettled.inner⟩
      answered := by
        intro entry analysis body hmem
        obtain ⟨domains, hexamined, hsettled⟩ := h.sound _ hmem
        have htrue := hbody entry analysis body hmem
        exact ⟨hsettled.checkedIn_perm htrue, hsettled.orderly.ordered hsettled.echoed htrue⟩
      within := by
        intro entry analysis body domains hmem hexamined
        obtain ⟨domains', hexamined', hsettled⟩ := h.sound _ hmem
        have hchecked := hsettled.checkedIn_perm (hbody entry analysis body hmem)
        refine (((List.perm_append_left_iff _).2 hchecked).subperm).trans ?_
        exact hsettled.within.trans (hexamined'.perm hexamined).2.subperm
      whole := by
        intro hopen entry analysis body domains hmem hexamined
        obtain ⟨domains', hexamined', hsettled⟩ := h.sound _ hmem
        have hchecked := hsettled.checkedIn_perm (hbody entry analysis body hmem)
        refine ((List.perm_append_left_iff _).2 hchecked).trans ?_
        exact (hsettled.whole ⟨hconcurrency, hopen⟩).trans (hexamined'.perm hexamined).2 }

/-- The log of every truthful run is a chronicle: launches have their outcomes before their entry is
done, and unless the flag is raised, the domains that are skipped or checked are those of the
entry. -/
theorem Runs.exists_chronicle {rules : Rules σ} {entries : List Entry} {cancelled : Bool}
    {cache : Cache} {disk : σ} {log : List Note} {t : State σ}
    (hconcurrency : 1 ≤ rules.concurrency)
    (h : Runs rules (.start entries cancelled cache disk) log t) (htruthful : Truthful log) :
    ∃ chapters current, Chronicle entries t log chapters current := by
  obtain ⟨chapters, admitted, current, hlog, hstory⟩ := told_of_runs h
  exact ⟨chapters, current, hstory.chronicle hconcurrency hlog htruthful⟩

theorem exists_chronicle_of_doubled :
    ∃ log, 1 ≤ twoAtOnce.concurrency ∧
      Runs twoAtOnce (.start [doubled] false eightSlots ()) log (huntDoubled eightSlots) ∧
      Truthful log ∧
      (huntDoubled eightSlots).phase = .closed ∧ (huntDoubled eightSlots).cancelled = false ∧
      ∃ chapters current, Chronicle [doubled] (huntDoubled eightSlots) log chapters current := by
  obtain ⟨log, hruns, hclosed, hopen, htruthful, -⟩ := runs_huntDoubled eightSlots
  exact ⟨log, by decide, hruns, htruthful, hclosed, hopen,
    Runs.exists_chronicle (by decide) hruns htruthful⟩

end NameHunt.Hunt
