import NameHunt.Proofs.Hunt.Cancellation
import NameHunt.Proofs.Hunt.Narration

/-!
# What rejected entries do to a hunt

An entry that is left out costs nothing but itself. A hunt of the entries without a fault does what
the hunt of all entries does, which takes the others in between and reports that they are left out.

* `sift`, `State.sifted`: a log and a state without the entries that have a fault.
* `State.Ready`: the next entry to be examined has no fault.
* `Moves.sifted`, `Moves.sifted_of_not_ready`: a move is the same move there, or none at all.
* `Runs.sifted`: a run is a run without the entries that have a fault.
* `exists_ready`: entries with a fault can always be left out first.
* `Runs.exists_of_sifted`: a run without them comes from one with them.
* `Narrative`: what can be told of the hunts of some entries.
* `narrative`: it can be told of all.
-/

namespace NameHunt.Hunt

variable {σ : Type} {rules : Rules σ} {s t : State σ} {action : Action} {log notes : List Note}

/-! ### Without the entries that have a fault -/

/-- Whether an entry is left out. -/
def Note.isRejection : Note → Bool
  | told event => event.isRejected
  | _ => false

/-- A log without the rejections. -/
def sift (log : List Note) : List Note :=
  log.filter fun note => !note.isRejection

/-- While an entry with a fault is examined, the hunt might as well be before the next one. -/
def Phase.sifted : Phase → Phase
  | examining entry => if entry.isAccepted then examining entry else boundary
  | phase => phase

/-- A hunt as it is if the entries that have a fault are not there. -/
def State.sifted (s : State σ) : State σ :=
  { s with
    phase := s.phase.sifted
    entries := s.entries.filter Entry.isAccepted
    summary := { s.summary with rejected := 0 }
    events := s.events.filter fun event => !event.isRejected }

theorem sift_append (log log' : List Note) : sift (log ++ log') = sift log ++ sift log' :=
  List.filter_append _ _

/-- Nothing is lost of what comes back. -/
theorem truthful_sift (log : List Note) : Truthful (sift log) ↔ Truthful log := by
  refine ⟨fun h domain outcome hmem => ?_, fun h => h.mono (List.filter_subset_self _)⟩
  exact h domain outcome (List.mem_filter.2 ⟨hmem, rfl⟩)

theorem sift_checkpointNotes (rules : Rules σ) (s : State σ) :
    sift (s.checkpointNotes rules) = s.checkpointNotes rules := by
  obtain h | h := s.checkpointNotes_eq rules <;> rw [h] <;> rfl

theorem sifted_record (s : State σ) (outcome : Outcome) :
    (s.record outcome).sifted = s.sifted.record outcome := by
  obtain ⟨domain, available, success, duration, error⟩ := outcome
  cases success <;> cases available <;> rfl

theorem sifted_checkpoint (rules : Rules σ) (s : State σ) :
    (s.checkpoint rules).sifted = s.sifted.checkpoint rules := by
  unfold State.checkpoint
  cases rules.save with
  | none => rfl
  | some save =>
    show State.sifted (if rules.checkpointEvery ≤ s.sinceCheckpoint then _ else s) =
      if rules.checkpointEvery ≤ s.sinceCheckpoint then _ else _
    split
    · cases hsaved : (save s.cache s.disk).2 <;> simp [State.sifted, hsaved, Event.isRejected]
    · rfl

/-! ### Entries that are about to be examined -/

/-- The entry that is examined or would be taken next. -/
def State.upNext (s : State σ) : Option Entry :=
  match s.phase with
  | .examining entry => some entry
  | .boundary => s.takable.head?
  | _ => none

/-- The next entry to be examined has no fault. -/
def State.Ready (s : State σ) : Prop :=
  ∀ entry ∈ s.upNext, entry.isAccepted = true

theorem upNext_of_examining {entry : Entry} (h : s.phase = .examining entry) :
    s.upNext = some entry := by
  simp only [State.upNext, h]

theorem upNext_of_open {entry : Entry} {rest : List Entry} (h : s.phase = .boundary)
    (hentries : s.entries = entry :: rest) (hopen : s.cancelled = false) :
    s.upNext = some entry := by
  simp [State.upNext, State.takable, h, hentries, hopen]

theorem upNext_of_done (h : s.phase = .boundary) (hdone : s.cancelled = true ∨ s.entries = []) :
    s.upNext = none := by
  obtain hraised | hempty := hdone
  · simp [State.upNext, State.takable, h, hraised]
  · simp [State.upNext, State.takable, h, hempty]

theorem sifted_phase_of_ready (h : s.Ready) : s.sifted.phase = s.phase := by
  show s.phase.sifted = s.phase
  cases hphase : s.phase with
  | examining entry => exact if_pos (h entry (upNext_of_examining hphase))
  | _ => rfl

/-- Raising the flag, and all that a hunt does whose next entry has no fault, is the same without
the entries that have one. -/
theorem Moves.sifted (h : Moves rules s action notes t) (hready : action = .cancel ∨ s.Ready) :
    Moves rules s.sifted action (sift notes) t.sifted := by
  cases h with
  | cancel => exact .cancel
  | close hphase hdone =>
    refine .close (congrArg Phase.sifted hphase) (hdone.imp_right fun hempty => ?_)
    exact congrArg (List.filter Entry.isAccepted) hempty
  | @take entry rest hphase hentries hopen =>
    have haccepted : entry.isAccepted = true :=
      hready.resolve_left nofun entry (upNext_of_open hphase hentries hopen)
    have hnext : s.sifted.entries = entry :: rest.filter Entry.isAccepted := by
      rw [← List.filter_cons_of_pos haccepted, ← hentries]
      rfl
    have htaken : Phase.sifted (.examining entry) = .examining entry := if_pos haccepted
    have hmove : Moves rules s.sifted .look [] _ := .take (congrArg Phase.sifted hphase) hnext hopen
    rw [← htaken] at hmove
    exact hmove
  | reject hphase hexamine =>
    have haccepted := hready.resolve_left nofun _ (upNext_of_examining hphase)
    rw [isAccepted_of_error hexamine] at haccepted
    cases haccepted
  | begin hphase hexamine =>
    refine .begin ((congrArg Phase.sifted hphase).trans ?_) hexamine
    exact if_pos (isAccepted_of_examine hexamine)
  | finish hphase hblocked hidle => exact .finish (congrArg Phase.sifted hphase) hblocked hidle
  | settle hphase hmay hlive => exact .settle (congrArg Phase.sifted hphase) hmay hlive
  | exhaust hphase hpending hnext =>
    exact .exhaust (congrArg Phase.sifted hphase) hpending hnext
  | skip hphase hpending hnext hknown =>
    exact .skip (congrArg Phase.sifted hphase) hpending hnext hknown
  | pend hphase hpending hnext hnew =>
    exact .pend (congrArg Phase.sifted hphase) hpending hnext hnew
  | launch hphase hpending => exact .launch (congrArg Phase.sifted hphase) hpending
  | @complete sweep mayLaunch place domain outcome hphase hselect hplace =>
    have hmove : Moves rules s.sifted (.complete place outcome) _ _ :=
      .complete (congrArg Phase.sifted hphase) hselect hplace
    have hnotes : sift (.returned domain outcome :: .told (.checked outcome) ::
          (s.record outcome).checkpointNotes rules) =
        .returned domain outcome :: .told (.checked outcome) ::
          (s.sifted.record outcome).checkpointNotes rules :=
      congrArg (fun notes => _ :: _ :: notes) (sift_checkpointNotes rules (s.record outcome))
    have hrecorded : ((s.record outcome).checkpoint rules).sifted =
        (s.sifted.record outcome).checkpoint rules :=
      (sifted_checkpoint rules _).trans (congrArg _ (sifted_record s outcome))
    have hstate : (s.complete rules sweep place outcome).sifted =
        s.sifted.complete rules sweep place outcome := by
      unfold State.complete
      rw [← hrecorded]
      rfl
    rw [hnotes, hstate]
    exact hmove
  | giveUp hphase hidle => exact .giveUp (congrArg Phase.sifted hphase) hidle

/-- What a hunt does whose next entry has a fault, is nothing without the entries that have one. -/
theorem Moves.sifted_of_not_ready (h : Moves rules s action notes t) (hready : ¬ s.Ready)
    (hcancel : action ≠ .cancel) : t.sifted = s.sifted ∧ sift notes = [] := by
  simp only [State.Ready, not_forall] at hready
  obtain ⟨entry, hentry, hfault⟩ := hready
  rw [Bool.not_eq_true] at hfault
  cases h with
  | cancel => exact absurd rfl hcancel
  | close hphase hdone => simp [upNext_of_done hphase hdone] at hentry
  | take hphase hentries hopen =>
    obtain rfl : _ = entry := by simpa [upNext_of_open hphase hentries hopen] using hentry
    refine ⟨?_, rfl⟩
    simp [State.sifted, Phase.sifted, hphase, hentries, hfault]
  | reject hphase hexamine =>
    obtain rfl : _ = entry := by simpa [upNext_of_examining hphase] using hentry
    refine ⟨?_, rfl⟩
    simp [State.sifted, State.reject, Phase.sifted, Event.isRejected, hphase, hfault]
  | begin hphase hexamine =>
    obtain rfl : _ = entry := by simpa [upNext_of_examining hphase] using hentry
    rw [isAccepted_of_examine hexamine] at hfault
    cases hfault
  | finish hphase | settle hphase | exhaust hphase | skip hphase | pend hphase | launch hphase
  | complete hphase | giveUp hphase => simp [State.upNext, hphase] at hentry

/-! ### Runs -/

/-- A run is a run without the entries that have a fault. -/
theorem Runs.sifted (h : Runs rules s log t) : Runs rules s.sifted (sift log) t.sifted := by
  induction h with
  | refl => exact .refl _
  | @snoc t u log action hruns hstep ih =>
    have hmove := moves_of_step hstep
    rw [sift_append]
    by_cases hready : action = .cancel ∨ t.Ready
    · exact ih.trans (hmove.sifted hready).runs
    · obtain ⟨hcancel, hfault⟩ := not_or.1 hready
      obtain ⟨hsame, hnone⟩ := hmove.sifted_of_not_ready hfault hcancel
      rwa [hsame, hnone, List.append_nil]

/-- Entries that have a fault can be left out before anything else is done. -/
theorem exists_ready (rules : Rules σ) (s : State σ) :
    ∃ log t, Runs rules s log t ∧ sift log = [] ∧ t.sifted = s.sifted ∧ t.Ready := by
  by_cases hready : s.Ready
  · exact ⟨[], s, .refl s, rfl, rfl, hready⟩
  · -- The hunt can go on, and until the entry is left out nothing else can happen.
    have hopen : s.phase ≠ .closed := by
      intro hclosed
      exact hready fun entry hentry => by simp [State.upNext, hclosed] at hentry
    obtain ⟨action, t, hacts, -, hstep⟩ := exists_step_of_open rules hopen
    have hcancel : action ≠ .cancel := by
      rintro rfl
      cases hacts
    obtain ⟨hsame, hnone⟩ :=
      (moves_of_step hstep).sifted_of_not_ready hready hcancel
    obtain ⟨log, u, hruns, hlog, hsifted, hu⟩ := exists_ready rules t
    refine ⟨_, u, (Runs.of_step hstep).trans hruns, ?_, hsifted.trans hsame, hu⟩
    rw [sift_append, hnone, hlog, List.append_nil]
termination_by s.progress
decreasing_by exact step_progress hstep hcancel

/-- Whether an action is possible is up to the phase alone. -/
theorem isSome_step_congr {s' : State σ} (h : s'.phase = s.phase) (action : Action) :
    (step rules s' action).isSome = (step rules s action).isSome := by
  cases action with
  | cancel => rfl
  | look =>
    by_cases hboundary : s.phase = .boundary
    · rw [step_look rules hboundary, step_look rules (h.trans hboundary)]
      split <;> split <;> rfl
    · rw [step_look_of_ne hboundary, step_look_of_ne (h ▸ hboundary)]
  | launch =>
    simp only [step, h]
    split
    · rw [Option.isSome_map, Option.isSome_map]
    · rfl
  | settle =>
    simp only [step, h]
    split
    · split <;> split <;> rfl
    · rfl
  | examine | pull | complete | giveUp =>
    simp only [step, h]
    split
    · split <;> rfl
    · rfl

/-- A run without the entries that have a fault comes from a run with them. -/
theorem Runs.exists_of_sifted {log' : List Note} {t' : State σ}
    (h : Runs rules s.sifted log' t') :
    ∃ log t, Runs rules s log t ∧ sift log = log' ∧ t.sifted = t' := by
  generalize hs : s.sifted = s' at h
  induction h with
  | refl => exact ⟨[], s, .refl s, rfl, hs⟩
  | @snoc t₁ u₁ log₁ action hruns hstep ih =>
    obtain ⟨log, t, hlog, rfl, rfl⟩ := ih
    -- The entries with a fault are left out first, so that the phases agree.
    obtain ⟨more, u, hmore, hnone, hsame, hready⟩ := exists_ready rules t
    rw [← hsame] at hstep ⊢
    have hphase := sifted_phase_of_ready hready
    have hpossible : (step rules u action).isSome = true := by
      rw [← isSome_step_congr hphase, hstep, Option.isSome_some]
    obtain ⟨v, hv⟩ := Option.isSome_iff_exists.1 hpossible
    have hmove := (moves_of_step hv).sifted (.inr hready)
    obtain rfl : v.sifted = u₁ := Option.some.inj (hmove.step_eq.symm.trans hstep)
    refine ⟨_, v, (hlog.trans hmore).trans (.of_step hv), ?_, rfl⟩
    rw [sift_append, sift_append, hnone, List.append_nil, hmove.notesTo_eq]

/-! ### The hunts of some entries -/

/-- What can be told of the hunts of some entries. -/
structure Narrative (rules : Rules σ) (entries : List Entry) (cancelled : Bool) (cache : Cache)
    (disk : σ) : Prop where
  /-- The events of a hunt whose look-ups speak of the domains they were launched for come in
  blocks, one for each entry, and the totals count them. -/
  narrated : ∀ log t, Runs rules (.start entries cancelled cache disk) log t → Truthful log →
    ∃ blocks present, Narrated entries t blocks present
  /-- The hunts of the entries without a fault are the hunts of all, without the rejections and
  without their total. -/
  sifted : ∀ log' t',
    Runs rules (.start (entries.filter Entry.isAccepted) cancelled cache disk) log' t' ↔
      ∃ log t, Runs rules (.start entries cancelled cache disk) log t ∧ sift log = log' ∧
        t.sifted = t'
  /-- Look-ups speak of the same domains in both. -/
  truthful : ∀ log, Truthful (sift log) ↔ Truthful log

/-- The events of every hunt come in blocks, and entries that have a fault add nothing but their
rejections. -/
theorem narrative (hevery : 1 ≤ rules.checkpointEvery) (entries : List Entry) (cancelled : Bool)
    (cache : Cache) (disk : σ) : Narrative rules entries cancelled cache disk where
  narrated := fun log t hruns htruthful => hruns.exists_narrated hevery htruthful
  sifted := by
    intro log' t'
    constructor
    · exact fun hruns => Runs.exists_of_sifted (s := .start entries cancelled cache disk) hruns
    · rintro ⟨log, t, hruns, rfl, rfl⟩
      exact hruns.sifted
  truthful := truthful_sift

/-- A pattern with a space in it. -/
def spaced : Entry where
  pattern := "a b"
  extensions := [".com"]

/-- One entry is left out and one is hunted. Without the former the hunt of the latter is the
same. -/
theorem narrative_spaced :
    1 ≤ (twoAtOnce.flaky fun _ => false).checkpointEvery ∧
      Narrative (twoAtOnce.flaky fun _ => false) [spaced, doubled] false eightSlots 0 ∧
      spaced.fault? = some .containsSpace ∧ doubled.fault? = none ∧
      ∃ log t, Runs (twoAtOnce.flaky fun _ => false) (.start [spaced, doubled] false eightSlots 0)
          log t ∧
        Truthful log ∧ t.phase = .closed ∧
        (∃ blocks, Narrated [spaced, doubled] t blocks [] ∧
          blocks.map Prod.fst = [spaced, doubled]) ∧
        Runs (twoAtOnce.flaky fun _ => false) (.start [doubled] false eightSlots 0) (sift log)
          t.sifted := by
  have hall : Narrative (twoAtOnce.flaky fun _ => false) [spaced, doubled] false eightSlots 0 :=
    narrative (by decide) [spaced, doubled] false eightSlots 0
  obtain ⟨log, hruns, hclosed, hopen, htruthful, -⟩ := Scene.exists_runs_taken
    (twoAtOnce.flaky fun _ => false) (.start [spaced, doubled] false eightSlots 0)
  obtain ⟨blocks, present, hnarrated⟩ := hall.narrated _ _ hruns htruthful
  obtain ⟨rfl, hentries⟩ := hnarrated.atEnd hclosed
  have haccepted : [spaced, doubled].filter Entry.isAccepted = [doubled] := by decide
  have hsifted := (hall.sifted _ _).2 ⟨log, _, hruns, rfl, rfl⟩
  rw [haccepted] at hsifted
  exact ⟨by decide, hall, by decide, by decide, log, _, hruns, htruthful, hclosed,
    ⟨blocks, hnarrated, hentries hopen⟩, hsifted⟩

end NameHunt.Hunt
