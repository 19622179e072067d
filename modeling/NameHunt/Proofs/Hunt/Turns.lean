import NameHunt.Proofs.Hunt.Actions
import NameHunt.Proofs.Hunt.Cancellation

/-!
# The loop through the domains of an entry

Within an entry a hunt reads the flag and takes a turn, over and over: it pulls a domain, or finds
that there is none, or launches one, or waits for a look-up. Each turn leaves less to do, whatever
the look-ups say and in whatever order they come back, and there is always a turn to take until the
entry is left.

* `Sweep.work`: what is left to do for an entry.
* `Sweep.Tidy`, `Phase.Tidy`: what holds of the domains at every point of the loop.
* `Turn`, `Moves.turn`: all that an action does to the domains of an entry.
* `countP_add_le`: a row of actions takes no more turns than there was to do.
* `Looped`: what holds of the loop in every state that a hunt can come to.
* `Reached.looped`: it does.
-/

namespace NameHunt.Hunt

variable {σ : Type} {rules : Rules σ} {s t : State σ} {action : Action} {actions : List Action}
  {notes : List Note}

/-! ### What is left to do -/

namespace Sweep

/-- An entry whose domains are all to come. -/
def fresh (pattern : String) (source : Candidates) : Sweep :=
  { pattern, source, pending := none, inFlight := [], exhausted := false }

/-- What is left to do: three turns for a domain that is to come, two for one that is pending, one
for a look-up that is under way, and one to find that no domain is left. -/
def work (sweep : Sweep) : Nat :=
  3 * sweep.source.toList.length + 2 * sweep.pending.toList.length + sweep.inFlight.length +
    (!sweep.exhausted).toNat

/-- No more look-ups are under way than may be, and nothing is pending when no domain is left. -/
structure Tidy (concurrency : Nat) (sweep : Sweep) : Prop where
  room : sweep.inFlight.length ≤ concurrency
  drained : sweep.exhausted = true → sweep.pending = none

theorem tidy_fresh (concurrency : Nat) (pattern : String) (source : Candidates) :
    (fresh pattern source).Tidy concurrency :=
  ⟨Nat.zero_le concurrency, nofun⟩

theorem work_fresh (pattern : String) (source : Candidates) :
    (fresh pattern source).work = 3 * source.toList.length + 1 :=
  rfl

end Sweep

namespace Phase

/-- The domains of the present entry. -/
def sweep? : Phase → Option Sweep
  | turning sweep | acting sweep _ => some sweep
  | _ => none

/-- What is left to do for the present entry. -/
def work (phase : Phase) : Nat :=
  (phase.sweep?.map Sweep.work).getD 0

/-- The domains of the present entry are tidy. After the flag was read there is room for a look-up
that may be launched, and otherwise one to wait for. -/
def Tidy (concurrency : Nat) : Phase → Prop
  | turning sweep => sweep.Tidy concurrency
  | acting sweep mayLaunch => sweep.Tidy concurrency ∧
      (mayLaunch = true → sweep.exhausted = false ∧ sweep.inFlight.length < concurrency) ∧
      (mayLaunch = false → sweep.inFlight ≠ [])
  | _ => True

/-- How many actions of the loop are left at most: before each turn the flag is read. -/
def span : Phase → Nat
  | turning sweep => 2 * sweep.work + 1
  | acting sweep _ => 2 * sweep.work
  | _ => 0

theorem Tidy.of_sweep? {concurrency : Nat} {phase : Phase} {sweep : Sweep}
    (h : phase.Tidy concurrency) (hsweep : phase.sweep? = some sweep) :
    sweep.Tidy concurrency := by
  cases phase with
  | turning sweep' => exact Option.some.inj hsweep ▸ h
  | acting sweep' mayLaunch => exact Option.some.inj hsweep ▸ h.1
  | _ => cases hsweep

end Phase

/-- What is under way is under way for the present entry. -/
theorem State.inFlight_eq (s : State σ) :
    s.inFlight = (s.phase.sweep?.map Sweep.inFlight).getD [] := by
  cases hphase : s.phase <;> simp [State.inFlight, Phase.sweep?, hphase]

namespace Action

/-- A turn is taken. -/
def turns : Action → Bool
  | pull | launch | complete _ _ => true
  | _ => false

/-- The flag is read within an entry, or a turn is taken. -/
def loops : Action → Bool
  | settle | giveUp => true
  | action => action.turns

end Action

/-! ### One action -/

/-- The domains of the present entry are tidy after every action. -/
theorem Moves.tidy (h : Moves rules s action notes t) (hs : s.phase.Tidy rules.concurrency) :
    t.phase.Tidy rules.concurrency := by
  cases h with
  | cancel => exact hs
  | begin => exact Sweep.tidy_fresh _ _ _
  | settle hphase hmay hlive =>
    simp only [Phase.Tidy, hphase] at hs
    refine ⟨hs, ?_, hlive⟩
    rintro rfl
    simp only [canLaunch, Bool.and_eq_true, Bool.not_eq_true', decide_eq_true_eq] at hmay
    exact ⟨hmay.1.1, hmay.2⟩
  | exhaust hphase hpending =>
    simp only [Phase.Tidy, hphase] at hs
    exact ⟨hs.1.room, fun _ => hpending⟩
  | skip hphase hpending =>
    simp only [Phase.Tidy, hphase] at hs
    exact ⟨hs.1.room, fun _ => hpending⟩
  | pend hphase hpending =>
    simp only [Phase.Tidy, hphase] at hs
    refine ⟨hs.1.room, fun hexhausted => ?_⟩
    simp [(hs.2.1 trivial).1] at hexhausted
  | launch hphase hpending =>
    simp only [Phase.Tidy, hphase] at hs
    refine ⟨?_, fun _ => rfl⟩
    rw [List.length_append, List.length_singleton]
    exact (hs.2.1 trivial).2
  | complete hphase =>
    simp only [Phase.Tidy, hphase] at hs
    exact ⟨(List.length_eraseIdx_le _ _).trans hs.1.room, hs.1.drained⟩
  | _ => exact trivial

/-- All that an action does to the domains of an entry. -/
inductive Turn (s t : State σ) : Action → Prop
  | raise (ht : t.phase = s.phase) : Turn s t .cancel
  | look (hs : s.phase.sweep? = none) (ht : t.phase.sweep? = none) : Turn s t .look
  | examine {words : Words} (hs : s.phase.sweep? = none) : Turn s t (.examine words)
  | read {sweep : Sweep} {mayLaunch : Bool} (hs : s.phase = .turning sweep)
      (ht : t.phase = .acting sweep mayLaunch) : Turn s t .settle
  | leave {sweep : Sweep} (hs : s.phase = .turning sweep) (hidle : sweep.inFlight = [])
      (ht : t.phase = .boundary) : Turn s t .settle
  | turn {sweep sweep' : Sweep} {mayLaunch : Bool} {action : Action}
      (hturns : action.turns = true) (hs : s.phase = .acting sweep mayLaunch)
      (ht : t.phase = .turning sweep') (hless : sweep'.work < sweep.work) : Turn s t action

/-- An action does nothing else. A turn takes a domain one place on, or finds that there is none. -/
theorem Moves.turn (h : Moves rules s action notes t) (hs : s.phase.Tidy rules.concurrency) :
    Turn s t action := by
  cases h with
  | cancel => exact .raise rfl
  | close hphase => exact .look (by rw [hphase]; rfl) rfl
  | take hphase => exact .look (by rw [hphase]; rfl) rfl
  | reject hphase => exact .examine (by rw [hphase]; rfl)
  | begin hphase => exact .examine (by rw [hphase]; rfl)
  | finish hphase hblocked hidle => exact .leave hphase hidle rfl
  | settle hphase => exact .read hphase rfl
  | exhaust hphase hpending hnext =>
    simp only [Phase.Tidy, hphase] at hs
    refine .turn rfl hphase rfl ?_
    simp [Sweep.work, (hs.2.1 trivial).1]
  | skip hphase hpending hnext =>
    refine .turn rfl hphase rfl ?_
    simp [Sweep.work, Candidates.toList_of_next? hnext]
  | pend hphase hpending hnext =>
    refine .turn rfl hphase rfl ?_
    simp [Sweep.work, hpending, Candidates.toList_of_next? hnext]
    omega
  | launch hphase hpending =>
    refine .turn rfl hphase rfl ?_
    simp [Sweep.work, hpending]
    omega
  | @complete sweep mayLaunch place domain outcome hphase hselect hplace =>
    have hlt : place < sweep.inFlight.length := (List.getElem?_eq_some_iff.1 hplace).1
    refine .turn rfl hphase rfl ?_
    simp only [Sweep.work, List.length_eraseIdx_of_lt hlt]
    omega
  | giveUp hphase hidle =>
    simp only [Phase.Tidy, hphase] at hs
    exact absurd hidle (hs.2.2 trivial)

theorem Turn.work (h : Turn s t action) (hexamines : action.examines = false) :
    action.turns.toNat + t.phase.work ≤ s.phase.work := by
  cases h with
  | raise ht => simp [Action.turns, ht]
  | look hs ht => simp [Action.turns, Phase.work, hs, ht]
  | examine => cases hexamines
  | read hs ht => simp [Action.turns, Phase.work, Phase.sweep?, hs, ht]
  | leave hs hidle ht => simp [Action.turns, Phase.work, Phase.sweep?, ht]
  | turn hturns hs ht hless =>
    simp [Phase.work, Phase.sweep?, hturns, hs, ht]
    omega

theorem span_eq_zero {phase : Phase} (h : phase.sweep? = none) : phase.span = 0 := by
  cases phase <;> first | rfl | cases h

theorem Turn.span (h : Turn s t action) (hexamines : action.examines = false) :
    action.loops.toNat + t.phase.span ≤ s.phase.span := by
  cases h with
  | raise ht => simp [Action.loops, Action.turns, ht]
  | look hs ht => simp [Action.loops, Action.turns, span_eq_zero ht]
  | examine => cases hexamines
  | read hs ht =>
    simp [Action.loops, Phase.span, hs, ht]
    omega
  | leave hs hidle ht => simp [Action.loops, Phase.span, hs, ht]
  | turn hturns hs ht hless =>
    have hloops : action.loops = true := by
      cases action <;> first | rfl | exact hturns
    simp [Phase.span, hloops, hs, ht]
    omega

/-! ### Rows of actions -/

/-- Actions that each take one from a measure are no more in number than it was. -/
theorem countP_add_le {p : Action → Bool} {measure : Phase → Nat}
    (hstep : ∀ (s t : State σ) action, Turn s t action → action.examines = false →
      (p action).toNat + measure t.phase ≤ measure s.phase)
    (hs : s.phase.Tidy rules.concurrency) (hexamines : ∀ action ∈ actions, action.examines = false)
    (h : steps rules s actions = some t) : actions.countP p + measure t.phase ≤ measure s.phase := by
  induction actions generalizing s with
  | nil =>
    obtain rfl := Option.some.inj h
    simp
  | cons action rest ih =>
    obtain ⟨u, hu, hrest⟩ := Option.bind_eq_some_iff.1 h
    have hnow := hstep s u action ((moves_of_step hu).turn hs) (hexamines action List.mem_cons_self)
    have hlater := ih ((moves_of_step hu).tidy hs)
      (fun action hmem => hexamines action (List.mem_cons_of_mem _ hmem)) hrest
    rw [List.countP_cons]
    cases hp : p action <;> simp [hp] at hnow ⊢ <;> omega

/-! ### The loop -/

/-- The states that a hunt can come to from its start, or from any domains that are all to come. -/
def Reached (rules : Rules σ) (s : State σ) : Prop :=
  ∃ first actions,
    (first.phase = .boundary ∨
      ∃ pattern source, first.phase = .turning (Sweep.fresh pattern source)) ∧
    steps rules first actions = some s

theorem Reached.tidy (h : Reached rules s) : s.phase.Tidy rules.concurrency := by
  obtain ⟨first, actions, hfirst, hsteps⟩ := h
  refine steps_induction (P := fun s => s.phase.Tidy rules.concurrency)
    (fun s t action hs h => (moves_of_step h).tidy hs) ?_ hsteps
  obtain hboundary | ⟨pattern, source, hfresh⟩ := hfirst
  · rw [hboundary]
    exact trivial
  · rw [hfresh]
    exact Sweep.tidy_fresh _ _ _

/-- Where the flag was read there is a turn to take. -/
theorem exists_turn (hs : s.phase.Tidy rules.concurrency) {sweep : Sweep} {mayLaunch : Bool}
    (hphase : s.phase = .acting sweep mayLaunch) :
    ∃ action t, action.turns = true ∧ Honest s action ∧ step rules s action = some t := by
  simp only [Phase.Tidy, hphase] at hs
  cases mayLaunch with
  | true =>
    cases hpending : sweep.pending with
    | none => exact ⟨.pull, s.pull sweep, rfl, trivial, by simp [step, hphase, hpending]⟩
    | some domain =>
      exact ⟨.launch, s.launch sweep domain, rfl, trivial, by simp [step, hphase, hpending]⟩
  | false =>
    obtain ⟨domain, rest, hbusy⟩ := List.exists_cons_of_ne_nil (hs.2.2 rfl)
    refine ⟨.complete 0 (failure domain), s.complete rules sweep 0 (failure domain), rfl, ?_,
      by simp [step, hphase, hbusy]⟩
    intro sweep' mayLaunch' hphase'
    obtain ⟨rfl, -⟩ := Phase.acting.inj (hphase.symm.trans hphase')
    rw [hbusy]
    rfl

/-- What holds of the loop through the domains of an entry in a state of a hunt. -/
structure Looped (rules : Rules σ) (s : State σ) : Prop where
  /-- No more look-ups are under way than may be. -/
  room : s.inFlight.length ≤ rules.concurrency
  /-- Nothing is pending once no domain is left. -/
  drained : ∀ sweep, s.phase.sweep? = some sweep → sweep.exhausted = true → sweep.pending = none
  /-- The entry is never left for want of a turn to take. -/
  steady : step rules s .giveUp = none
  able : ∀ sweep mayLaunch, s.phase = .acting sweep mayLaunch →
    ∃ action t, action.turns = true ∧ Honest s action ∧ step rules s action = some t
  /-- A turn leaves less to do. -/
  turns : ∀ action t, action.turns = true → step rules s action = some t →
    t.phase.work < s.phase.work
  /-- The flag is read before the next turn, and that leaves as much to do, or else the entry. -/
  reads : ∀ t, step rules s .settle = some t →
    t.phase.sweep? = s.phase.sweep? ∨ t.phase = .boundary
  /-- An entry is left with no look-up under way. -/
  left : ∀ action t, step rules s action = some t → s.phase.sweep?.isSome = true →
    t.phase.sweep? = none → s.inFlight = []
  /-- Until the next entry is examined there are no more turns than there is to do, and no more
  readings of the flag than that and one. -/
  bounded : ∀ actions t, steps rules s actions = some t →
    (∀ action ∈ actions, action.examines = false) →
      actions.countP Action.turns + t.phase.work ≤ s.phase.work ∧
        actions.countP Action.loops ≤ 2 * s.phase.work + 1
  /-- Before the first turn there is as much to do as the number of domains says. -/
  first : ∀ pattern source, s.phase = .turning (.fresh pattern source) →
    s.phase.work = 3 * source.toList.length + 1

theorem Phase.span_le (phase : Phase) : phase.span ≤ 2 * phase.work + 1 := by
  cases phase <;> simp [span, work, sweep?]

theorem Turn.left (h : Turn s t action) (hs : s.phase.sweep?.isSome = true)
    (ht : t.phase.sweep? = none) : s.inFlight = [] := by
  cases h with
  | raise hsame => simp [hsame ▸ ht] at hs
  | look hnone => simp [hnone] at hs
  | examine hnone => simp [hnone] at hs
  | read hphase hphase' => simp [hphase', Phase.sweep?] at ht
  | leave hphase hidle => simpa [State.inFlight, hphase] using hidle
  | turn hturns hphase hphase' => simp [hphase', Phase.sweep?] at ht

/-- In every state that a hunt can come to the loop is bounded by what is left to do. -/
theorem Reached.looped (h : Reached rules s) : Looped rules s := by
  have htidy := h.tidy
  refine ⟨?_, ?_, ?_, fun sweep mayLaunch hphase => exists_turn htidy hphase, ?_, ?_, ?_, ?_, ?_⟩
  · rw [s.inFlight_eq]
    cases hsweep : s.phase.sweep? with
    | none => exact Nat.zero_le rules.concurrency
    | some sweep => exact (htidy.of_sweep? hsweep).room
  · exact fun sweep hsweep => (htidy.of_sweep? hsweep).drained
  · cases hstep : step rules s .giveUp with
    | none => rfl
    | some t => cases (moves_of_step hstep).turn htidy with
      | turn hturns => cases hturns
  · intro action t hturns hstep
    have hexamines : action.examines = false := by cases action <;> first | rfl | cases hturns
    have hwork := ((moves_of_step hstep).turn htidy).work hexamines
    rw [hturns, Bool.toNat_true] at hwork
    omega
  · intro t hstep
    cases (moves_of_step hstep).turn htidy with
    | read hs ht => exact .inl (by rw [hs, ht]; rfl)
    | leave hs hidle ht => exact .inr ht
    | turn hturns => cases hturns
  · exact fun action t hstep hs ht => ((moves_of_step hstep).turn htidy).left hs ht
  · intro actions t hsteps hexamines
    refine ⟨countP_add_le (fun s t action hturn hquiet => hturn.work hquiet) htidy hexamines hsteps,
      ?_⟩
    have hspan := countP_add_le (fun s t action hturn hquiet => hturn.span hquiet) htidy hexamines
      hsteps
    have := s.phase.span_le
    omega
  · intro pattern source hphase
    rw [hphase]
    exact Sweep.work_fresh pattern source

/-- Three domains and room for two look-ups: with two of them launched there are six turns left. -/
theorem looped_three : ∃ s : State Unit, Reached twoAtOnce s ∧
    s.inFlight = ["ab.com", "ab.net"] ∧ s.phase.work = 6 ∧ Looped twoAtOnce s := by
  obtain ⟨source, hsource⟩ := Candidates.exists_toList_eq ["ab.com", "ab.net", "ab.org"]
  let first : State Unit :=
    { State.start [] false eightSlots () with phase := .turning (Sweep.fresh "ab" source) }
  have hnew (domain : String) : eightSlots.test domain = false :=
    Bits.get_replicate 1 (eightSlots.slot domain)
  have hlaunch : Leads twoAtOnce
      (Within eightSlots .turning none [] ["ab.com", "ab.net", "ab.org"])
      (Within eightSlots .turning none ["ab.com", "ab.net"] ["ab.org"]) :=
    (leads_to_launched (by decide) (hnew "ab.com") []).trans
      (leads_to_launched (by decide) (hnew "ab.net") [])
  obtain ⟨log, s, hruns, -, -, -, sweep, hphase, hfree, hpending, hinFlight, hrest⟩ :=
    hlaunch first ⟨rfl, rfl, Sweep.fresh "ab" source, rfl, rfl, rfl, rfl, hsource⟩
  obtain ⟨actions, hcourse⟩ := hruns.exists_course
  have hreached : Reached twoAtOnce s :=
    ⟨first, actions, .inr ⟨"ab", source, rfl⟩, hcourse.steps_eq⟩
  refine ⟨s, hreached, ?_, ?_, hreached.looped⟩
  · simp only [State.inFlight, hphase, hinFlight]
  · simp [Phase.work, Phase.sweep?, Sweep.work, hphase, hfree, hpending, hinFlight, hrest]

end NameHunt.Hunt
