import NameHunt.Hunt.Run
import NameHunt.Proofs.Hunt.Log

/-!
# Hunts in a scene are runs

What a scene does is one of the runs that the rules allow, and it comes to the end. If look-ups speak
of the domains they were launched for, so does the log.

* `Runs.trans`: runs follow each other.
* `Moves.runs`: every move is a run of one action.
* `Scene.Faithful`: the look-ups of a scene speak of the domains they were launched for.
* `Scene.next_cases`: what a scene adds to the actions of a hunt.
* `Scene.exists_runs`: the hunt of a scene is a run to the end.
* `Scene.cancelled_runFrom`: the flag stays down in a scene that does not raise it.
* `Scene.uniform`: the scene in which a look-up knows nothing but its domain.
* `Scene.exists_runs_taken`: from every state a truthful run leads to the end.
-/

namespace NameHunt.Hunt

variable {σ τ : Type}

theorem Runs.trans {rules : Rules σ} {s t u : State σ} {log log' : List Note}
    (h : Runs rules s log t) (h' : Runs rules t log' u) : Runs rules s (log ++ log') u := by
  induction h' with
  | refl => simpa using h
  | snoc hruns hstep ih =>
    rw [← List.append_assoc]
    exact ih.snoc hstep

theorem Runs.of_step {rules : Rules σ} {s t : State σ} {action : Action}
    (hstep : step rules s action = some t) : Runs rules s (s.notesTo action t) t :=
  (Runs.refl s).snoc hstep

/-- A move is a run of one action. -/
theorem Moves.runs {rules : Rules σ} {s t : State σ} {action : Action} {notes : List Note}
    (h : Moves rules s action notes t) : Runs rules s notes t := by
  have hruns := Runs.of_step h.step_eq
  rwa [h.notesTo_eq] at hruns

/-- The outcome for a domain that is found to be taken at once. -/
def taken (domain : String) : Outcome := .answered domain false ⟨0⟩

/-- The outcome for a domain about which nothing is found out. -/
def failure (domain : String) : Outcome := .failed domain "" ⟨0⟩

namespace Scene

/-- Every look-up speaks of the domain it was launched for. -/
def Faithful (scene : Scene σ τ) : Prop :=
  ∀ world domain, (scene.lookUp world domain).2.1.domain = domain

/-- What comes back are look-ups in the scene. -/
def Answers (scene : Scene σ τ) (log : List Note) : Prop :=
  ∀ domain outcome, .returned domain outcome ∈ log →
    ∃ world, outcome = (scene.lookUp world domain).2.1

/-- In a faithful scene logs are truthful. -/
theorem Answers.truthful {scene : Scene σ τ} {log : List Note} (h : scene.Answers log)
    (hfaithful : scene.Faithful) : Truthful log := by
  intro domain outcome hmem
  obtain ⟨world, rfl⟩ := h domain outcome hmem
  exact hfaithful world domain

theorem phase_of_next_none {scene : Scene σ τ} {s : State σ} {world : τ}
    (h : scene.next s world = none) : s.phase = .closed := by
  unfold next at h
  split at h
  · assumption
  · cases h
  · cases h
  · cases h
  · cases h
  · split at h <;> cases h

/-- What happens next leaves the state to the hunt, unless the oldest look-up comes back. -/
theorem next_cases {scene : Scene σ τ} {s s₁ : State σ} {world world₁ : τ} {action : Action}
    (h : scene.next s world = some (action, s₁, world₁)) :
    (s₁ = s ∧ s.returns action = [] ∧ Honest s action) ∨
      ∃ sweep domain rest, s.phase = .acting sweep false ∧ sweep.inFlight = domain :: rest ∧
        action = .complete 0 (scene.lookUp world domain).2.1 ∧
        s₁ = { s with cancelled := s.cancelled || (scene.lookUp world domain).2.2 } := by
  unfold next at h
  split at h
  · cases h
  · obtain ⟨rfl, rfl, -⟩ := h
    exact .inl ⟨rfl, rfl, trivial⟩
  · obtain ⟨rfl, rfl, -⟩ := h
    exact .inl ⟨rfl, rfl, trivial⟩
  · obtain ⟨rfl, rfl, -⟩ := h
    exact .inl ⟨rfl, rfl, trivial⟩
  · obtain ⟨rfl, rfl, -⟩ := h
    split
    · exact .inl ⟨rfl, rfl, trivial⟩
    · exact .inl ⟨rfl, rfl, trivial⟩
  · rename_i sweep hphase
    split at h
    · obtain ⟨rfl, rfl, -⟩ := h
      exact .inl ⟨rfl, rfl, trivial⟩
    · rename_i domain rest hbusy
      obtain ⟨rfl, rfl, -⟩ := h
      exact .inr ⟨sweep, domain, rest, hphase, hbusy, rfl, rfl⟩

/-- Raising the flag, or not, is a run without notes. -/
theorem runs_raise (rules : Rules σ) (s : State σ) (raised : Bool) :
    Runs rules s [] { s with cancelled := s.cancelled || raised } := by
  cases raised with
  | false => simpa using Runs.refl s
  | true =>
    rw [Bool.or_true]
    exact Moves.cancel.runs

/-- What comes back next is a look-up in the scene. -/
theorem returns_of_next {scene : Scene σ τ} {s s₁ : State σ} {world world₁ : τ} {action : Action}
    (h : scene.next s world = some (action, s₁, world₁)) :
    Runs scene.rules s [] s₁ ∧ scene.Answers (s₁.returns action) := by
  obtain ⟨rfl, hnone, -⟩ | ⟨sweep, domain, rest, hphase, hbusy, rfl, rfl⟩ := next_cases h
  · refine ⟨.refl _, fun domain outcome hmem => ?_⟩
    rw [hnone] at hmem
    cases hmem
  · refine ⟨runs_raise _ _ _, fun domain' outcome hmem => ?_⟩
    obtain ⟨rfl, rfl⟩ : domain' = domain ∧ outcome = (scene.lookUp world domain).2.1 := by
      simpa [State.returns, State.inFlight, hphase, hbusy] using hmem
    exact ⟨world, rfl⟩

/-- What happens next in a faithful scene is honest. -/
theorem honest_of_next {scene : Scene σ τ} (hfaithful : scene.Faithful) {s s₁ : State σ}
    {world world₁ : τ} {action : Action} (h : scene.next s world = some (action, s₁, world₁)) :
    Honest s₁ action := by
  obtain ⟨rfl, -, hhonest⟩ | ⟨sweep, domain, rest, hphase, hbusy, rfl, rfl⟩ := next_cases h
  · exact hhonest
  · intro sweep' mayLaunch hphase'
    obtain ⟨rfl, -⟩ := Phase.acting.inj (hphase.symm.trans hphase')
    simp [hbusy, hfaithful world domain]

/-- The hunt of a scene is a run to the end. -/
theorem exists_runs (scene : Scene σ τ) (s : State σ) (world : τ) :
    ∃ log, Runs scene.rules s log (scene.runFrom s world).1 ∧
      (scene.runFrom s world).1.phase = .closed ∧ scene.Answers log := by
  fun_induction runFrom scene s world with
  | case1 s world hnext => exact ⟨[], .refl s, phase_of_next_none hnext, nofun⟩
  | case2 s world action s₁ world₁ hnext s₂ hstep ih =>
    obtain ⟨log, hruns, hclosed, hanswers⟩ := ih
    obtain ⟨hbefore, hreturns⟩ := returns_of_next hnext
    have hnow := Runs.of_step hstep
    refine ⟨[] ++ (s₁.notesTo action s₂ ++ log), hbefore.trans (hnow.trans hruns), hclosed, ?_⟩
    intro domain outcome hmem
    rw [List.nil_append, List.mem_append] at hmem
    obtain hmem | hmem := hmem
    · exact hreturns domain outcome (State.returned_mem_notesTo hmem)
    · exact hanswers domain outcome hmem

/-- No look-up raises the flag. -/
def Calm (scene : Scene σ τ) : Prop :=
  ∀ world domain, (scene.lookUp world domain).2.2 = false

theorem eq_of_next {scene : Scene σ τ} (hcalm : scene.Calm) {s s₁ : State σ}
    {world world₁ : τ} {action : Action} (h : scene.next s world = some (action, s₁, world₁)) :
    s₁ = s := by
  obtain ⟨rfl, -⟩ | ⟨sweep, domain, rest, -, -, -, rfl⟩ := next_cases h
  · rfl
  · simp [hcalm world domain]

/-- In a calm scene the flag stays as it was. -/
theorem cancelled_runFrom {scene : Scene σ τ} (hcalm : scene.Calm) (s : State σ) (world : τ) :
    (scene.runFrom s world).1.cancelled = s.cancelled := by
  fun_induction runFrom scene s world with
  | case1 s world hnext => rfl
  | case2 s world action s₁ world₁ hnext s₂ hstep ih =>
    rw [ih, (moves_of_step hstep).cancelled_eq (scene.progress_next hnext).1, eq_of_next hcalm hnext]

/-- Each look-up has the outcome that its domain is given. -/
def uniform (rules : Rules σ) (answer : String → Outcome) : Scene σ Unit where
  rules := rules
  words := fun _ => ⟨fun _ => 0, 0⟩
  lookUp := fun world domain => (world, answer domain, false)

theorem uniform_calm (rules : Rules σ) (answer : String → Outcome) : (uniform rules answer).Calm :=
  fun _ _ => rfl

/-- From every state a truthful run leads to the end in which all domains are taken. -/
theorem exists_runs_taken (rules : Rules σ) (s : State σ) :
    ∃ log, Runs rules s log ((uniform rules taken).runFrom s ()).1 ∧
      ((uniform rules taken).runFrom s ()).1.phase = .closed ∧
      ((uniform rules taken).runFrom s ()).1.cancelled = s.cancelled ∧
      Truthful log ∧ ∀ outcome ∈ outcomesIn log, outcome.success = true := by
  have hfaithful : (uniform rules taken).Faithful := fun _ _ => rfl
  obtain ⟨log, hruns, hclosed, hanswers⟩ := exists_runs (uniform rules taken) s ()
  refine ⟨log, hruns, hclosed, cancelled_runFrom (uniform_calm rules taken) s (),
    hanswers.truthful hfaithful, fun outcome hmem => ?_⟩
  obtain ⟨domain, hreturned⟩ := hruns.echoed.exists_returned hmem
  obtain ⟨world, rfl⟩ := hanswers domain outcome hreturned
  rfl

end Scene

/-! ### A small hunt -/

/-- One name under the same extension twice. -/
def doubled : Entry where
  pattern := "ab"
  extensions := [".com", ".com"]

/-- Two look-ups at once, and no cache is kept. -/
def twoAtOnce : Rules Unit where
  concurrency := 2
  checkpointEvery := 1
  save := none

/-- An empty cache of eight slots. -/
def eightSlots : Cache where
  capacity := 8
  bytes := #[0]
  capacity_pos := by decide
  capacity_le := by decide
  size_bytes := rfl
  clear_beyond := fun i _ => Bits.get_replicate 1 i

/-- The hunt of that entry to its end, where the domain is taken. -/
def huntDoubled (cache : Cache) : State Unit :=
  ((Scene.uniform twoAtOnce taken).run [doubled] false cache () ()).1

theorem runs_huntDoubled (cache : Cache) :
    ∃ log, Runs twoAtOnce (.start [doubled] false cache ()) log (huntDoubled cache) ∧
      (huntDoubled cache).phase = .closed ∧ (huntDoubled cache).cancelled = false ∧
      Truthful log ∧ ∀ outcome ∈ outcomesIn log, outcome.success = true :=
  Scene.exists_runs_taken twoAtOnce (.start [doubled] false cache ())

end NameHunt.Hunt
