import NameHunt.Proofs.Hunt.Log

/-!
# Rows of actions

A hunt is decided by the actions that are taken. Two hunts with different rules may do the same
under the same actions as far as a map of states shows them.

* `steps`: the state after a row of actions.
* `Course.steps_eq`: the actions of a course lead to its end.
* `steps_induction`: what every action keeps, a row of actions keeps.
* `Projection`: a map of states that goes with all that an action does.
* `Projection.step_eq`, `Projection.steps_eq`: one action, or a row of actions, does the same before
  and after the map.
-/

namespace NameHunt.Hunt

variable {σ σ' : Type} {rules : Rules σ} {rules' : Rules σ'}

/-- The state after a row of actions, if all of them are possible. -/
def steps (rules : Rules σ) (s : State σ) : List Action → Option (State σ)
  | [] => some s
  | action :: rest => (step rules s action).bind fun t => steps rules t rest

theorem steps_cons (s : State σ) (action : Action) (rest : List Action) :
    steps rules s (action :: rest) = (step rules s action).bind fun t => steps rules t rest :=
  rfl

theorem steps_append (s : State σ) (actions rest : List Action) :
    steps rules s (actions ++ rest) =
      (steps rules s actions).bind fun t => steps rules t rest := by
  induction actions generalizing s with
  | nil => rfl
  | cons action actions ih =>
    rw [List.cons_append, steps_cons, steps_cons, Option.bind_assoc]
    exact congrArg _ (funext fun t => ih t)

theorem steps_concat (s : State σ) (actions : List Action) (action : Action) :
    steps rules s (actions ++ [action]) =
      (steps rules s actions).bind fun t => step rules t action := by
  rw [steps_append]
  exact congrArg _ (funext fun t => Option.bind_fun_some _)

/-- The actions of a course lead to its end. -/
theorem Course.steps_eq {s t : State σ} {actions : List Action} {log : List Note}
    (h : Course rules s actions log t) : steps rules s actions = some t := by
  induction h with
  | refl => rfl
  | snoc hcourse hstep ih => rw [steps_concat, ih, Option.bind_some, hstep]

/-- What every possible action keeps, a row of actions keeps. -/
theorem steps_induction {P : State σ → Prop}
    (hstep : ∀ s t action, P s → step rules s action = some t → P t) {s t : State σ}
    {actions : List Action} (hs : P s) (h : steps rules s actions = some t) : P t := by
  induction actions generalizing s with
  | nil =>
    obtain rfl := Option.some.inj h
    exact hs
  | cons action rest ih =>
    obtain ⟨u, hu, hrest⟩ := Option.bind_eq_some_iff.1 h
    exact ih (hstep s u action hs hu) hrest

/-! ### Between entries -/

namespace State

/-- The entries that may be taken: none once the flag is raised. -/
def takable (s : State σ) : List Entry :=
  if s.cancelled then [] else s.entries

/-- The hunt after its end was reached. -/
def close (s : State σ) : State σ :=
  { s with phase := .closed, summary := { s.summary with cancelled := s.cancelled } }

/-- The hunt after an entry was taken, with the entries after it. -/
def take (s : State σ) (entry : Entry) (rest : List Entry) : State σ :=
  { s with phase := .examining entry, entries := rest }

end State

/-- Between entries the next one is taken, or the hunt is closed if there is none to take. -/
theorem step_look (rules : Rules σ) {s : State σ} (h : s.phase = .boundary) :
    step rules s .look =
      match s.takable with
      | [] => some s.close
      | entry :: rest => some (s.take entry rest) := by
  simp only [step, h, State.takable]
  cases hcancelled : s.cancelled with
  | true => cases hentries : s.entries <;> simp [State.close, hcancelled, hentries]
  | false => cases hentries : s.entries <;> simp [State.close, State.take, hcancelled, hentries]

theorem step_look_of_ne {rules : Rules σ} {s : State σ} (h : s.phase ≠ .boundary) :
    step rules s .look = none := by
  simp only [step]

/-! ### Maps of states -/

/-- A map of states that shows all that decides what happens, and that goes with all that an action
does. -/
structure Projection (rules : Rules σ) (rules' : Rules σ') (f : State σ → State σ') : Prop where
  concurrency : rules'.concurrency = rules.concurrency
  phase : ∀ s, (f s).phase = s.phase
  entries : ∀ s, (f s).entries = s.entries
  cancelled : ∀ s, (f s).cancelled = s.cancelled
  cache : ∀ s, (f s).cache = s.cache
  raise : ∀ s, f { s with cancelled := true } = { f s with cancelled := true }
  turn : ∀ s phase, f { s with phase } = { f s with phase }
  close : ∀ s, f s.close = (f s).close
  take : ∀ s entry rest, f (s.take entry rest) = (f s).take entry rest
  reject : ∀ s pattern error, f (s.reject pattern error) = (f s).reject pattern error
  begin : ∀ s pattern analysis source,
    f (s.begin pattern analysis source) = (f s).begin pattern analysis source
  finish : ∀ s pattern, f (s.finish pattern) = (f s).finish pattern
  skip : ∀ s domain, f (s.skip domain) = (f s).skip domain
  launch : ∀ s sweep domain, f (s.launch sweep domain) = (f s).launch sweep domain
  record : ∀ s outcome,
    f ((s.record outcome).checkpoint rules) = ((f s).record outcome).checkpoint rules'

namespace Projection

variable {f : State σ → State σ'}

theorem takable_eq (h : Projection rules rules' f) (s : State σ) : (f s).takable = s.takable := by
  rw [State.takable, State.takable, h.cancelled, h.entries]

theorem canLaunch_eq (h : Projection rules rules' f) (s : State σ) (sweep : Sweep) :
    canLaunch rules' (f s).cancelled sweep = canLaunch rules s.cancelled sweep := by
  rw [canLaunch, canLaunch, h.concurrency, h.cancelled]

theorem test_eq (h : Projection rules rules' f) (s : State σ) (domain : String) :
    (f s).cache.test domain = s.cache.test domain := by
  rw [h.cache]

theorem pull_eq (h : Projection rules rules' f) (s : State σ) (sweep : Sweep) :
    (f s).pull sweep = f (s.pull sweep) := by
  unfold State.pull
  split
  · exact (h.turn s _).symm
  · rename_i domain source _
    rw [h.test_eq]
    split
    · rw [← h.skip]
      exact (h.turn _ _).symm
    · exact (h.turn s _).symm

theorem complete_eq (h : Projection rules rules' f) (s : State σ) (sweep : Sweep) (place : Nat)
    (outcome : Outcome) :
    (f s).complete rules' sweep place outcome = f (s.complete rules sweep place outcome) := by
  unfold State.complete
  rw [← h.record]
  exact (h.turn _ _).symm

/-- An action does the same before and after the map. -/
theorem step_eq (h : Projection rules rules' f) (s : State σ) (action : Action) :
    step rules' (f s) action = (step rules s action).map f := by
  have hphase := h.phase s
  cases action with
  | cancel => exact congrArg some (h.raise s).symm
  | look =>
    by_cases hboundary : s.phase = .boundary
    · rw [step_look rules hboundary, step_look rules' (hphase.trans hboundary), h.takable_eq]
      split
      · exact congrArg some (h.close s).symm
      · exact congrArg some (h.take s _ _).symm
    · rw [step_look_of_ne hboundary, step_look_of_ne (hphase ▸ hboundary), Option.map_none]
  | examine words =>
    simp only [step, hphase]
    split
    · split
      · exact congrArg some (h.begin s _ _ _).symm
      · exact congrArg some (h.reject s _ _).symm
    · rfl
  | settle =>
    simp only [step, hphase, h.canLaunch_eq]
    split
    · split
      · exact congrArg some (h.finish s _).symm
      · exact congrArg some (h.turn s _).symm
    · rfl
  | pull =>
    simp only [step, hphase]
    split
    · split
      · exact congrArg some (h.pull_eq s _)
      · rfl
    · rfl
  | launch =>
    simp only [step, hphase]
    split
    · rename_i sweep _
      cases sweep.pending with
      | none => rfl
      | some domain => exact congrArg some (h.launch s sweep domain).symm
    · rfl
  | complete place outcome =>
    simp only [step, hphase]
    split
    · split
      · rfl
      · exact congrArg some (h.complete_eq s _ _ _)
    · rfl
  | giveUp =>
    simp only [step, hphase]
    split
    · split
      · rfl
      · exact congrArg some (h.finish s _).symm
    · rfl

/-- A row of actions does the same before and after the map. -/
theorem steps_eq (h : Projection rules rules' f) (s : State σ) (actions : List Action) :
    steps rules' (f s) actions = (steps rules s actions).map f := by
  induction actions generalizing s with
  | nil => rfl
  | cons action rest ih =>
    rw [steps_cons, steps_cons, h.step_eq]
    cases step rules s action with
    | none => rfl
    | some t => exact ih t

end Projection

end NameHunt.Hunt
