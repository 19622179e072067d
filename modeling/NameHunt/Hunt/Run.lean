import NameHunt.Hunt.State

/-!
# Running a hunt

* `State.progress`: a measure of what is left to do.
* `step_progress`: every action but raising the flag makes it smaller.
* `Scene`: the world that a hunt is run in.
* `Scene.next`: what happens next in it; `isSome_step_of_next`: it is possible.
* `Scene.run`: a hunt from its first entry to its end. Look-ups are launched as early as the rules
  allow, and of those under way the oldest comes back first.
-/

namespace NameHunt.Hunt

/-- What is left to do for an entry: a domain that was not pulled counts three times, one that was
pulled twice, and one that is under way once. -/
def Sweep.weight (sweep : Sweep) : Nat :=
  3 * sweep.source.room + (if sweep.pending.isSome then 2 else 0) + sweep.inFlight.length +
    (if sweep.exhausted then 0 else 1)

/-- What is left to do within an entry. To pull from a source that was found empty is no progress,
so that a state which may do so counts more; no hunt comes to such a state. -/
def Phase.weight : Phase → Nat
  | closed | examining _ => 0
  | boundary => 1
  | turning sweep => 2 * sweep.weight + 3
  | acting sweep mayLaunch =>
    2 * sweep.weight + if mayLaunch && sweep.exhausted then 4 else 2

/-- An entry that was admitted counts half as much as one that is to come. -/
def Phase.admitted : Phase → Nat
  | examining _ => 1
  | _ => 0

variable {σ : Type}

/-- What is left to do: the entries first, then the domains of the present one. -/
def State.progress (s : State σ) : Nat × Nat :=
  (2 * s.entries.length + s.phase.admitted, s.phase.weight)

/-- Less is left to do. -/
def Before (p q : Nat × Nat) : Prop :=
  Prod.Lex (· < ·) (· < ·) p q

theorem before_of_lt {p q : Nat × Nat} (h : p.1 < q.1) : Before p q :=
  Prod.Lex.left _ _ h

theorem before_of_eq_of_lt {p q : Nat × Nat} (h : p.1 = q.1) (h' : p.2 < q.2) : Before p q := by
  obtain ⟨a, b⟩ := p
  obtain ⟨c, d⟩ := q
  obtain rfl : a = c := h
  exact Prod.Lex.right _ h'

@[simp] theorem entries_checkpoint (rules : Rules σ) (s : State σ) :
    (s.checkpoint rules).entries = s.entries := by
  unfold State.checkpoint
  split
  · rfl
  · split <;> rfl

/-- Pulling a domain, or finding that there is none, leaves less to do for an entry. -/
theorem pull_progress {s : State σ} {sweep : Sweep} (hpending : sweep.pending = none) :
    Before (s.pull sweep).progress
      (2 * s.entries.length, (Phase.acting sweep true).weight) := by
  unfold State.pull
  split
  · refine before_of_eq_of_lt rfl ?_
    simp only [State.progress, Phase.weight, Sweep.weight, hpending]
    cases sweep.exhausted
    · simp
      omega
    · simp
  · rename_i domain source hnext
    have hroom := Candidates.room_lt_of_next? hnext
    split
    all_goals
      refine before_of_eq_of_lt rfl ?_
      simp only [State.progress, Phase.weight, Sweep.weight, hpending]
      cases sweep.exhausted <;> simp <;> omega

theorem launch_progress {s : State σ} {sweep : Sweep} {domain : String}
    (hpending : sweep.pending = some domain) :
    Before (s.launch sweep domain).progress
      (2 * s.entries.length, (Phase.acting sweep true).weight) := by
  refine before_of_eq_of_lt rfl ?_
  simp only [State.progress, State.launch, Phase.weight, Sweep.weight, hpending]
  cases sweep.exhausted <;> simp <;> omega

theorem complete_progress {rules : Rules σ} {s : State σ} {sweep : Sweep} {mayLaunch : Bool}
    {place : Nat} {outcome : Outcome} (hplace : place < sweep.inFlight.length) :
    Before (s.complete rules sweep place outcome).progress
      (2 * s.entries.length, (Phase.acting sweep mayLaunch).weight) := by
  refine before_of_eq_of_lt
    (by simp [State.progress, State.complete, State.record, Phase.admitted]) ?_
  simp only [State.progress, State.complete, Phase.weight, Sweep.weight,
    List.length_eraseIdx_of_lt hplace]
  have hexpect : 2 ≤ if (mayLaunch && sweep.exhausted) = true then 4 else 2 := by
    split <;> omega
  omega

theorem progress_acting {s : State σ} {sweep : Sweep} {mayLaunch : Bool}
    (h : s.phase = .acting sweep mayLaunch) :
    s.progress = (2 * s.entries.length, (Phase.acting sweep mayLaunch).weight) := by
  simp [State.progress, Phase.admitted, h]

/-- Every action but raising the flag leaves less to do. -/
theorem step_progress {rules : Rules σ} {s s' : State σ} {action : Action}
    (h : step rules s action = some s') (hcancel : action ≠ .cancel) :
    Before s'.progress s.progress := by
  cases action with
  | cancel => exact absurd rfl hcancel
  | look =>
    simp only [step] at h
    split at h
    · rename_i hphase
      split at h
      · rename_i entry rest hentries
        split at h
        · obtain rfl := Option.some.inj h
          exact before_of_eq_of_lt (by simp [State.progress, Phase.admitted, hphase])
            (by simp [State.progress, Phase.weight, hphase])
        · obtain rfl := Option.some.inj h
          exact before_of_lt (by simp [State.progress, Phase.admitted, hphase, hentries]; omega)
      · obtain rfl := Option.some.inj h
        exact before_of_eq_of_lt (by simp [State.progress, Phase.admitted, hphase])
          (by simp [State.progress, Phase.weight, hphase])
    · simp at h
  | examine words =>
    simp only [step] at h
    split at h
    · rename_i entry hphase
      split at h <;> obtain rfl := Option.some.inj h <;>
        exact before_of_lt
          (by simp [State.progress, Phase.admitted, State.begin, State.reject, hphase])
    · simp at h
  | settle =>
    simp only [step] at h
    split at h
    · rename_i sweep hphase
      split at h <;> obtain rfl := Option.some.inj h
      · exact before_of_eq_of_lt (by simp [State.progress, Phase.admitted, State.finish, hphase])
          (by simp [State.progress, Phase.weight, State.finish, hphase])
      · refine before_of_eq_of_lt (by simp [State.progress, Phase.admitted, hphase]) ?_
        have hnever : (canLaunch rules s.cancelled sweep && sweep.exhausted) = false := by
          cases hexhausted : sweep.exhausted <;> simp [canLaunch, hexhausted]
        simp only [State.progress, Phase.weight, hphase, hnever]
        simp
    · simp at h
  | pull =>
    simp only [step] at h
    split at h
    · rename_i sweep hphase
      split at h
      · rename_i hpending
        obtain rfl := Option.some.inj h
        rw [progress_acting hphase]
        exact pull_progress (Option.isNone_iff_eq_none.1 hpending)
      · simp at h
    · simp at h
  | launch =>
    simp only [step] at h
    split at h
    · rename_i sweep hphase
      obtain ⟨domain, hpending, rfl⟩ := Option.map_eq_some_iff.1 h
      rw [progress_acting hphase]
      exact launch_progress hpending
    · simp at h
  | complete place outcome =>
    simp only [step] at h
    split at h
    · rename_i sweep mayLaunch hphase
      split at h
      · simp at h
      · rename_i hready
        obtain rfl := Option.some.inj h
        rw [progress_acting hphase]
        refine complete_progress ?_
        simp only [Bool.or_eq_true, decide_eq_true_eq, not_or] at hready
        omega
    · simp at h
  | giveUp =>
    simp only [step] at h
    split at h
    · rename_i sweep mayLaunch hphase
      split at h
      · simp at h
      · obtain rfl := Option.some.inj h
        refine before_of_eq_of_lt
          (by simp [State.progress, Phase.admitted, State.finish, hphase]) ?_
        simp only [State.progress, Phase.weight, State.finish, hphase]
        split <;> omega
    · simp at h

/-- The world that a hunt is run in. `τ` is what the look-ups know and change. -/
structure Scene (σ τ : Type) where
  rules : Rules σ
  /-- The order of the domains of an entry, by the number of entries that come after it. -/
  words : Nat → Words
  /-- The outcome of a look-up, and whether the flag is raised meanwhile. -/
  lookUp : τ → String → τ × Outcome × Bool

namespace Scene

variable {τ : Type} (scene : Scene σ τ)

/-- What happens next, with the state that it happens in and the world after it. Nothing happens
after the end. -/
def next (s : State σ) (world : τ) : Option (Action × State σ × τ) :=
  match s.phase with
  | .closed => none
  | .boundary => some (.look, s, world)
  | .examining _ => some (.examine (scene.words s.entries.length), s, world)
  | .turning _ => some (.settle, s, world)
  | .acting sweep true =>
    some (if sweep.pending.isNone then .pull else .launch, s, world)
  | .acting sweep false =>
    match sweep.inFlight with
    | [] => some (.giveUp, s, world)
    | domain :: _ =>
      let (world, outcome, raised) := scene.lookUp world domain
      some (.complete 0 outcome, { s with cancelled := s.cancelled || raised }, world)

/-- What happens next is possible. -/
theorem isSome_step_of_next {s s' : State σ} {world world' : τ} {action : Action}
    (h : scene.next s world = some (action, s', world')) :
    (step scene.rules s' action).isSome = true := by
  unfold next at h
  split at h
  · simp at h
  · rename_i hphase
    obtain ⟨rfl, rfl, -⟩ := h
    simp only [step, hphase]
    split <;> try split
    all_goals rfl
  · rename_i entry hphase
    obtain ⟨rfl, rfl, -⟩ := h
    simp only [step, hphase]
    split <;> rfl
  · rename_i sweep hphase
    obtain ⟨rfl, rfl, -⟩ := h
    simp only [step, hphase]
    split <;> rfl
  · rename_i sweep hphase
    obtain ⟨rfl, rfl, -⟩ := h
    cases hpending : sweep.pending <;> simp [step, hphase, hpending]
  · rename_i sweep hphase
    split at h
    · rename_i hempty
      obtain ⟨rfl, rfl, -⟩ := h
      simp [step, hphase, hempty]
    · rename_i domain rest hbusy
      obtain ⟨rfl, rfl, -⟩ := h
      simp [step, hphase, hbusy]

/-- What happens next is not that the flag is raised, and to get there takes nothing away. -/
theorem progress_next {s s' : State σ} {world world' : τ} {action : Action}
    (h : scene.next s world = some (action, s', world')) :
    action ≠ .cancel ∧ s'.progress = s.progress := by
  unfold next at h
  split at h
  · simp at h
  · obtain ⟨rfl, rfl, -⟩ := h
    exact ⟨nofun, rfl⟩
  · obtain ⟨rfl, rfl, -⟩ := h
    exact ⟨nofun, rfl⟩
  · obtain ⟨rfl, rfl, -⟩ := h
    exact ⟨nofun, rfl⟩
  · obtain ⟨rfl, rfl, -⟩ := h
    refine ⟨?_, rfl⟩
    split <;> nofun
  · split at h <;> obtain ⟨rfl, rfl, -⟩ := h <;> exact ⟨nofun, rfl⟩

/-- A hunt from a state to its end, with the world after it. -/
def runFrom (s : State σ) (world : τ) : State σ × τ :=
  match hnext : scene.next s world with
  | none => (s, world)
  | some (action, s₁, world₁) =>
    match _hstep : step scene.rules s₁ action with
    | some s₂ => runFrom s₂ world₁
    | none => absurd (scene.isSome_step_of_next hnext) (by simp [_hstep])
termination_by s.progress
decreasing_by
  obtain ⟨hcancel, hprogress⟩ := scene.progress_next hnext
  rw [← hprogress]
  exact step_progress _hstep hcancel

/-- A hunt from its first entry to its end. -/
def run (entries : List Entry) (cancelled : Bool) (cache : Cache) (disk : σ) (world : τ) :
    State σ × τ :=
  scene.runFrom (.start entries cancelled cache disk) world

end Scene

end NameHunt.Hunt
