import NameHunt.Proofs.Hunt.Repeats
import NameHunt.Proofs.Hunt.Resume
import NameHunt.Proofs.Hunt.Totals

/-!
# Raising the flag

A raised flag lets a hunt finish what it has begun. The flag is read before an entry is examined and
before a domain is pulled or launched, so that one of these may already be decided when it is
raised, and no more than one. The look-ups that are under way are waited for.

* `Phase.leeway`: what may still be begun once the flag is raised.
* `Phase.distance`: how many actions the end is away at most.
* `Moves.leeway`, `Moves.distance`: what one action takes from them.
* `Drains`: what a hunt does after the flag was raised.
* `Course.drains`: every hunt does so.
* `exists_launched`: a launch may still come after the flag was raised.
-/

namespace NameHunt.Hunt

variable {σ : Type} {rules : Rules σ} {entries : List Entry} {cache : Cache} {s t : State σ}
  {action : Action} {actions : List Action} {log log' notes : List Note}

/-! ### What may still be begun -/

namespace Action

/-- An entry is examined. -/
def examines : Action → Bool
  | examine _ => true
  | _ => false

/-- A domain is pulled. -/
def pulls : Action → Bool
  | pull => true
  | _ => false

/-- A look-up is launched. -/
def launches : Action → Bool
  | launch => true
  | _ => false

/-- Something is done by the hunt itself. -/
def acts : Action → Bool
  | cancel => false
  | _ => true

/-- How much an action begins. -/
def begun (action : Action) : Nat :=
  action.examines.toNat + action.pulls.toNat + action.launches.toNat

end Action

/-- What may still be begun once the flag is raised: an entry that was admitted, or one domain for
which the flag was read before. -/
def Phase.leeway : Phase → Nat
  | examining _ | acting _ true => 1
  | _ => 0

/-- How many actions of the hunt the end is away at most, once the flag is raised. -/
def Phase.distance : Phase → Nat
  | closed => 0
  | boundary => 1
  | examining _ => 4
  | turning sweep => 2 * sweep.inFlight.length + 3
  | acting sweep mayLaunch => 2 * sweep.inFlight.length + if mayLaunch then 6 else 2

/-- A raised flag stays raised. -/
theorem Moves.raised (h : Moves rules s action notes t) (hraised : s.cancelled = true) :
    t.cancelled = true := by
  cases h with
  | cancel => rfl
  | complete => exact (State.checkpoint_frame rules _).1.trans hraised
  | _ => exact hraised

/-- Nothing may be launched once the flag is raised. -/
theorem canLaunch_of_raised {sweep : Sweep} (hraised : s.cancelled = true) :
    canLaunch rules s.cancelled sweep = false := by
  simp [canLaunch, hraised]

/-- What is begun is taken from what may still be begun. -/
theorem Moves.leeway (h : Moves rules s action notes t) (hraised : s.cancelled = true) :
    action.begun + t.phase.leeway ≤ s.phase.leeway := by
  cases h with
  | cancel => exact (Nat.zero_add _).le
  | take hphase hentries hopen => simp [hraised] at hopen
  | settle hphase hmay hlive =>
    -- The flag is read here, after which nothing more may be begun.
    rw [canLaunch_of_raised hraised] at hmay
    subst hmay
    exact Nat.zero_le _
  | close | finish | complete | giveUp => exact Nat.zero_le _
  | reject hphase | begin hphase | exhaust hphase | skip hphase | pend hphase | launch hphase =>
    rw [hphase]
    exact Nat.le_refl 1

/-- Every action of the hunt comes closer to the end. -/
theorem Moves.distance (h : Moves rules s action notes t) (hraised : s.cancelled = true) :
    action.acts.toNat + t.phase.distance ≤ s.phase.distance := by
  cases h with
  | cancel => exact (Nat.zero_add _).le
  | take hphase hentries hopen => simp [hraised] at hopen
  | settle hphase hmay hlive =>
    rw [canLaunch_of_raised hraised] at hmay
    subst hmay
    simp [Phase.distance, hphase, Action.acts]
    omega
  | @complete sweep mayLaunch place domain outcome hphase hselect hplace =>
    have hlt : place < sweep.inFlight.length := (List.getElem?_eq_some_iff.1 hplace).1
    simp [Phase.distance, hphase, Action.acts, State.complete, List.length_eraseIdx_of_lt hlt]
    split <;> omega
  | close hphase | reject hphase | begin hphase | finish hphase | giveUp hphase =>
    simp [Phase.distance, hphase, Action.acts, State.reject, State.begin, State.finish]
  | exhaust hphase | skip hphase | pend hphase | launch hphase =>
    simp [Phase.distance, hphase, Action.acts, State.launch]
    omega

theorem countP_concat (p : Action → Bool) (actions : List Action) (action : Action) :
    (actions ++ [action]).countP p = actions.countP p + (p action).toNat := by
  rw [List.countP_append, List.countP_singleton]
  cases p action <;> rfl

/-- How often something is begun in a row of actions. -/
def begunIn (actions : List Action) : Nat :=
  actions.countP Action.examines + actions.countP Action.pulls + actions.countP Action.launches

theorem begunIn_concat (actions : List Action) (action : Action) :
    begunIn (actions ++ [action]) = begunIn actions + action.begun := by
  simp only [begunIn, Action.begun, countP_concat]
  omega

/-- What a run with the flag raised begins is taken from what might still be begun, and its actions
come closer to the end. -/
theorem Course.raised (h : Course rules s actions log t) (hraised : s.cancelled = true) :
    t.cancelled = true ∧ begunIn actions + t.phase.leeway ≤ s.phase.leeway ∧
      actions.countP Action.acts + t.phase.distance ≤ s.phase.distance := by
  induction h with
  | refl => exact ⟨hraised, (Nat.zero_add _).le, (Nat.zero_add _).le⟩
  | snoc hcourse hstep ih =>
    obtain ⟨hstill, hleeway, hdistance⟩ := ih
    have hmove := moves_of_step hstep
    have hbegun := hmove.leeway hstill
    have hcloser := hmove.distance hstill
    refine ⟨hmove.raised hstill, ?_, ?_⟩
    · rw [begunIn_concat]
      omega
    · rw [countP_concat]
      omega

/-! ### What is launched, recorded and returned -/

theorem Moves.length_launchedIn (h : Moves rules s action notes t) :
    (launchedIn notes).length = action.launches.toNat := by
  cases h <;> simp [Action.launches]

/-- The log has a launch for each action that launches. -/
theorem Course.length_launchedIn (h : Course rules s actions log t) :
    (launchedIn log).length = actions.countP Action.launches := by
  induction h with
  | refl => rfl
  | snoc hcourse hstep ih =>
    rw [launchedIn_append, List.length_append, ih, countP_concat,
      (moves_of_step hstep).length_launchedIn]

/-- A hunt that is closed after the flag was raised says so. -/
theorem Moves.says_cancelled (h : Moves rules s action notes t) (hraised : s.cancelled = true)
    (hsaid : s.phase = .closed → s.summary.cancelled = true) (hclosed : t.phase = .closed) :
    t.summary.cancelled = true := by
  cases h with
  | cancel => exact hsaid hclosed
  | close => exact hraised
  | _ => cases hclosed

theorem Course.says_cancelled (h : Course rules s actions log t) (hraised : s.cancelled = true)
    (hopen : s.phase ≠ .closed) : t.phase = .closed → t.summary.cancelled = true := by
  induction h with
  | refl => exact fun hclosed => absurd hclosed hopen
  | snoc hcourse hstep ih =>
    exact (moves_of_step hstep).says_cancelled (hcourse.raised hraised).1 ih

/-- A hunt that is not closed can go on. -/
theorem exists_step_of_open (rules : Rules σ) {s : State σ} (hopen : s.phase ≠ .closed) :
    ∃ action t, action.acts = true ∧ Honest s action ∧ step rules s action = some t := by
  let scene := Scene.uniform rules taken
  have hfaithful : scene.Faithful := fun _ _ => rfl
  cases hnext : scene.next s () with
  | none => exact absurd (Scene.phase_of_next_none hnext) hopen
  | some found =>
    obtain ⟨action, s₁, world⟩ := found
    obtain rfl := Scene.eq_of_next (Scene.uniform_calm rules taken) hnext
    obtain ⟨t, hstep⟩ := Option.isSome_iff_exists.1 (scene.isSome_step_of_next hnext)
    refine ⟨action, t, ?_, Scene.honest_of_next hfaithful hnext, hstep⟩
    cases action with
    | cancel => exact absurd rfl (scene.progress_next hnext).1
    | _ => rfl

/-! ### After the flag was raised -/

/-- What a hunt that had come to the state `s` does after the flag was raised, whatever its look-ups
say. -/
structure Drains (rules : Rules σ) (cache : Cache) (s : State σ) (log : List Note)
    (actions : List Action) (log' : List Note) (t : State σ) : Prop where
  /-- At most one entry is examined, one domain pulled, or one look-up launched. -/
  begun : actions.countP Action.examines + actions.countP Action.pulls +
    actions.countP Action.launches ≤ 1
  launched : (launchedIn log').length ≤ 1
  /-- The end is not far, and nothing keeps the hunt from it. -/
  near : actions.countP Action.acts ≤ 2 * s.inFlight.length + 6
  live : t.phase ≠ .closed →
    ∃ action u, action.acts = true ∧ Honest t action ∧ step rules t action = some u
  /-- At the end all look-ups have come back: each that was under way when the flag was raised, or
  was launched since, once since then. -/
  returned : t.phase = .closed → (returnedIn log').Perm (s.inFlight ++ launchedIn log') ∧
    (returnedIn (log ++ log')).Perm (launchedIn (log ++ log'))
  /-- Each that came back had its outcome reported, and nothing else was reported. -/
  reported : Echoed log' ∧ Echoed (log ++ log')
  /-- What was found out is in the cache, and nothing else was put there. -/
  recorded : t.cache = cache.insertAll (answeredIn (log ++ log')) ∧
    ∀ outcome ∈ outcomesIn (log ++ log'), outcome.success = true →
      t.cache.test outcome.domain = true
  /-- The totals count all that was reported. -/
  tallied : Totals t.summary (eventsIn (log ++ log'))
  cancelled : t.phase = .closed → t.summary.cancelled = true

theorem Phase.leeway_le (phase : Phase) : phase.leeway ≤ 1 := by
  unfold leeway
  split <;> omega

theorem State.distance_le (s : State σ) : s.phase.distance ≤ 2 * s.inFlight.length + 6 := by
  cases hphase : s.phase with
  | acting sweep mayLaunch => cases mayLaunch <;> simp [Phase.distance, State.inFlight, hphase]
  | _ => simp [Phase.distance, State.inFlight, hphase]

/-- A hunt whose flag is raised before its end begins at most one more thing and waits for its
look-ups, all of which are recorded. -/
theorem Course.drains {cancelled : Bool} {disk : σ}
    (h : Runs rules (.start entries cancelled cache disk) log s) (hraised : s.cancelled = true)
    (hopen : s.phase ≠ .closed) (h' : Course rules s actions log' t) :
    Drains rules cache s log actions log' t := by
  obtain ⟨-, hleeway, hdistance⟩ := h'.raised hraised
  have hall := h.trans h'.runs
  have hbegun : begunIn actions ≤ 1 := by
    have := s.phase.leeway_le
    omega
  refine ⟨hbegun, ?_, ?_, fun hlive => exists_step_of_open rules hlive, fun hclosed => ?_,
    ⟨h'.runs.echoed, hall.echoed⟩, ⟨?_, ?_⟩, hall.totals, h'.says_cancelled hraised hopen⟩
  · rw [h'.length_launchedIn]
    unfold begunIn at hbegun
    omega
  · have := s.distance_le
    omega
  · exact ⟨h'.runs.returnedIn_perm hclosed, hall.returnedIn_perm hclosed⟩
  · exact (remembers_of_runs hall).grown
  · exact fun outcome hmem hsuccess => test_of_answered hall hmem hsuccess

/-- A domain for which the flag was read before can be launched whether or not it is raised since. -/
theorem exists_launched (rules : Rules σ) {sweep : Sweep} {domain : String}
    (hphase : s.phase = .acting sweep true) (hpending : sweep.pending = some domain) :
    ∃ log t, Runs rules s log t ∧ Truthful log ∧ t.phase = .closed ∧ domain ∈ launchedIn log := by
  have hlaunch : Runs rules s [.launched domain] (s.launch sweep domain) :=
    (Moves.launch hphase hpending).runs
  obtain ⟨log, hend, hclosed, -, htruthful, -⟩ :=
    Scene.exists_runs_taken rules (s.launch sweep domain)
  exact ⟨_, _, hlaunch.trans hend,
    truthful_append.2 ⟨truthful_of_returnsIn rfl, htruthful⟩, hclosed, List.mem_cons_self⟩

/-- Where the flag is raised between its reading and a launch, the launch comes after it. -/
theorem drains_doubled : ∃ (log : List Note) (s : State Unit) (actions : List Action)
    (log' : List Note) (t : State Unit),
    Runs twoAtOnce (.start [doubled] false eightSlots ()) log s ∧ s.cancelled = true ∧
      s.phase ≠ .closed ∧ Course twoAtOnce s actions log' t ∧ t.phase = .closed ∧
      "ab.com" ∈ launchedIn log' ∧ Drains twoAtOnce eightSlots s log actions log' t := by
  obtain ⟨words, source, hexamine, hsource⟩ := examined_doubled
  have hnew : eightSlots.test "ab.com" = false := Bits.get_replicate 1 (eightSlots.slot "ab.com")
  have hroom : ([] : List String).length < twoAtOnce.concurrency := by decide
  have hbegin : Leads twoAtOnce _ (Within eightSlots .turning none [] source.toList) :=
    leads_to_entry [] [] hexamine
  rw [hsource] at hbegin
  obtain ⟨log, s, hruns, -, -, -, sweep, hphase, -, hpending, -⟩ :=
    (((hbegin.trans (leads_act hroom)).trans (leads_pull_new hnew)).trans (leads_act hroom))
      (.start [doubled] false eightSlots ()) ⟨⟨rfl, rfl, rfl⟩, rfl⟩
  let raised : State Unit := { s with cancelled := true }
  have hraise : step twoAtOnce s .cancel = some raised := rfl
  have hraised := hruns.snoc hraise
  have hsame : raised.phase = .acting sweep true := hphase
  obtain ⟨log', t, hend, -, hclosed, hlaunched⟩ := exists_launched twoAtOnce hsame hpending
  obtain ⟨actions, hcourse⟩ := hend.exists_course
  have hopen : raised.phase ≠ .closed := by simp [hsame]
  exact ⟨_, raised, actions, log', t, hraised, rfl, hopen, hcourse, hclosed, hlaunched,
    Course.drains hraised rfl hopen hcourse⟩

end NameHunt.Hunt
