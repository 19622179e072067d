import NameHunt.Proofs.Candidates
import NameHunt.Proofs.Hunt.Log

/-!
# Where the domains of an entry are

Each domain of an entry is still to come, pending, under way, or dealt with. A look-up that is under
way was launched and has not come back.

* `Examined`: the domains of an accepted entry, in an order that some words give.
* `Orderly`, `Ordered`: no look-up comes back, and no outcome is reported, before its launch.
* `Runs.flow`: a look-up is under way from its launch to its return.
* `Accounts`: all domains of an entry, by the place where they are.
* `Settled`: what has happened to them when the entry is left.
* `Accounts.skip`, `Accounts.pend`, `Accounts.launch`, `Accounts.complete`, `Accounts.exhaust`: a
  move takes a domain from one place to the next.
-/

namespace NameHunt.Hunt

variable {σ : Type}

/-! ### The domains of an entry -/

/-- The entry is accepted, with this analysis and with these domains for some words. -/
def Examined (entry : Entry) (analysis : Analysis) (domains : List String) : Prop :=
  ∃ words source, examine entry words = .ok (analysis, source) ∧ source.toList = domains

/-- An entry is analyzed, then its domains are ordered; the first fault counts. -/
theorem examine_eq (entry : Entry) (words : Words) :
    examine entry words =
      match analyze entry with
      | .error error => .error error
      | .ok analysis =>
        match Candidates.ofAnalysis analysis words with
        | .error error => .error error
        | .ok (source, _) => .ok (analysis, source) := by
  unfold examine
  cases analyze entry with
  | error error => rfl
  | ok analysis =>
    cases hsource : Candidates.ofAnalysis analysis words <;> simp only [hsource, bind, Except.bind]
    rfl

theorem analyze_of_examine {entry : Entry} {words : Words} {analysis : Analysis}
    {source : Candidates} (h : examine entry words = .ok (analysis, source)) :
    analyze entry = .ok analysis ∧
      ∃ rest, Candidates.ofAnalysis analysis words = .ok (source, rest) := by
  rw [examine_eq] at h
  split at h
  · cases h
  · rename_i found hanalyze
    split at h
    · cases h
    · rename_i candidates rest hsource
      cases h
      exact ⟨hanalyze, rest, hsource⟩

/-- Whether an entry is rejected, and why, is not up to the words. -/
theorem examine_error {entry : Entry} {words : Words} {error : Error}
    (h : examine entry words = .error error) (words' : Words) :
    examine entry words' = .error error := by
  rw [examine_eq] at h ⊢
  split at h
  · exact h
  · split at h
    · rename_i found hsource
      rw [Candidates.ofAnalysis_error hsource words']
      exact h
    · cases h

/-- An entry has one analysis, and its domains are the same for all words, in some order. -/
theorem Examined.perm {entry : Entry} {analysis analysis' : Analysis}
    {domains domains' : List String} (h : Examined entry analysis domains)
    (h' : Examined entry analysis' domains') : analysis = analysis' ∧ domains.Perm domains' := by
  obtain ⟨words, source, hexamine, rfl⟩ := h
  obtain ⟨words', source', hexamine', rfl⟩ := h'
  obtain ⟨hanalyze, rest, hsource⟩ := analyze_of_examine hexamine
  obtain ⟨hanalyze', rest', hsource'⟩ := analyze_of_examine hexamine'
  obtain rfl : analysis = analysis' := Except.ok.inj (hanalyze.symm.trans hanalyze')
  exact ⟨rfl, Candidates.toList_perm_of_ofAnalysis hsource hsource'⟩

/-! ### The order of launches and outcomes -/

/-- At no time have more look-ups for a domain come back than were launched. -/
def Orderly (body : List Note) : Prop :=
  ∀ front, front <+: body → (returnedIn front).Subperm (launchedIn front)

/-- At no time have more outcomes of a domain been reported than look-ups for it were launched. -/
def Ordered (body : List Note) : Prop :=
  ∀ front, front <+: body → (checkedIn front).Subperm (launchedIn front)

/-- Notes may follow in which nothing comes back but what was launched before. -/
theorem Orderly.append {body notes : List Note} (h : Orderly body)
    (hnotes : (returnedIn (body ++ notes)).Subperm (launchedIn body)) :
    Orderly (body ++ notes) := by
  intro front hfront
  obtain hwithin | hbeyond :=
    List.prefix_or_prefix_of_prefix hfront (List.prefix_append body notes)
  · exact h front hwithin
  · obtain ⟨new, rfl⟩ := hbeyond
    obtain ⟨rest, rfl⟩ := (List.prefix_append_right_inj body).1 hfront
    refine List.Subperm.trans (List.Sublist.subperm ?_) (hnotes.trans (List.Sublist.subperm ?_))
    · simp
    · simp

/-- Where look-ups speak of the domains they were launched for, an outcome of a domain is reported
after the launch of a look-up for it. -/
theorem Orderly.ordered {body : List Note} (h : Orderly body) (hechoed : Echoed body)
    (htruthful : Truthful body) : Ordered body :=
  fun front hfront =>
    (hechoed.checkedIn_prefix htruthful hfront).sublist.subperm.trans (h front hfront)

theorem perm_of_getElem? {l : List String} {place : Nat} {domain : String}
    (h : l[place]? = some domain) : (domain :: l.eraseIdx place).Perm l := by
  obtain ⟨hlt, rfl⟩ := List.getElem?_eq_some_iff.1 h
  exact List.getElem_cons_eraseIdx_perm hlt

/-! ### Look-ups under way -/

/-- What was under way or is launched comes back or stays under way. -/
theorem Moves.flow {rules : Rules σ} {s t : State σ} {action : Action} {notes : List Note}
    (h : Moves rules s action notes t) :
    (returnedIn notes ++ t.inFlight).Perm (launchedIn notes ++ s.inFlight) := by
  cases h with
  | cancel => exact List.Perm.refl _
  | close hphase => simp [State.inFlight, hphase]
  | take hphase => simp [State.inFlight, hphase]
  | reject hphase => simp [State.inFlight, State.reject, hphase]
  | begin hphase => simp [State.inFlight, State.begin, hphase]
  | finish hphase hblocked hidle => simp [State.inFlight, State.finish, hphase, hidle]
  | settle hphase => simp [State.inFlight, hphase]
  | exhaust hphase => simp [State.inFlight, hphase]
  | skip hphase => simp [State.inFlight, hphase]
  | pend hphase => simp [State.inFlight, hphase]
  | launch hphase => simp [State.inFlight, State.launch, hphase]
  | complete hphase hselect hplace =>
    simpa [State.inFlight, State.complete, hphase] using perm_of_getElem? hplace
  | giveUp hphase hidle => simp [State.inFlight, State.finish, hphase, hidle]

theorem Runs.flow {rules : Rules σ} {s t : State σ} {log : List Note} (h : Runs rules s log t) :
    (returnedIn log ++ t.inFlight).Perm (launchedIn log ++ s.inFlight) := by
  induction h with
  | refl => exact List.Perm.refl _
  | snoc hruns hstep ih =>
    have hmove := (moves_of_step hstep).flow
    refine List.perm_iff_count.2 fun domain => ?_
    have hbefore := List.perm_iff_count.1 ih domain
    have hnow := List.perm_iff_count.1 hmove domain
    simp only [returnedIn_append, launchedIn_append, List.count_append] at hbefore hnow ⊢
    omega

/-- When a hunt is closed, all that was under way or was launched since has come back. -/
theorem Runs.returnedIn_perm {rules : Rules σ} {s t : State σ} {log : List Note}
    (h : Runs rules s log t) (hclosed : t.phase = .closed) :
    (returnedIn log).Perm (s.inFlight ++ launchedIn log) := by
  have hidle : t.inFlight = [] := by simp only [State.inFlight, hclosed]
  have hflow := h.flow
  rw [hidle, List.append_nil] at hflow
  exact hflow.trans List.perm_append_comm

/-! ### The accounts -/

/-- All domains of an entry after some notes, by the place where they are. -/
structure Accounts (domains : List String) (body : List Note) (sweep : Sweep) : Prop where
  /-- The notes are of nothing but domains. -/
  inner : ∀ note ∈ body, note.isInner = true
  echoed : Echoed body
  orderly : Orderly body
  /-- What was launched has come back or is under way. -/
  flow : (returnedIn body ++ sweep.inFlight).Perm (launchedIn body)
  /-- What was not left out and not launched is pending or still to come. -/
  total : (skippedIn body ++ launchedIn body ++
    (sweep.pending.toList ++ sweep.source.toList)).Perm domains
  /-- Nothing is forgotten when the source is found empty. -/
  drained : sweep.exhausted = true → sweep.pending = none ∧ sweep.source.toList = []

/-- What has happened to the domains of an entry when it is left. -/
structure Settled (complete : Prop) (domains : List String) (body : List Note) : Prop where
  inner : ∀ note ∈ body, note.isInner = true
  echoed : Echoed body
  orderly : Orderly body
  flow : (returnedIn body).Perm (launchedIn body)
  within : (skippedIn body ++ launchedIn body).Subperm domains
  whole : complete → (skippedIn body ++ launchedIn body).Perm domains

/-- Each launch has an outcome of its domain if look-ups speak of the domains they were launched
for. -/
theorem Settled.checkedIn_perm {complete : Prop} {domains : List String} {body : List Note}
    (h : Settled complete domains body) (htruthful : Truthful body) :
    (checkedIn body).Perm (launchedIn body) := by
  rw [h.echoed.checkedIn_eq htruthful]
  exact h.flow

namespace Accounts

variable {domains : List String} {body : List Note} {sweep : Sweep}

theorem start (pattern : String) (source : Candidates) :
    Accounts source.toList []
      { pattern, source, pending := none, inFlight := [], exhausted := false } where
  inner := nofun
  echoed := .of_silent rfl rfl
  orderly := by
    intro front hfront
    rw [List.prefix_nil.1 hfront]
    exact List.Subperm.refl _
  flow := List.Perm.refl _
  total := List.Perm.refl _
  drained := nofun

theorem returnedIn_subperm (h : Accounts domains body sweep) :
    (returnedIn body).Subperm (launchedIn body) :=
  (List.sublist_append_left _ _).subperm.trans h.flow.subperm

theorem exhaust (h : Accounts domains body sweep) (hpending : sweep.pending = none)
    (hnext : sweep.source.next? = none) :
    Accounts domains body { sweep with exhausted := true } where
  inner := h.inner
  echoed := h.echoed
  orderly := h.orderly
  flow := h.flow
  total := h.total
  drained := fun _ => ⟨hpending, Candidates.toList_of_next?_none hnext⟩

/-- A source that gives a domain was not found empty. -/
theorem not_exhausted (h : Accounts domains body sweep) {domain : String} {source : Candidates}
    (hnext : sweep.source.next? = some (domain, source)) : sweep.exhausted = false := by
  by_contra hexhausted
  have hempty := (h.drained (by simpa using hexhausted)).2
  simp [Candidates.toList_of_next? hnext] at hempty

theorem skip (h : Accounts domains body sweep) {domain : String} {source : Candidates}
    (hnext : sweep.source.next? = some (domain, source)) :
    Accounts domains (body ++ [.told (.skipped domain)]) { sweep with source := source } where
  inner := List.forall_mem_append.2 ⟨h.inner, List.forall_mem_singleton.2 rfl⟩
  echoed := h.echoed.append (.of_silent rfl rfl)
  orderly := h.orderly.append (by simpa using h.returnedIn_subperm)
  flow := by simpa using h.flow
  total := by
    refine List.Perm.trans (List.perm_iff_count.2 fun d => ?_) h.total
    simp [Candidates.toList_of_next? hnext, List.count_cons]
    omega
  drained := fun hexhausted => by simp [h.not_exhausted hnext] at hexhausted

theorem pend (h : Accounts domains body sweep) {domain : String} {source : Candidates}
    (hpending : sweep.pending = none) (hnext : sweep.source.next? = some (domain, source)) :
    Accounts domains body { sweep with source := source, pending := some domain } where
  inner := h.inner
  echoed := h.echoed
  orderly := h.orderly
  flow := h.flow
  total := by simpa [hpending, Candidates.toList_of_next? hnext] using h.total
  drained := fun hexhausted => by simp [h.not_exhausted hnext] at hexhausted

theorem launch (h : Accounts domains body sweep) {domain : String}
    (hpending : sweep.pending = some domain) :
    Accounts domains (body ++ [.launched domain])
      { sweep with pending := none, inFlight := sweep.inFlight ++ [domain] } where
  inner := List.forall_mem_append.2 ⟨h.inner, List.forall_mem_singleton.2 rfl⟩
  echoed := h.echoed.append (.of_silent rfl rfl)
  orderly := h.orderly.append (by simpa using h.returnedIn_subperm)
  flow := by simpa [← List.append_assoc] using h.flow.append_right [domain]
  total := by
    refine List.Perm.trans (List.perm_iff_count.2 fun d => ?_) h.total
    simp [hpending]
  drained := fun hexhausted => by
    have hnone := (h.drained hexhausted).1
    simp [hpending] at hnone

/-- What was launched has come back, comes back now, or is still under way. -/
theorem flow_of_place (h : Accounts domains body sweep) {place : Nat} {domain : String}
    (hplace : sweep.inFlight[place]? = some domain) :
    (returnedIn body ++ domain :: sweep.inFlight.eraseIdx place).Perm (launchedIn body) :=
  ((List.perm_append_left_iff _).2 (perm_of_getElem? hplace)).trans h.flow

theorem complete (h : Accounts domains body sweep) {rules : Rules σ} {s : State σ} {place : Nat}
    {domain : String} (outcome : Outcome) (hplace : sweep.inFlight[place]? = some domain) :
    Accounts domains
      (body ++ .returned domain outcome :: .told (.checked outcome) :: s.checkpointNotes rules)
      { sweep with inFlight := sweep.inFlight.eraseIdx place } where
  inner := by
    refine List.forall_mem_append.2 ⟨h.inner, ?_⟩
    exact List.forall_mem_cons.2 ⟨rfl, List.forall_mem_cons.2
      ⟨rfl, fun note hnote => isInner_of_mem_checkpointNotes hnote⟩⟩
  echoed := h.echoed.append (.of_return domain (by simp) (by simp))
  orderly := by
    refine h.orderly.append (List.Subperm.trans ?_ (h.flow_of_place hplace).subperm)
    have hback : [domain].Sublist (domain :: sweep.inFlight.eraseIdx place) :=
      (List.nil_sublist _).cons_cons _
    simpa using (hback.append_left (returnedIn body)).subperm
  flow := by simpa using h.flow_of_place hplace
  total := by simpa using h.total
  drained := h.drained

/-- When nothing may be launched and nothing is under way, the entry is settled. If that is neither
because of the flag nor because nothing may ever be launched, all its domains are dealt with. -/
theorem settled (h : Accounts domains body sweep) {rules : Rules σ} {cancelled : Bool}
    (hblocked : canLaunch rules cancelled sweep = false) (hidle : sweep.inFlight = []) :
    Settled (0 < rules.concurrency ∧ cancelled = false) domains body where
  inner := h.inner
  echoed := h.echoed
  orderly := h.orderly
  flow := by simpa [hidle] using h.flow
  within := (List.sublist_append_left _ _).subperm.trans h.total.subperm
  whole := by
    rintro ⟨hconcurrency, rfl⟩
    have hexhausted : sweep.exhausted = true := by
      simpa [canLaunch, hidle, hconcurrency] using hblocked
    obtain ⟨hpending, hsource⟩ := h.drained hexhausted
    simpa [hpending, hsource] using h.total

end Accounts

end NameHunt.Hunt
