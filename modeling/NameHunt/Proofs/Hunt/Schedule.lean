import NameHunt.Proofs.Candidates
import NameHunt.Proofs.Hunt.Memory
import NameHunt.Proofs.Hunt.Scene

/-!
# Schedules

Which look-ups are under way at the same time is up to the schedule. Here look-ups fail, so that
nothing is learned on the way to a given domain.

* `Leads`: from every state of one kind a truthful run leads to a state of another kind.
* `Within`: the states within an entry, by the places of the domains.
* `leads_to_pending`: any domain to come that the cache does not know can come to be pending, with
  only those under way that are to stay there.
* `leads_to_twice`: one that is to come twice can be under way twice.
* `leads_to_entry`: every accepted entry can be begun before anything is learned.
-/

namespace NameHunt.Hunt

variable {σ : Type} {rules : Rules σ} {cache : Cache} {pending : Option String}
  {inFlight rest held extra : List String} {domain : String}

/-- From every state of one kind a truthful run leads to a state of another kind. -/
def Leads (rules : Rules σ) (P Q : State σ → Prop) : Prop :=
  ∀ s, P s → ∃ log t, Runs rules s log t ∧ Truthful log ∧ Q t

namespace Leads

variable {P Q R : State σ → Prop}

theorem refl (P : State σ → Prop) : Leads rules P P :=
  fun s hs => ⟨[], s, .refl s, nofun, hs⟩

theorem trans (h : Leads rules P Q) (h' : Leads rules Q R) : Leads rules P R := by
  intro s hs
  obtain ⟨log, t, hst, hlog, ht⟩ := h s hs
  obtain ⟨log', u, htu, hlog', hu⟩ := h' t ht
  exact ⟨log ++ log', u, hst.trans htu, truthful_append.2 ⟨hlog, hlog'⟩, hu⟩

theorem of_move
    (h : ∀ s, P s → ∃ action notes t, Moves rules s action notes t ∧ Honest s action ∧ Q t) :
    Leads rules P Q := by
  intro s hs
  obtain ⟨action, notes, t, hmove, hhonest, ht⟩ := h s hs
  exact ⟨notes, t, hmove.runs, hmove.truthful_iff.2 hhonest, ht⟩

end Leads

/-- The states within an entry where these domains are pending, under way, and to come. The flag is
down and the source was not found empty. -/
def Within (cache : Cache) (phase : Sweep → Phase) (pending : Option String)
    (inFlight rest : List String) (s : State σ) : Prop :=
  s.cancelled = false ∧ s.cache = cache ∧
    ∃ sweep, s.phase = phase sweep ∧ sweep.exhausted = false ∧ sweep.pending = pending ∧
      sweep.inFlight = inFlight ∧ sweep.source.toList = rest

/-! ### Single actions -/

theorem leads_settle (hlive : inFlight.length < rules.concurrency ∨ inFlight ≠ []) :
    Leads rules (Within cache .turning pending inFlight rest)
      (Within cache (.acting · (decide (inFlight.length < rules.concurrency))) pending inFlight
        rest) := by
  refine .of_move fun s hs => ?_
  obtain ⟨hopen, hcache, sweep, hphase, hexhausted, rfl, rfl, rfl⟩ := hs
  have hmay : canLaunch rules s.cancelled sweep =
      decide (sweep.inFlight.length < rules.concurrency) := by
    simp [canLaunch, hopen, hexhausted]
  have hmove := Moves.settle hphase hmay fun hfull => hlive.resolve_left (of_decide_eq_false hfull)
  exact ⟨_, _, _, hmove, trivial, hopen, hcache, sweep, rfl, hexhausted, rfl, rfl, rfl⟩

theorem leads_pull_known (hknown : cache.test domain = true) :
    Leads rules (Within cache (.acting · true) none inFlight (domain :: rest))
      (Within cache .turning none inFlight rest) := by
  refine .of_move fun s hs => ?_
  obtain ⟨hopen, rfl, sweep, hphase, hexhausted, hpending, hinFlight, hrest⟩ := hs
  obtain ⟨source, hnext, hsource⟩ := Candidates.next?_of_toList_eq_cons hrest
  exact ⟨_, _, _, .skip hphase hpending hnext hknown, trivial, hopen, rfl,
    { sweep with source := source }, rfl, hexhausted, hpending, hinFlight, hsource⟩

theorem leads_pull_new (hnew : cache.test domain = false) :
    Leads rules (Within cache (.acting · true) none inFlight (domain :: rest))
      (Within cache .turning (some domain) inFlight rest) := by
  refine .of_move fun s hs => ?_
  obtain ⟨hopen, rfl, sweep, hphase, hexhausted, hpending, hinFlight, hrest⟩ := hs
  obtain ⟨source, hnext, hsource⟩ := Candidates.next?_of_toList_eq_cons hrest
  exact ⟨_, _, _, .pend hphase hpending hnext hnew, trivial, hopen, rfl,
    { sweep with source := source, pending := some domain }, rfl, hexhausted, rfl, hinFlight,
    hsource⟩

theorem leads_launch :
    Leads rules (Within cache (.acting · true) (some domain) inFlight rest)
      (Within cache .turning none (inFlight ++ [domain]) rest) := by
  refine .of_move fun s hs => ?_
  obtain ⟨hopen, hcache, sweep, hphase, hexhausted, hpending, rfl, hrest⟩ := hs
  exact ⟨_, _, _, .launch hphase hpending, trivial, hopen, hcache,
    { sweep with pending := none, inFlight := sweep.inFlight ++ [domain] }, rfl, hexhausted, rfl,
    rfl, hrest⟩

theorem leads_fail {mayLaunch : Bool} {place : Nat} (hplace : inFlight[place]? = some domain)
    (hselect : mayLaunch = true → pending ≠ none) :
    Leads rules (Within cache (.acting · mayLaunch) pending inFlight rest)
      (Within cache .turning pending (inFlight.eraseIdx place) rest) := by
  refine .of_move fun s hs => ?_
  obtain ⟨hopen, hcache, sweep, hphase, hexhausted, rfl, rfl, hrest⟩ := hs
  have hmove : Moves rules s (.complete place (failure domain)) _
      (s.complete rules sweep place (failure domain)) := .complete hphase hselect hplace
  refine ⟨_, _, _, hmove, ?_, ?_, ?_, { sweep with inFlight := sweep.inFlight.eraseIdx place }, rfl,
    hexhausted, rfl, rfl, hrest⟩
  · intro sweep' mayLaunch' hphase'
    obtain ⟨rfl, -⟩ := Phase.acting.inj (hphase.symm.trans hphase')
    exact hplace
  · exact (State.checkpoint_frame rules _).1.trans hopen
  · exact (State.checkpoint_frame rules _).2.1.trans hcache

/-! ### The way to a domain -/

theorem leads_act (hroom : inFlight.length < rules.concurrency) :
    Leads rules (Within cache .turning pending inFlight rest)
      (Within cache (.acting · true) pending inFlight rest) := by
  have hsettle : Leads rules (Within cache .turning pending inFlight rest) _ :=
    leads_settle (.inl hroom)
  simpa only [hroom, decide_true] using hsettle

/-- Where no more may be launched, or where a domain is pending, a look-up can be waited for. -/
theorem leads_clear (hextra : extra.length ≤ 1)
    (hselect : (held ++ extra).length < rules.concurrency → pending ≠ none) :
    Leads rules (Within cache .turning pending (held ++ extra) rest)
      (Within cache .turning pending held rest) := by
  match extra, hextra with
  | [], _ => simpa using Leads.refl _
  | [domain], _ =>
    have hsettle : Leads rules (Within cache .turning pending (held ++ [domain]) rest) _ :=
      leads_settle (.inr (by simp))
    have hplace : (held ++ [domain])[held.length]? = some domain := by simp
    have hrest : (held ++ [domain]).eraseIdx held.length = held := by
      simp [List.eraseIdx_append_of_length_le]
    have hfail := hsettle.trans (leads_fail hplace fun hmay => hselect (by simpa using hmay))
    rwa [hrest] at hfail

/-- At most one look-up is given up to make room for another. -/
theorem leads_to_room (hheld : held.length < rules.concurrency) (hextra : extra.length ≤ 1) :
    ∃ extra', extra'.length ≤ 1 ∧ (held ++ extra').length < rules.concurrency ∧
      Leads rules (Within cache .turning none (held ++ extra) rest)
        (Within cache .turning none (held ++ extra') rest) := by
  by_cases hroom : (held ++ extra).length < rules.concurrency
  · exact ⟨extra, hextra, hroom, .refl _⟩
  · refine ⟨[], by simp, by simpa using hheld, ?_⟩
    rw [List.append_nil]
    exact leads_clear hextra fun h => absurd h hroom

/-- A domain that is to come next and that the cache does not know comes to be pending. -/
theorem leads_to_next (hextra : extra.length ≤ 1)
    (hroom : (held ++ extra).length < rules.concurrency) (hnew : cache.test domain = false) :
    Leads rules (Within cache .turning none (held ++ extra) (domain :: rest))
      (Within cache .turning (some domain) held rest) :=
  ((leads_act hroom).trans (leads_pull_new hnew)).trans (leads_clear hextra fun _ => nofun)

/-- A domain that is to come and that the cache does not know comes to be pending. The domains
before it are skipped, or launched and waited for. -/
theorem leads_to_pending (hheld : held.length < rules.concurrency)
    (hnew : cache.test domain = false) (front : List String) (extra : List String)
    (hextra : extra.length ≤ 1) :
    Leads rules (Within cache .turning none (held ++ extra) (front ++ domain :: rest))
      (Within cache .turning (some domain) held rest) := by
  -- `extra` is the look-up launched last, which is given up before the next launch. It cannot be
  -- given up at once, because a hunt with room for more pulls first.
  induction front generalizing extra with
  | nil =>
    obtain ⟨extra', hextra', hroom, hmake⟩ := leads_to_room hheld hextra
    exact hmake.trans (leads_to_next hextra' hroom hnew)
  | cons first front ih =>
    obtain ⟨extra', hextra', hroom, hmake⟩ := leads_to_room hheld hextra
    refine hmake.trans ?_
    cases hfirst : cache.test first with
    | true => exact ((leads_act hroom).trans (leads_pull_known hfirst)).trans (ih extra' hextra')
    | false =>
      refine (leads_to_next hextra' hroom hfirst).trans ?_
      exact ((leads_act hheld).trans leads_launch).trans (ih [first] (Nat.le_refl 1))

theorem leads_to_launched (hheld : held.length < rules.concurrency)
    (hnew : cache.test domain = false) (front : List String) :
    Leads rules (Within cache .turning none held (front ++ domain :: rest))
      (Within cache .turning none (held ++ [domain]) rest) := by
  have hpending : Leads rules (Within cache .turning none (held ++ []) (front ++ domain :: rest))
      (Within cache .turning (some domain) held rest) :=
    leads_to_pending hheld hnew front [] (Nat.zero_le 1)
  rw [List.append_nil] at hpending
  exact hpending.trans ((leads_act hheld).trans leads_launch)

/-- A domain that is to come twice and that the cache does not know can be under way twice. -/
theorem leads_to_twice (hconcurrency : 2 ≤ rules.concurrency) (hnew : cache.test domain = false)
    (hcount : 2 ≤ rest.count domain) :
    ∃ rest', Leads rules (Within cache .turning none [] rest)
      (Within cache .turning none [domain, domain] rest') := by
  have hmem : domain ∈ rest := List.count_pos_iff.1 (by omega)
  obtain ⟨front, back, rfl, hfront⟩ := List.eq_append_cons_of_mem hmem
  have hback : domain ∈ back := by
    have hzero : front.count domain = 0 := List.count_eq_zero.2 hfront
    rw [List.count_append, List.count_cons_self] at hcount
    exact List.count_pos_iff.1 (by omega)
  obtain ⟨middle, rest', rfl⟩ := List.append_of_mem hback
  have hfirst : ([] : List String).length < rules.concurrency := by simpa using by omega
  have hsecond : [domain].length < rules.concurrency := by simpa using by omega
  exact ⟨rest', (leads_to_launched hfirst hnew front).trans (leads_to_launched hsecond hnew middle)⟩

/-! ### The way to an entry -/

/-- The states that have learned nothing yet, with these entries to come. -/
def Waiting (cache : Cache) (entries : List Entry) (s : State σ) : Prop :=
  s.cancelled = false ∧ s.cache = cache ∧ s.entries = entries

theorem waiting_of_next {entries : List Entry} {s s₁ t : State σ} {world world₁ : Unit}
    {action : Action} (hwaiting : Waiting cache entries s) (hphase : s.phase ≠ .boundary)
    (hclosed : s.phase ≠ .closed)
    (hnext : (Scene.uniform rules failure).next s world = some (action, s₁, world₁))
    (hstep : step rules s₁ action = some t) :
    Honest s action ∧ step rules s action = some t ∧ Waiting cache entries t ∧
      t.phase ≠ .closed := by
  obtain ⟨hopen, hcache, hentries⟩ := hwaiting
  obtain rfl := Scene.eq_of_next (Scene.uniform_calm rules failure) hnext
  have hfaithful : (Scene.uniform rules failure).Faithful := fun _ _ => rfl
  have hmove := moves_of_step hstep
  have hnothing : answeredIn (s₁.notesTo action t) = [] := by
    simp only [answeredIn, List.map_eq_nil_iff, List.filter_eq_nil_iff]
    intro outcome hmem
    obtain ⟨domain, hreturned⟩ := hmove.echoed.exists_returned hmem
    obtain ⟨world', rfl⟩ := (Scene.returns_of_next hnext).2 domain outcome
      (State.returned_mem_notesTo hreturned)
    exact Bool.false_ne_true
  obtain ⟨hsame, hlive⟩ := hmove.stays hphase
  refine ⟨Scene.honest_of_next hfaithful hnext, hstep, ⟨?_, ?_, hsame.trans hentries⟩,
    hlive hclosed⟩
  · rw [hmove.cancelled_eq (Scene.progress_next _ hnext).1, hopen]
  · rw [hmove.cache_eq, hnothing, Cache.insertAll_nil, hcache]

/-- With failing look-ups alone an entry can be gone through. -/
theorem leads_to_boundary (entries : List Entry) :
    Leads rules (fun s => Waiting cache entries s ∧ s.phase ≠ .closed)
      (fun s => Waiting cache entries s ∧ s.phase = .boundary) := by
  rintro s ⟨hwaiting, hclosed⟩
  suffices ∀ world, ∃ log t, Runs rules s log t ∧ Truthful log ∧ Waiting cache entries t ∧
      t.phase = .boundary from this ()
  intro world
  fun_induction Scene.runFrom (Scene.uniform rules failure) s world with
  | case1 s world hnext => exact absurd (Scene.phase_of_next_none hnext) hclosed
  | case2 s world action s₁ world₁ hnext t hstep ih =>
    by_cases hphase : s.phase = .boundary
    · exact ⟨[], s, .refl s, truthful_of_returnsIn rfl, hwaiting, hphase⟩
    · obtain ⟨hhonest, hstep', hwaiting', hclosed'⟩ :=
        waiting_of_next hwaiting hphase hclosed hnext hstep
      have htruthful := (moves_of_step hstep').truthful_iff.2 hhonest
      obtain ⟨log, u, hruns, hlog, hboundary⟩ := ih hwaiting' hclosed'
      exact ⟨_, u, (Runs.of_step hstep').trans hruns, truthful_append.2 ⟨htruthful, hlog⟩,
        hboundary⟩

theorem leads_to_examining (entry : Entry) (entries : List Entry) :
    Leads rules (fun s => Waiting cache (entry :: entries) s ∧ s.phase = .boundary)
      (fun s => Waiting cache entries s ∧ s.phase = .examining entry) := by
  refine .of_move fun s hs => ?_
  obtain ⟨⟨hopen, hcache, hentries⟩, hphase⟩ := hs
  exact ⟨_, _, _, .take hphase hentries hopen, trivial, ⟨hopen, hcache, rfl⟩, rfl⟩

theorem leads_to_begin {entries : List Entry} {entry : Entry} {words : Words}
    {analysis : Analysis} {source : Candidates}
    (hexamine : examine entry words = .ok (analysis, source)) :
    Leads rules (fun s => Waiting cache entries s ∧ s.phase = .examining entry)
      (Within cache .turning none [] source.toList) := by
  refine .of_move fun s hs => ?_
  obtain ⟨⟨hopen, hcache, -⟩, hphase⟩ := hs
  exact ⟨_, _, _, .begin hphase hexamine, trivial, hopen, hcache, _, rfl, rfl, rfl, rfl, rfl⟩

/-- Every accepted entry can be begun before anything is learned. -/
theorem leads_to_entry (before after : List Entry) {entry : Entry} {words : Words}
    {analysis : Analysis} {source : Candidates}
    (hexamine : examine entry words = .ok (analysis, source)) :
    Leads rules (fun s => Waiting cache (before ++ entry :: after) s ∧ s.phase = .boundary)
      (Within cache .turning none [] source.toList) := by
  induction before with
  | nil => exact (leads_to_examining entry after).trans (leads_to_begin hexamine)
  | cons first before ih =>
    refine (leads_to_examining first (before ++ entry :: after)).trans ?_
    have hdone : Leads rules
        (fun s => Waiting cache (before ++ entry :: after) s ∧ s.phase = .examining first)
        (fun s => Waiting cache (before ++ entry :: after) s ∧ s.phase = .boundary) :=
      fun s hs => leads_to_boundary _ s ⟨hs.1, by simp [hs.2]⟩
    exact hdone.trans ih

end NameHunt.Hunt
