import NameHunt.Proofs.Hunt.Chapters
import NameHunt.Proofs.Hunt.Memory
import NameHunt.Proofs.Hunt.Schedule

/-!
# Domains that come more than once

The cache is asked for a domain when it is pulled, and told of it when it is answered. In between
the same domain may be pulled again, if its entry has it more than once. Entries come one after the
other, so that a domain of two entries is no such case.

* `Single`: what is pending or under way was not answered and is there once.
* `Single.move`: a pull keeps that if the domain is not under way.
* `exists_answered_twice`: otherwise some run answers a domain twice.
* `answered_once_iff`: when no run answers a domain twice.
-/

namespace NameHunt.Hunt

variable {σ : Type} {rules : Rules σ} {entries : List Entry} {cache : Cache} {s t : State σ}
  {action : Action} {log notes : List Note}

/-- The domains that are pending or under way. -/
def State.inHand (s : State σ) : List String :=
  s.pending?.toList ++ s.inFlight

theorem State.inHand_turning {sweep : Sweep} (h : s.phase = .turning sweep) :
    s.inHand = sweep.pending.toList ++ sweep.inFlight := by
  simp [inHand, pending?, inFlight, h]

theorem State.inHand_acting {sweep : Sweep} {mayLaunch : Bool}
    (h : s.phase = .acting sweep mayLaunch) :
    s.inHand = sweep.pending.toList ++ sweep.inFlight := by
  simp [inHand, pending?, inFlight, h]

/-- What was answered has come back. -/
theorem answeredIn_sublist (log : List Note) : (answeredIn log).Sublist (checkedIn log) :=
  List.filter_sublist.map Outcome.domain

/-! ### One look-up for each domain -/

/-- What an honest move does to the domains in hand: it pulls one that the cache does not know, or
adds none. -/
theorem Moves.inHand_cases (h : Moves rules s action notes t) (htruthful : Truthful notes) :
    (∀ domain, (answeredIn notes).count domain + t.inHand.count domain ≤ s.inHand.count domain) ∨
      ∃ sweep domain source, s.phase = .acting sweep true ∧ sweep.pending = none ∧
        sweep.source.next? = some (domain, source) ∧ s.cache.test domain = false ∧ notes = [] ∧
        t.inHand = domain :: s.inHand := by
  have hfewer : t.inHand.Subperm s.inHand → answeredIn notes = [] →
      ∀ domain, (answeredIn notes).count domain + t.inHand.count domain ≤
        s.inHand.count domain := by
    intro hsub hnothing domain
    simpa [hnothing] using hsub.count_le domain
  cases h with
  | cancel => exact .inl (hfewer (List.Subperm.refl _) rfl)
  | settle hphase =>
    refine .inl (hfewer ?_ rfl)
    rw [State.inHand_acting rfl, State.inHand_turning hphase]
  | exhaust hphase =>
    refine .inl (hfewer ?_ rfl)
    rw [State.inHand_turning rfl, State.inHand_acting hphase]
  | skip hphase =>
    refine .inl (hfewer ?_ rfl)
    rw [State.inHand_turning rfl, State.inHand_acting hphase]
  | @pend sweep domain source hphase hpending hnext hnew =>
    refine .inr ⟨sweep, domain, source, hphase, hpending, hnext, hnew, rfl, ?_⟩
    rw [State.inHand_turning rfl, State.inHand_acting hphase, hpending]
    rfl
  | launch hphase hpending =>
    refine .inl (hfewer ?_ rfl)
    rw [State.inHand_turning rfl, State.inHand_acting hphase, hpending]
    exact (List.perm_append_singleton _ _).subperm
  | @complete sweep mayLaunch place domain outcome hphase hselect hplace =>
    obtain rfl : outcome.domain = domain := htruthful domain outcome List.mem_cons_self
    refine .inl fun domain => ?_
    have hback := List.perm_iff_count.1 (perm_of_getElem? hplace) domain
    have hanswered := (answeredIn_sublist (.returned outcome.domain outcome ::
      .told (.checked outcome) :: (s.record outcome).checkpointNotes rules)).count_le domain
    have hchecked : checkedIn (.returned outcome.domain outcome :: .told (.checked outcome) ::
      (s.record outcome).checkpointNotes rules) = [outcome.domain] := by simp
    rw [hchecked] at hanswered
    rw [State.inHand_turning rfl, State.inHand_acting hphase]
    simp only [List.count_append, List.count_cons, List.count_nil] at hback hanswered ⊢
    omega
  | _ => exact .inl (hfewer (List.nil_subperm) rfl)

/-- Every domain is answered, pending or under way at most once. -/
def Single (s : State σ) (log : List Note) : Prop :=
  ∀ domain, (answeredIn log).count domain + s.inHand.count domain ≤ 1

/-- A domain that the cache does not know was not answered. -/
theorem Remembers.count_answered (h : Remembers cache s log) {domain : String}
    (hnew : s.cache.test domain = false) : (answeredIn log).count domain = 0 := by
  refine List.count_eq_zero.2 fun hanswered => ?_
  rw [h.grown, Cache.test_insertAll_of_mem cache hanswered] at hnew
  cases hnew

/-- If what is pulled and not known is not in hand, all domains are there once again. -/
theorem Single.move (h : Single s log) (hremembers : Remembers cache s log)
    (hmove : Moves rules s action notes t) (htruthful : Truthful notes)
    (hfresh : ∀ sweep domain source, s.phase = .acting sweep true → sweep.pending = none →
      sweep.source.next? = some (domain, source) → s.cache.test domain = false →
      s.inHand.count domain = 0) :
    Single t (log ++ notes) := by
  intro domain
  have hbefore := h domain
  rw [answeredIn_append, List.count_append]
  obtain hfewer | ⟨sweep, pulled, source, hphase, hpending, hnext, hnew, rfl, hhand⟩ :=
    hmove.inHand_cases htruthful
  · have hnow := hfewer domain
    omega
  · rw [hhand, answeredIn_nil, List.count_nil, List.count_cons]
    by_cases hsame : pulled = domain
    · subst hsame
      have hanswered := hremembers.count_answered hnew
      have hhands := hfresh sweep pulled source hphase hpending hnext hnew
      simp [hanswered, hhands]
    · simpa [hsame] using hbefore

/-- The cache knows each domain that an accepted entry has more than once. -/
def RepeatsKnown (entries : List Entry) (cache : Cache) : Prop :=
  ∀ entry ∈ entries, ∀ analysis domains, Examined entry analysis domains →
    ∀ domain, 2 ≤ domains.count domain → cache.test domain = true

/-- Of what is still to come nothing is under way that is not there more than once. -/
theorem Accounts.count_inFlight {domains : List String} {body : List Note} {sweep : Sweep}
    (h : Accounts domains body sweep) {domain : String} {source : Candidates}
    (hnext : sweep.source.next? = some (domain, source)) (honce : domains.count domain ≤ 1) :
    sweep.inFlight.count domain = 0 := by
  have htotal := List.perm_iff_count.1 h.total domain
  have hflow := List.perm_iff_count.1 h.flow domain
  simp only [Candidates.toList_of_next? hnext, List.count_append, List.count_cons_self] at htotal
  rw [List.count_append] at hflow
  omega

/-- What is pulled and not known is not in hand, if there is room for one look-up alone, or if the
cache knew from the start what comes more than once. -/
theorem Told.count_inHand (h : Told rules entries s log) (hremembers : Remembers cache s log)
    (hrule : rules.concurrency ≤ 1 ∨ RepeatsKnown entries cache) {sweep : Sweep} {domain : String}
    {source : Candidates} (hphase : s.phase = .acting sweep true) (hpending : sweep.pending = none)
    (hnext : sweep.source.next? = some (domain, source)) (hnew : s.cache.test domain = false) :
    s.inHand.count domain = 0 := by
  obtain ⟨chapters, admitted, current, -, hstory⟩ := h
  have hpresent := hstory.present
  simp only [Present, hphase, forall_const] at hpresent
  obtain ⟨⟨entry, analysis, domains, body, rfl, -, -, hexamined, haccounts⟩, hroom, -⟩ := hpresent
  rw [State.inHand_acting hphase, hpending, Option.toList_none, List.nil_append]
  obtain hone | hknown := hrule
  -- A look-up that may be launched where there is room for one is the only one.
  · have hidle : sweep.inFlight = [] := List.length_eq_zero_iff.1 (by omega)
    rw [hidle, List.count_nil]
  · refine haccounts.count_inFlight hnext ?_
    by_contra hrepeated
    have hentry : entry ∈ entries := by simp [hstory.entries_eq]
    have htest := hknown entry hentry analysis domains hexamined domain (by omega)
    simp [hremembers.unknown hnew] at htest

/-- Then no truthful run has a domain answered twice. -/
theorem single_of_runs {cancelled : Bool} {disk : σ}
    (hrule : rules.concurrency ≤ 1 ∨ RepeatsKnown entries cache)
    (h : Runs rules (.start entries cancelled cache disk) log t) (htruthful : Truthful log) :
    Single t log := by
  have hall : Told rules entries t log ∧ Remembers cache t log ∧ Single t log := by
    induction h with
    | refl =>
      refine ⟨told_start rules entries cancelled cache disk,
        remembers_start entries cancelled cache disk, ?_⟩
      intro domain
      simp [State.inHand, State.inFlight, State.pending?, State.start]
    | snoc hruns hstep ih =>
      obtain ⟨hbefore, hnow⟩ := truthful_append.1 htruthful
      obtain ⟨htold, hremembers, hsingle⟩ := ih hbefore
      have hmove := moves_of_step hstep
      exact ⟨told_of_move htold hmove, hremembers.move hmove, hsingle.move hremembers hmove hnow
        fun sweep domain source hphase hpending hnext hnew =>
          htold.count_inHand hremembers hrule hphase hpending hnext hnew⟩
  exact hall.2.2

/-! ### Two look-ups for one domain -/

/-- What is under way can come back with answers. -/
theorem exists_answered_inFlight (rules : Rules σ) (s : State σ) :
    ∃ log t, Runs rules s log t ∧ Truthful log ∧ t.phase = .closed ∧
      s.inFlight.Subperm (answeredIn log) := by
  obtain ⟨log, hruns, hclosed, -, htruthful, htaken⟩ := Scene.exists_runs_taken rules s
  refine ⟨log, _, hruns, htruthful, hclosed, ?_⟩
  have hall : (outcomesIn log).filter Outcome.success = outcomesIn log :=
    List.filter_eq_self.2 htaken
  have hanswered : answeredIn log = returnedIn log := by
    rw [answeredIn, hall, ← hruns.echoed.checkedIn_eq htruthful, checkedIn]
  rw [hanswered]
  exact (List.sublist_append_left _ _).subperm.trans (hruns.returnedIn_perm hclosed).symm.subperm

/-- With room for two look-ups, a domain that an accepted entry has more than once and that the
cache does not know can be answered twice. -/
theorem exists_answered_twice (hconcurrency : 2 ≤ rules.concurrency) {entry : Entry}
    (hentry : entry ∈ entries) {analysis : Analysis} {domains : List String}
    (hexamined : Examined entry analysis domains) {domain : String}
    (hrepeated : 2 ≤ domains.count domain) (hnew : cache.test domain = false) (disk : σ) :
    ∃ log t, Runs rules (.start entries false cache disk) log t ∧ Truthful log ∧
      t.phase = .closed ∧ 2 ≤ (answeredIn log).count domain := by
  -- Nothing is learned before the entry, both launches come before the first answer.
  obtain ⟨before, after, rfl⟩ := List.append_of_mem hentry
  obtain ⟨words, source, hexamine, rfl⟩ := hexamined
  obtain ⟨rest, htwice⟩ := leads_to_twice hconcurrency hnew hrepeated
  obtain ⟨log, s, hruns, hlog, -, -, sweep, hphase, -, -, hinFlight, -⟩ :=
    ((leads_to_entry before after hexamine).trans htwice)
      (.start (before ++ entry :: after) false cache disk) ⟨⟨rfl, rfl, rfl⟩, rfl⟩
  obtain ⟨log', t, hruns', hlog', hclosed, hanswered⟩ := exists_answered_inFlight rules s
  refine ⟨log ++ log', t, hruns.trans hruns', truthful_append.2 ⟨hlog, hlog'⟩, hclosed, ?_⟩
  have hboth : s.inFlight.count domain = 2 := by
    simp [State.inFlight, hphase, hinFlight]
  have hcount := hanswered.count_le domain
  rw [answeredIn_append, List.count_append]
  omega

/-- No truthful run has a domain answered twice if and only if there is room for one look-up alone,
or the cache knows from the start each domain that an accepted entry has more than once. -/
theorem answered_once_iff {disk : σ} :
    (∀ cancelled log t, Runs rules (.start entries cancelled cache disk) log t → Truthful log →
        ∀ domain, (answeredIn log).count domain ≤ 1) ↔
      rules.concurrency ≤ 1 ∨ RepeatsKnown entries cache := by
  constructor
  · intro honce
    by_contra hrule
    obtain ⟨hconcurrency, hunknown⟩ := not_or.1 hrule
    simp only [RepeatsKnown, not_forall, Bool.not_eq_true] at hunknown
    obtain ⟨entry, hentry, analysis, domains, hexamined, domain, hrepeated, hnew⟩ := hunknown
    obtain ⟨log, t, hruns, htruthful, -, htwice⟩ :=
      exists_answered_twice (Nat.lt_of_not_le hconcurrency) hentry hexamined hrepeated hnew disk
    have hone := honce false log t hruns htruthful domain
    omega
  · intro hrule cancelled log t hruns htruthful domain
    have hsingle := single_of_runs hrule hruns htruthful domain
    omega

theorem examined_doubled :
    Examined doubled (Analysis.of "ab" [".com", ".com"]) ["ab.com", "ab.com"] := by
  have hexamine : examine doubled ⟨fun _ => 0, 0⟩ =
      .ok (Analysis.of "ab" [".com", ".com"],
        ⟨⟨Pattern.parse "ab", .listed #[0], 0⟩, [".com", ".com"], "", []⟩) := by cbv
  refine ⟨_, _, hexamine, ?_⟩
  obtain ⟨-, rest, hsource⟩ := analyze_of_examine hexamine
  have hperm := Candidates.toList_perm_spelled hsource
  have hspelled : Candidates.spelled (Analysis.of "ab" [".com", ".com"]) =
      List.replicate 2 "ab.com" := by cbv
  rw [hspelled] at hperm
  exact List.perm_replicate.1 hperm

/-- One extension given twice is enough to answer a domain twice. -/
theorem doubled_answered_twice :
    ¬ ∀ (cancelled : Bool) (log : List Note) (t : State Unit),
      Runs twoAtOnce (.start [doubled] cancelled eightSlots ()) log t → Truthful log →
        ∀ domain, (answeredIn log).count domain ≤ 1 := by
  intro honce
  have hnew : eightSlots.test "ab.com" = false :=
    Bits.get_replicate 1 (eightSlots.slot "ab.com")
  have hrepeated : 2 ≤ ["ab.com", "ab.com"].count "ab.com" := by decide
  have hconcurrency : 2 ≤ twoAtOnce.concurrency := Nat.le_refl 2
  obtain ⟨log, t, hruns, htruthful, -, htwice⟩ := exists_answered_twice hconcurrency
    (List.mem_singleton.2 rfl) examined_doubled hrepeated hnew ()
  have hone := honce false log t hruns htruthful "ab.com"
  omega

end NameHunt.Hunt
