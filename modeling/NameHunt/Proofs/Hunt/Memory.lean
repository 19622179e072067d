import NameHunt.Proofs.Cache.Growth
import NameHunt.Proofs.Hunt.Log

/-!
# What a hunt remembers

The cache grows by the domains about which something was found out. A domain that it knew from the
start is never launched, and one that is skipped is known ever after.

* `Moves.cache_eq`: what an action does to the cache.
* `Remembers`: how the log fits the caches before and after.
* `remembers_of_runs`: it fits in every run.
-/

namespace NameHunt.Hunt

variable {σ : Type} {rules : Rules σ} {s t : State σ} {action : Action} {log notes : List Note}

/-- The domain that was pulled and not launched yet. -/
def State.pending? (s : State σ) : Option String :=
  match s.phase with
  | .turning sweep | .acting sweep _ => sweep.pending
  | _ => none

/-- What was found out goes into the cache, and nothing else. -/
theorem Moves.cache_eq (h : Moves rules s action notes t) :
    t.cache = s.cache.insertAll (answeredIn notes) := by
  cases h with
  | @complete sweep mayLaunch place domain outcome hphase hselect hplace =>
    have hcache : (s.complete rules sweep place outcome).cache = (s.record outcome).cache :=
      (State.checkpoint_frame rules _).2.1
    rw [hcache]
    cases hsuccess : outcome.success <;> simp [State.record, answeredIn, hsuccess, Cache.insertAll]
  | _ => rfl

/-- Nothing is skipped that the cache does not know. -/
theorem Moves.test_of_skipped (h : Moves rules s action notes t) {domain : String}
    (hskipped : domain ∈ skippedIn notes) : s.cache.test domain = true := by
  cases h with
  | skip hphase hpending hnext hknown =>
    obtain rfl : domain = _ := by simpa using hskipped
    exact hknown
  | _ => simp at hskipped

/-- Nothing is launched that is not pending. -/
theorem Moves.pending_of_launched (h : Moves rules s action notes t) {domain : String}
    (hlaunched : domain ∈ launchedIn notes) : s.pending? = some domain := by
  cases h with
  | launch hphase hpending =>
    obtain rfl : domain = _ := by simpa using hlaunched
    simp [State.pending?, hphase, hpending]
  | _ => simp at hlaunched

/-- Nothing comes to be pending that the cache knows. -/
theorem Moves.pending_of_pending (h : Moves rules s action notes t) {domain : String}
    (hpending : t.pending? = some domain) :
    s.pending? = some domain ∨ s.cache.test domain = false := by
  cases h with
  | cancel => exact .inl hpending
  | settle hphase => exact .inl (by simpa [State.pending?, hphase] using hpending)
  | exhaust hphase => exact .inl (by simpa [State.pending?, hphase] using hpending)
  | skip hphase => exact .inl (by simpa [State.pending?, hphase] using hpending)
  | pend hphase hnone hnext hnew =>
    obtain rfl := Option.some.inj hpending
    exact .inr hnew
  | complete hphase => exact .inl (by simpa [State.pending?, State.complete, hphase] using hpending)
  | _ => cases hpending

/-- How the log fits the cache before it and the state after it. -/
structure Remembers (cache : Cache) (s : State σ) (log : List Note) : Prop where
  grown : s.cache = cache.insertAll (answeredIn log)
  skipped : ∀ domain ∈ skippedIn log, s.cache.test domain = true
  launched : ∀ domain ∈ launchedIn log, cache.test domain = false
  pending : ∀ domain, s.pending? = some domain → cache.test domain = false

/-- What the cache does not know now it did not know before. -/
theorem Remembers.unknown {cache : Cache} (h : Remembers cache s log) {domain : String}
    (hnew : s.cache.test domain = false) : cache.test domain = false := by
  cases hknown : cache.test domain with
  | false => rfl
  | true =>
    have hstill := Cache.test_insertAll_of_test hknown (answeredIn log)
    rw [← h.grown, hnew] at hstill
    cases hstill

theorem Remembers.move {cache : Cache} (h : Remembers cache s log)
    (hmove : Moves rules s action notes t) : Remembers cache t (log ++ notes) where
  grown := by rw [hmove.cache_eq, h.grown, answeredIn_append, Cache.insertAll_append]
  skipped := by
    intro domain hmem
    rw [hmove.cache_eq]
    refine Cache.test_insertAll_of_test ?_ _
    rw [skippedIn_append, List.mem_append] at hmem
    obtain hold | hnow := hmem
    · exact h.skipped domain hold
    · exact hmove.test_of_skipped hnow
  launched := by
    intro domain hmem
    rw [launchedIn_append, List.mem_append] at hmem
    obtain hold | hnow := hmem
    · exact h.launched domain hold
    · exact h.pending domain (hmove.pending_of_launched hnow)
  pending := by
    intro domain hpending
    obtain hold | hnew := hmove.pending_of_pending hpending
    · exact h.pending domain hold
    · exact h.unknown hnew

theorem remembers_start (entries : List Entry) (cancelled : Bool) (cache : Cache) (disk : σ) :
    Remembers cache (.start entries cancelled cache disk) [] :=
  ⟨rfl, nofun, nofun, nofun⟩

/-- In every run the log fits the cache before and the cache after. -/
theorem remembers_of_runs {entries : List Entry} {cancelled : Bool} {cache : Cache} {disk : σ}
    (h : Runs rules (.start entries cancelled cache disk) log t) : Remembers cache t log := by
  induction h with
  | refl => exact remembers_start entries cancelled cache disk
  | snoc hruns hstep ih => exact ih.move (moves_of_step hstep)

end NameHunt.Hunt
