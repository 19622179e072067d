import NameHunt.Cache.Basic

/-!
# How caches grow

* `Cache.insertAll`: a cache with several more texts.
* `Cache.isSet_insertAll`: the slots of the texts are set and no others.
* `Cache.test_insertAll`: a text is found if it was found before or shares its slot with a new one.
-/

namespace NameHunt.Cache

/-- The cache with several more texts. -/
def insertAll (c : Cache) (texts : List String) : Cache :=
  texts.foldl insert c

@[simp] theorem insertAll_nil (c : Cache) : c.insertAll [] = c := rfl

theorem insertAll_cons (c : Cache) (s : String) (texts : List String) :
    c.insertAll (s :: texts) = (c.insert s).insertAll texts := rfl

theorem insertAll_append (c : Cache) (texts texts' : List String) :
    c.insertAll (texts ++ texts') = (c.insertAll texts).insertAll texts' :=
  List.foldl_append

@[simp] theorem capacity_insertAll (c : Cache) (texts : List String) :
    (c.insertAll texts).capacity = c.capacity := by
  induction texts generalizing c with
  | nil => rfl
  | cons s texts ih => exact ih (c.insert s)

@[simp] theorem slot_insertAll (c : Cache) (texts : List String) (s : String) :
    (c.insertAll texts).slot s = c.slot s := by
  simp only [slot, capacity_insertAll]

/-- The slots of the texts are set, and no others that were not. -/
theorem isSet_insertAll (c : Cache) (texts : List String) (i : Nat) :
    (c.insertAll texts).isSet i = true ↔ c.isSet i = true ∨ ∃ s ∈ texts, c.slot s = i := by
  induction texts generalizing c with
  | nil => simp
  | cons s texts ih =>
    have hslot : ∀ t, (c.insert s).slot t = c.slot t := fun _ => rfl
    rw [insertAll_cons, ih, isSet_insert]
    simp [hslot, or_assoc]

/-- A text is found if it was found before or shares its slot with a new one. -/
theorem test_insertAll (c : Cache) (texts : List String) (t : String) :
    (c.insertAll texts).test t = true ↔ c.test t = true ∨ ∃ s ∈ texts, c.slot s = c.slot t := by
  unfold test
  rw [slot_insertAll, isSet_insertAll]

theorem test_insertAll_of_mem (c : Cache) {texts : List String} {s : String} (h : s ∈ texts) :
    (c.insertAll texts).test s = true :=
  (c.test_insertAll texts s).2 (.inr ⟨s, h, rfl⟩)

theorem test_insertAll_of_test {c : Cache} {t : String} (h : c.test t = true)
    (texts : List String) : (c.insertAll texts).test t = true :=
  (c.test_insertAll texts t).2 (.inl h)

end NameHunt.Cache
