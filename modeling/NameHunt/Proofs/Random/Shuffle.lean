import NameHunt.Random.Shuffle

/-!
# A shuffle reorders

Whatever the words are, a shuffle only exchanges places.

* `Words.shuffle_perm`: the array after a shuffle is the array before it in another order.
-/

namespace NameHunt.Words

variable {α : Type}

theorem swapIfInBounds_perm (items : Array α) (i j : Nat) :
    (items.swapIfInBounds i j).Perm items := by
  unfold Array.swapIfInBounds
  split
  · split
    · exact Array.swap_perm _ _
    · exact Array.Perm.rfl
  · exact Array.Perm.rfl

theorem shuffleFrom_perm (i : Nat) (items : Array α) (words : Words) :
    (shuffleFrom i items words).1.Perm items := by
  induction i generalizing items words with
  | zero => exact Array.Perm.rfl
  | succ i ih => exact (ih _ _).trans (swapIfInBounds_perm items (i + 1) _)

/-- The array after a shuffle is the array before it in another order. -/
theorem shuffle_perm (items : Array α) (words : Words) :
    (words.shuffle items).1.Perm items :=
  shuffleFrom_perm (items.size - 1) items words

end NameHunt.Words
