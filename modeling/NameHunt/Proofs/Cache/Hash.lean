import Mathlib.Algebra.BigOperators.Fin
import Mathlib.Data.Int.ModEq
import Mathlib.Tactic.Ring
import NameHunt.Proofs.Cache.Growth

/-!
# The hash as a polynomial

The words of the hash wrap around, so a row of units comes to its polynomial in 31, and reading the
word as a signed number comes to the remainder in the middle of the range. The units of one text
after those of another shift the first polynomial, which is why texts with one hash keep having one
hash under whatever is put behind them.

* `Hash.polynomial`: the value of a row of units.
* `Hash.toNat_foldl_step`: a row of units in words that wrap around.
* `hash_eq_bmod`, `hash_append`: the hash of a text, and of two texts put together.
* `Cache.slot_append_eq`: texts with one hash share their slots under every extension.
* `Hashed`, `hashed`: what the hash of a text decides.
-/

namespace NameHunt

namespace Hash

/-- The polynomial with the units as coefficients, the last unit lowest. -/
def polynomial (units : List Nat) : Nat :=
  ∑ i : Fin units.length, units[i] * 31 ^ (units.length - 1 - i)

theorem polynomial_nil : polynomial [] = 0 := rfl

theorem polynomial_cons (unit : Nat) (units : List Nat) :
    polynomial (unit :: units) = unit * 31 ^ units.length + polynomial units := by
  refine (Fin.sum_univ_succ _).trans (congrArg (unit * 31 ^ units.length + ·) ?_)
  refine Finset.sum_congr rfl fun i _ => ?_
  have hplace : units.length - (i + 1) = units.length - 1 - i := by omega
  exact congrArg (fun place => units[i] * 31 ^ place) hplace

theorem polynomial_append (units more : List Nat) :
    polynomial (units ++ more) = polynomial units * 31 ^ more.length + polynomial more := by
  induction units with
  | nil => simp [polynomial_nil]
  | cons unit units ih =>
    rw [List.cons_append, polynomial_cons, polynomial_cons, ih, List.length_append]
    ring

/-- Words wrap around, so a row of units shifts the word and adds its polynomial. -/
theorem toNat_foldl_step (word : UInt32) (units : List Nat) :
    (units.foldl step word).toNat ≡ word.toNat * 31 ^ units.length + polynomial units
      [MOD 2 ^ 32] := by
  induction units generalizing word with
  | nil => simpa [polynomial_nil] using Nat.ModEq.refl word.toNat
  | cons unit units ih =>
    have hstep : (step word unit).toNat ≡ word.toNat * 31 + unit [MOD 2 ^ 32] := by
      rw [step, UInt32.toNat_add, UInt32.toNat_mul, UInt32.toNat_ofNat']
      exact (Nat.mod_modEq _ _).trans ((Nat.mod_modEq _ _).add (Nat.mod_modEq _ _))
    calc ((unit :: units).foldl step word).toNat
        ≡ (step word unit).toNat * 31 ^ units.length + polynomial units [MOD 2 ^ 32] := ih _
      _ ≡ (word.toNat * 31 + unit) * 31 ^ units.length + polynomial units [MOD 2 ^ 32] :=
        (hstep.mul_right _).add_right _
      _ = word.toNat * 31 ^ (unit :: units).length + polynomial (unit :: units) := by
        rw [List.length_cons, polynomial_cons]
        ring

/-- The upper half of the words stands for the negative remainders. -/
theorem signed_eq_bmod (word : UInt32) : signed word = (word.toNat : Int).bmod (2 ^ 32) := by
  have hlt : word.toNat < 2 ^ 32 := word.toNat_lt
  rw [Int.bmod_def, signed]
  omega

theorem signed_range (word : UInt32) : -2 ^ 31 ≤ signed word ∧ signed word < 2 ^ 31 := by
  rw [signed_eq_bmod]
  exact ⟨Int.le_bmod (by decide), Int.bmod_lt (by decide)⟩

/-- A row of units is its polynomial. -/
theorem signed_ofUnits (units : List Nat) :
    signed (ofUnits units) = (polynomial units : Int).bmod (2 ^ 32) := by
  have hword : (ofUnits units).toNat ≡ polynomial units [MOD 2 ^ 32] := by
    simpa [ofUnits] using toNat_foldl_step 0 units
  rw [signed_eq_bmod, ← Int.emod_bmod, ← Int.emod_bmod (polynomial units)]
  exact congrArg (fun n : Nat => (n : Int).bmod (2 ^ 32)) hword

end Hash

/-- The hash of a text is the polynomial of its units. -/
theorem hash_eq_bmod (s : String) :
    hash s = (Hash.polynomial (Text.unitsOf s.toList) : Int).bmod (2 ^ 32) := by
  rw [hash, Hash.ofChars_eq_ofUnits, Hash.signed_ofUnits]

/-- The hash of one text after another. -/
theorem hash_append (a b : String) :
    hash (a ++ b) =
      (hash a * 31 ^ (Text.unitsOf b.toList).length + hash b).bmod (2 ^ 32) := by
  rw [hash_eq_bmod, hash_eq_bmod a, hash_eq_bmod b, String.toList_append, Text.unitsOf_append,
    Hash.polynomial_append, Int.add_bmod_bmod, ← Int.bmod_add_bmod, Int.bmod_mul_bmod,
    Int.bmod_add_bmod]
  push_cast
  rfl

/-- Texts with one hash have one hash under everything that is put behind them. -/
theorem hash_append_congr {a b : String} (h : hash a = hash b) (extension : String) :
    hash (a ++ extension) = hash (b ++ extension) := by
  rw [hash_append, hash_append, h]

namespace Cache

theorem slot_congr (c : Cache) {s t : String} (h : hash s = hash t) : c.slot s = c.slot t := by
  rw [slot, slot, h]

/-- Once a text is there, every text with its hash is found. -/
theorem test_insertAll_of_hash_eq (c : Cache) {texts : List String} {s t : String}
    (hs : s ∈ texts) (h : hash s = hash t) : (c.insertAll texts).test t = true :=
  (c.test_insertAll texts t).2 (.inr ⟨s, hs, c.slot_congr h⟩)

end Cache

/-- What the hash of a text is, and what it decides. -/
structure Hashed : Prop where
  /-- The unit at a place counts 31 times as much as the next one. -/
  polynomial : ∀ s : String, hash s =
    ((∑ i : Fin (Text.unitsOf s.toList).length, (Text.unitsOf s.toList)[i] *
      31 ^ ((Text.unitsOf s.toList).length - 1 - i) : Nat) : Int).bmod (2 ^ 32)
  append : ∀ a b : String, hash (a ++ b) =
    (hash a * 31 ^ (Text.unitsOf b.toList).length + hash b).bmod (2 ^ 32)
  range : ∀ s, -2 ^ 31 ≤ hash s ∧ hash s < 2 ^ 31
  slot_lt : ∀ (c : Cache) s, c.slot s < c.capacity
  /-- The lowest number has a slot like any other, although it is no number of 31 bits without its
  sign. -/
  slot_lowest : ∀ (c : Cache) s, hash s = -2 ^ 31 → c.slot s = 2 ^ 31 % c.capacity
  /-- Names with one hash cannot be told apart under any extension. -/
  shared : ∀ base base', hash base = hash base' → ∀ extension (c : Cache),
    c.slot (base ++ extension) = c.slot (base' ++ extension) ∧
      ∀ texts, base ++ extension ∈ texts → (c.insertAll texts).test (base' ++ extension) = true

theorem hashed : Hashed where
  polynomial := hash_eq_bmod
  append := hash_append
  range := fun s => Hash.signed_range _
  slot_lt := Cache.slot_lt
  slot_lowest := by
    intro c s h
    rw [Cache.slot, h]
    rfl
  shared := by
    intro base base' h extension c
    have hsame := hash_append_congr h extension
    exact ⟨c.slot_congr hsame, fun texts hmem => c.test_insertAll_of_hash_eq hmem hsame⟩

/-- Two names of one pattern that cannot be told apart, and a text with the lowest hash. -/
theorem hashed_twins :
    hash "an" = hash "c0" ∧ hash "polygenelubricants" = -2 ^ 31 ∧
      ∀ c : Cache, ((c.insertAll ["an.com"]).test "c0.com" = true) ∧
        c.slot "polygenelubricants" = 2 ^ 31 % c.capacity := by
  have htwins : hash "an" = hash "c0" := by decide
  have hlowest : hash "polygenelubricants" = -2 ^ 31 := by decide
  exact ⟨htwins, hlowest, fun c => ⟨(hashed.shared "an" "c0" htwins ".com" c).2 _
    (List.mem_singleton.2 rfl), hashed.slot_lowest c _ hlowest⟩⟩

end NameHunt
