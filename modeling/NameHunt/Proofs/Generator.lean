import NameHunt.Generator
import NameHunt.Proofs.Pattern.Names
import NameHunt.Proofs.Permutation
import NameHunt.Proofs.Random.Shuffle

/-!
# What a generator yields

The checks that are made while a name is spelled, piece by piece and not within literals, let the
names of the pattern pass and nothing else. Both orders visit every number once, so a generator
yields every name of its pattern once.

* `spell_eq_some_iff`: the numbers that spell a name.
* `Generator.toList`: a generator run to its end.
* `Order.Covers`: every number is visited once.
* `Generator.toList_perm_spelled`: all spelled names in some order.
* `Strategy.bound`, `Generator.exists_create`, `Generator.create_of_bound_lt`: which patterns have a
  generator.
* `Generator.yields_names_once`: the names of a pattern, each once, however they are ordered.
-/

namespace NameHunt

/-! ### Spelling -/

/-- No hyphen follows a hyphen. -/
def Apart (text : List Char) : Prop :=
  text.IsChain fun a b => ¬(a = '-' ∧ b = '-')

theorem apart_iff {text : List Char} : Apart text ↔ ¬ ['-', '-'] <:+: text := by
  rw [Apart, List.isChain_iff_forall_rel_of_append_cons_cons]
  constructor
  · rintro h ⟨before, after, rfl⟩
    have hsplit : before ++ ['-', '-'] ++ after = before ++ '-' :: '-' :: after := by simp
    exact h hsplit ⟨rfl, rfl⟩
  · rintro h a b before after rfl ⟨rfl, rfl⟩
    exact h ⟨before, after, by simp⟩

theorem apart_of_not_mem {text : List Char} (h : '-' ∉ text) : Apart text := by
  rw [apart_iff]
  intro hdouble
  exact h (hdouble.subset List.mem_cons_self)

/-- What a segment adds to the characters before it, newest first. -/
theorem apart_append {out text : List Char} :
    Apart (out.reverse ++ text) ↔
      Apart out.reverse ∧ Apart text ∧ ¬(out.head? = some '-' ∧ text.head? = some '-') := by
  rw [Apart, List.isChain_append, List.getLast?_reverse]
  refine and_congr_right fun _ => and_congr_right fun _ => ?_
  constructor
  · rintro h ⟨hout, htext⟩
    exact h '-' hout '-' htext ⟨rfl, rfl⟩
  · rintro h a ha b hb ⟨rfl, rfl⟩
    exact h ⟨ha, hb⟩

/-- A text that may follow the characters in `out` (newest first) to make a name. -/
structure Continues (p : Pattern) (out text : List Char) : Prop where
  apart : Apart (out.reverse ++ text)
  no_hyphen_last : (out.reverse ++ text).getLast? ≠ some '-'
  first : out = [] → text.head? ≠ some '-' ∧
    (p.opensWithLiteral = true ∨ ∀ c ∈ text.head?, c.isDigit = false)

theorem continues_nil_iff {p : Pattern} {text : List Char} :
    Continues p [] text ↔ p.IsName text := by
  constructor
  · intro h
    exact ⟨(h.first rfl).1, h.no_hyphen_last, apart_iff.1 h.apart, (h.first rfl).2⟩
  · intro h
    exact ⟨apart_iff.2 h.no_double_hyphen, h.no_hyphen_last,
      fun _ => ⟨h.no_hyphen_first, h.no_digit_first⟩⟩

/-- A literal needs no check at the front, because it is not empty and holds no hyphen. -/
theorem continues_literal_iff {literal : List Char} {p : Pattern} {out text : List Char}
    (hne : literal ≠ []) (hplain : '-' ∉ literal) :
    Continues (.literal literal :: p) out (literal ++ text) ↔
      Continues p (literal.reverse ++ out) text := by
  have hsame : (literal.reverse ++ out).reverse ++ text = out.reverse ++ (literal ++ text) := by
    simp
  constructor
  · intro h
    refine ⟨hsame ▸ h.apart, hsame ▸ h.no_hyphen_last, fun hnil => ?_⟩
    simp [hne] at hnil
  · intro h
    refine ⟨hsame ▸ h.apart, hsame ▸ h.no_hyphen_last, fun _ => ⟨?_, .inl rfl⟩⟩
    rw [List.head?_append_of_ne_nil _ hne]
    exact fun hhead => hplain (List.mem_of_head? hhead)

/-- The check of a character is the part of the rules that concerns it. -/
theorem continues_choice_iff {token : Token} {p : Pattern} {out text : List Char} {c : Char} :
    Continues (.choice token :: p) out (c :: text) ↔
      clashes out c = false ∧ Continues p (c :: out) text := by
  have hsame : (c :: out).reverse ++ text = out.reverse ++ c :: text := by simp
  constructor
  · intro h
    refine ⟨?_, hsame ▸ h.apart, hsame ▸ h.no_hyphen_last, nofun⟩
    have hdouble := (apart_append.1 h.apart).2.2
    cases out with
    | nil =>
      obtain ⟨hhyphen, hopens | hdigit⟩ := h.first rfl
      · cases hopens
      · have hc : c ≠ '-' := fun heq => hhyphen (heq ▸ rfl)
        simp [clashes, hc, hdigit c rfl]
    | cons d out =>
      simp only [List.head?_cons, Option.some.injEq] at hdouble
      simp only [clashes, List.isEmpty_cons, Bool.false_and, Bool.false_or, List.head?_cons,
        Bool.and_eq_false_imp, beq_iff_eq]
      intro hc
      simpa using fun hd => hdouble ⟨hd, hc⟩
  · rintro ⟨hclash, h⟩
    refine ⟨hsame ▸ h.apart, hsame ▸ h.no_hyphen_last, ?_⟩
    rintro rfl
    simp only [clashes, List.isEmpty_nil, Bool.true_and, List.head?_nil, Bool.or_eq_false_iff,
      beq_eq_false_iff_ne, ne_eq] at hclash
    refine ⟨by simpa using hclash.1.1, .inr ?_⟩
    intro d hd
    obtain rfl : c = d := Option.some.inj hd
    exact hclash.1.2

/-- A character that does not clash makes no double hyphen. -/
theorem apart_cons_of_not_clashes {out : List Char} {c : Char} (h : Apart out.reverse)
    (hclash : clashes out c = false) : Apart (c :: out).reverse := by
  rw [List.reverse_cons, apart_append]
  refine ⟨h, List.isChain_singleton c, ?_⟩
  rintro ⟨hout, hc⟩
  obtain rfl : c = '-' := Option.some.inj hc
  simp [clashes, hout] at hclash

namespace Pattern

theorem textAt_choice (token : Token) (p : Pattern) (index : Nat) :
    ∃ c, token.alphabet[index % token.alphabet.length]? = some c ∧
      textAt (.choice token :: p) index = c :: textAt p (index / token.alphabet.length) := by
  have hlt : index % token.alphabet.length < token.alphabet.length :=
    Nat.mod_lt _ (Segment.radix_pos (.choice token))
  refine ⟨token.alphabet[index % token.alphabet.length], List.getElem?_eq_getElem hlt, ?_⟩
  simp [textAt, Segment.textAt, Segment.alphabet, Segment.radix, hlt]

theorem textAt_literal (literal : List Char) (p : Pattern) (index : Nat) :
    textAt (.literal literal :: p) index = literal ++ textAt p index := by
  rw [textAt, Segment.textAt_literal, Segment.radix, Nat.div_one]

end Pattern

/-- A number spells its text, if this may follow what stands before it. -/
theorem spellFrom_eq_some_iff {p : Pattern} (hp : p.Plain) {index : Nat} {out text : List Char}
    (hout : Apart out.reverse) :
    spellFrom p index out = some text ↔
      Continues p out (p.textAt index) ∧ text = out.reverse ++ p.textAt index := by
  induction p generalizing index out with
  | nil =>
    simp only [spellFrom, Pattern.textAt, List.append_nil]
    constructor
    · intro h
      split at h
      · cases h
      · rename_i hlast
        refine ⟨⟨by simpa using hout, ?_, fun _ => ⟨by simp, .inr (by simp)⟩⟩,
          (Option.some.inj h).symm⟩
        simpa [List.getLast?_reverse] using hlast
    · rintro ⟨h, rfl⟩
      have hlast : out.head? ≠ some '-' := by
        simpa [List.getLast?_reverse] using h.no_hyphen_last
      simp [hlast]
  | cons s rest ih =>
    cases s with
    | literal literal =>
      have hplain := hp.head
      have hout' : Apart (literal.reverse ++ out).reverse := by
        rw [List.reverse_append, List.reverse_reverse, apart_append]
        refine ⟨hout, apart_of_not_mem hplain.2, ?_⟩
        exact fun hboth => hplain.2 (List.mem_of_head? hboth.2)
      rw [spellFrom, ih hp.tail hout', Pattern.textAt_literal,
        continues_literal_iff hplain.1 hplain.2]
      simp
    | choice token =>
      obtain ⟨c, hc, htext⟩ := Pattern.textAt_choice token rest index
      rw [spellFrom, hc, htext, continues_choice_iff]
      simp only
      cases hclash : clashes out c with
      | true => simp
      | false =>
        simp only [Bool.false_eq_true, ↓reduceIte, true_and]
        rw [ih hp.tail (apart_cons_of_not_clashes hout hclash)]
        simp

/-- A number of a plain pattern spells its text if and only if the text is a name. -/
theorem spell_eq_some_iff {p : Pattern} (hp : p.Plain) {index : Nat} {name : String} :
    spell p index = some name ↔
      p.IsName (p.textAt index) ∧ name = String.ofList (p.textAt index) := by
  have hempty : Apart ([] : List Char).reverse := List.isChain_nil
  rw [spell, Option.map_eq_some_iff]
  constructor
  · rintro ⟨text, htext, rfl⟩
    obtain ⟨hname, rfl⟩ := (spellFrom_eq_some_iff hp hempty).1 htext
    exact ⟨continues_nil_iff.1 hname, rfl⟩
  · rintro ⟨hname, rfl⟩
    exact ⟨_, (spellFrom_eq_some_iff hp hempty).2 ⟨continues_nil_iff.2 hname, rfl⟩, rfl⟩

/-- The numbers in their order spell the names. -/
theorem filterMap_spell_range {p : Pattern} (hp : p.Plain) :
    (List.range p.size).filterMap (spell p) =
      (p.texts.filter fun text => p.IsName text).map String.ofList := by
  have hspell : spell p = fun index =>
      (Option.guard (fun text => decide (p.IsName text)) (p.textAt index)).map String.ofList := by
    funext index
    refine Option.ext fun name => ?_
    rw [spell_eq_some_iff hp]
    by_cases hname : p.IsName (p.textAt index)
    all_goals simp [Option.guard, hname, eq_comm]
  rw [hspell, p.texts_eq_map_textAt, ← List.filterMap_eq_filter, List.map_filterMap,
    List.filterMap_map]
  rfl

/-! ### Running a generator -/

namespace Generator

/-- The names still to come. -/
def toList (g : Generator) : List String :=
  match _h : g.next with
  | (some name, g') => name :: toList g'
  | (none, _) => []
termination_by g.remaining
decreasing_by exact remaining_lt_of_next _h

theorem toList_of_next {g g' : Generator} {name : String} (h : g.next = (some name, g')) :
    g.toList = name :: g'.toList := by
  rw [toList]
  split
  · rename_i found rest hnext
    obtain ⟨hname, rfl⟩ := Prod.mk.inj (h.symm.trans hnext)
    rw [Option.some.inj hname]
  · rename_i rest hnext
    cases (Prod.mk.inj (h.symm.trans hnext)).1

theorem toList_of_next_none {g g' : Generator} (h : g.next = (none, g')) : g.toList = [] := by
  rw [toList]
  split
  · rename_i found rest hnext
    cases (Prod.mk.inj (h.symm.trans hnext)).1
  · rfl

/-- The places of the order that were not visited yet. -/
def places (g : Generator) : List Nat :=
  List.range' g.visited (g.order.size - g.visited)

theorem places_of_lt {g : Generator} (h : g.visited < g.order.size) :
    g.places = g.visited :: g.advance.places := by
  have hsize : g.order.size - g.visited = g.order.size - (g.visited + 1) + 1 := by omega
  rw [places, hsize, List.range'_succ]
  rfl

theorem places_of_le {g : Generator} (h : g.order.size ≤ g.visited) : g.places = [] := by
  rw [places, Nat.sub_eq_zero_of_le h, List.range'_zero]

/-- The name at a place of the order, if its number spells one. -/
def nameAt (g : Generator) (place : Nat) : Option String :=
  spell g.pattern (g.order.index place)

/-- The next name is the first one among the places to come. -/
theorem filterMap_places (g : Generator) :
    g.places.filterMap g.nameAt =
      match g.next with
      | (some name, g') => name :: g'.places.filterMap g'.nameAt
      | (none, _) => [] := by
  fun_induction next g with
  | case1 g hlt name hname =>
    have hplace : g.nameAt g.visited = some name := hname
    rw [places_of_lt hlt, List.filterMap_cons_some hplace]
    rfl
  | case2 g hlt hname ih =>
    have hplace : g.nameAt g.visited = none := hname
    rw [places_of_lt hlt, List.filterMap_cons_none hplace, ← ih]
    rfl
  | case3 g hge => rw [places_of_le (Nat.le_of_not_lt hge), List.filterMap_nil]

/-- Run to its end, a generator spells the numbers at all places to come. -/
theorem toList_eq (g : Generator) : g.toList = g.places.filterMap g.nameAt := by
  fun_induction toList g with
  | case1 g name g' hnext ih => rw [filterMap_places g, hnext, ih]
  | case2 g g' hnext => rw [filterMap_places g, hnext]

end Generator

/-- Every number below the bound is visited once. -/
def Order.Covers (order : Order) (n : Nat) : Prop :=
  ((List.range order.size).map order.index).Perm (List.range n)

theorem Order.covers_listed {indices : Array Nat} {n : Nat}
    (h : indices.Perm (Array.range n)) : (Order.listed indices).Covers n := by
  have hindex : (List.range indices.size).map (Order.listed indices).index = indices.toList := by
    refine List.ext_getElem (by simp) fun i hi hi' => ?_
    simp only [List.length_map, List.length_range] at hi
    simp [Order.index, hi]
  rw [Order.Covers, Order.size, hindex]
  simpa using h.toList

theorem Order.covers_keyed (permutation : Permutation) :
    (Order.keyed permutation).Covers permutation.size :=
  permutation.map_apply_range_perm

/-- The size of the largest pattern whose numbers can be ordered. A list of them has places of 32
bits. -/
def Strategy.bound : Strategy → Nat
  | .shuffle => 2 ^ 32 - 1
  | .auto | .permute => 2 ^ 128 - 1

theorem Strategy.bound_le (strategy : Strategy) : strategy.bound ≤ Count.ceiling := by
  cases strategy <;> decide

theorem Strategy.le_max32_of_lists {strategy : Strategy} {total : Nat}
    (hlists : strategy.lists total = true) (h : total ≤ strategy.bound) : total ≤ Text.max32 := by
  cases strategy with
  | auto => exact (of_decide_eq_true hlists).trans (by decide)
  | shuffle => exact h
  | permute => cases hlists

namespace Generator

theorem indexCount_le (p : Pattern) (n : Nat) : indexCount p n ≤ n := by
  unfold indexCount
  split
  · exact Nat.zero_le n
  · exact Nat.le_refl n

/-- A generator that is at its start and visits every number spells them all in some order. -/
theorem toList_perm_spelled {g : Generator} {n : Nat} (hstart : g.visited = 0)
    (hcovers : g.order.Covers n) :
    g.toList.Perm ((List.range n).filterMap (spell g.pattern)) := by
  have hplaces : g.places.filterMap g.nameAt =
      ((List.range g.order.size).map g.order.index).filterMap (spell g.pattern) := by
    rw [places, hstart, Nat.sub_zero, ← List.range_eq_range', List.filterMap_map]
    rfl
  rw [toList_eq, hplaces]
  exact hcovers.filterMap (spell g.pattern)

/-- The names of a plain pattern are what its numbers spell. -/
theorem names_eq_filterMap_spell {p : Pattern} (hp : p.Plain) :
    p.names = (List.range (indexCount p p.size)).filterMap (spell p) := by
  unfold indexCount Pattern.names
  split
  · rfl
  · rw [filterMap_spell_range hp]

/-- A pattern that the strategy can order has a generator. -/
theorem exists_create {p : Pattern} {strategy : Strategy} (h : p.size ≤ strategy.bound)
    (words : Words) : ∃ g rest, create p strategy words = .ok (g, rest) := by
  have hcount : p.count.value? = some p.size := by
    rw [Pattern.value?_count, if_pos (h.trans strategy.bound_le)]
  unfold create
  rw [hcount]
  simp only
  split
  · rename_i hlists
    rw [if_pos (Strategy.le_max32_of_lists hlists ((indexCount_le p p.size).trans h))]
    exact ⟨_, _, rfl⟩
  · exact ⟨_, _, rfl⟩

/-- A pattern that the strategy cannot order is refused. -/
theorem create_of_bound_lt {p : Pattern} {strategy : Strategy} (h : strategy.bound < p.size)
    (words : Words) : create p strategy words = .error (.patternTooLarge p.describe) := by
  unfold create
  rw [Pattern.value?_count]
  by_cases hsize : p.size ≤ Count.ceiling
  · -- The count is exact, so it is the list that is too long.
    rw [if_pos hsize]
    cases strategy with
    | shuffle =>
      have hne : p.isEmpty = false := by
        cases p with
        | nil => exact absurd h (by decide)
        | cons s rest => rfl
      have hlong : ¬ indexCount p p.size ≤ Text.max32 := by
        rw [indexCount, hne]
        exact Nat.not_le.2 h
      simp only [Strategy.lists, ↓reduceIte, if_neg hlong]
    | auto | permute => exact absurd hsize (Nat.not_le.2 h)
  · rw [if_neg hsize]

/-- Whether a pattern is too large is not up to the words. -/
theorem create_error {p : Pattern} {strategy : Strategy} {words : Words} {error : Error}
    (h : create p strategy words = .error error) (words' : Words) :
    create p strategy words' = .error error := by
  unfold create at h ⊢
  cases hcount : p.count.value? with
  | none => simpa only [hcount] using h
  | some combinations =>
    simp only [hcount] at h ⊢
    split at h
    · rename_i hlists
      split at h
      · cases h
      · rename_i hlarge
        rw [if_pos hlists, if_neg hlarge]
        exact h
    · cases h

/-- What `create` makes. -/
theorem covers_of_create {p : Pattern} {strategy : Strategy} {words rest : Words} {g : Generator}
    (h : create p strategy words = .ok (g, rest)) :
    g.pattern = p ∧ g.visited = 0 ∧ g.order.Covers (indexCount p p.size) := by
  unfold create at h
  split at h
  · cases h
  · rename_i combinations hcount
    rw [Pattern.value?_count] at hcount
    split at hcount
    · obtain rfl := Option.some.inj hcount
      simp only at h
      split at h
      · split at h
        · cases h
          exact ⟨rfl, rfl, Order.covers_listed (words.shuffle_perm _)⟩
        · cases h
      · cases h
        exact ⟨rfl, rfl, Order.covers_keyed _⟩
    · cases hcount

theorem total_of_create {p : Pattern} {strategy : Strategy} {words rest : Words} {g : Generator}
    (h : create p strategy words = .ok (g, rest)) : g.total = indexCount p p.size := by
  obtain ⟨-, -, hcovers⟩ := covers_of_create h
  have hlength := hcovers.length_eq
  rwa [List.length_map, List.length_range, List.length_range] at hlength

/-- A generator of a pattern that was read yields, in some order and each once, the texts with one
piece from each segment that neither start nor end with a hyphen, hold no two hyphens in a row, and
start with a digit only where the first segment is a literal. A pattern without segments has no
names. The strategy and the words decide on nothing but the order. -/
theorem yields_names_once {s : String} {strategy : Strategy} {words rest : Words} {g : Generator}
    (h : create (Pattern.parse s) strategy words = .ok (g, rest)) :
    g.toList.Nodup ∧
      (∀ name : String, name ∈ g.toList ↔
        Pattern.parse s ≠ [] ∧
          (∃ pieces : List (List Char),
            List.Forall₂ (fun piece segment => piece ∈ Segment.alphabet segment) pieces
              (Pattern.parse s) ∧
            name.toList = pieces.flatten) ∧
          (Pattern.parse s).IsName name.toList) ∧
      ∀ {strategy' : Strategy} {words' rest' : Words} {g' : Generator},
        create (Pattern.parse s) strategy' words' = .ok (g', rest') → g'.toList.Perm g.toList := by
  have hnames : ∀ {strategy' : Strategy} {words' rest' : Words} {g' : Generator},
      create (Pattern.parse s) strategy' words' = .ok (g', rest') →
        g'.toList.Perm (Pattern.parse s).names := by
    intro strategy' words' rest' g' h'
    obtain ⟨hpattern, hstart, hcovers⟩ := covers_of_create h'
    have hperm := toList_perm_spelled hstart hcovers
    rwa [hpattern, ← names_eq_filterMap_spell (Pattern.plain_parse s)] at hperm
  refine ⟨(hnames h).nodup_iff.2 (Pattern.nodup_names _), fun name => ?_,
    fun h' => (hnames h').trans (hnames h).symm⟩
  rw [(hnames h).mem_iff, Pattern.mem_names, Pattern.mem_texts]

/-- A literal may start with a digit, and a name does not end with a hyphen. -/
theorem yields_names_of_digit_wildcard :
    ∃ g rest, create (Pattern.parse "7_") .permute (Words.ofSeed #[] 1) = .ok (g, rest) ∧
      g.toList.Nodup ∧ "7a" ∈ g.toList ∧ "7-" ∉ g.toList := by
  refine ⟨_, _, rfl, ?_⟩
  have hparse : Pattern.parse "7_" = [.literal ['7'], .choice .wildcard] := by decide
  obtain ⟨hnodup, hmem, -⟩ := yields_names_once
    (show create (Pattern.parse "7_") .permute (Words.ofSeed #[] 1) = .ok (_, _) from rfl)
  rw [hparse] at hmem
  refine ⟨hnodup, (hmem "7a").2 ⟨nofun, ⟨[['7'], ['a']], ?_, by decide⟩, by decide⟩, ?_⟩
  · exact .cons (by decide) (.cons (by decide) .nil)
  · intro hname
    exact absurd ((hmem "7-").1 hname).2.2 (by decide)

end Generator

end NameHunt
