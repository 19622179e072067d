import NameHunt.Proofs.Checked

/-!
# Going through the numbers of a pattern

A generator keeps one count. The tour that stands behind it keeps several: the cursor of its list
or of its permutation, the numbers in all and the numbers visited, and it computes with checked
operations. It writes down the numbers that it draws. Call by call, a tour gives the answers of its
generator, its counts stay in step with the numbers drawn, and nothing traps.

* `Traversal`, `Tour`: the cursor, and the counts around it.
* `Tour.next`, `Tour.calls`: one call and several calls, with the numbers that they draw.
* `Tour.ofGenerator`: where a tour stands when its generator does.
* `Tour.next_ofGenerator`, `Tour.calls_ofGenerator`: one call and several calls stay in step.
* `Generator.InStep`, `Generator.calls_in_step`: the counts after any number of calls.
-/

namespace NameHunt

/-- A cursor over numbers in their order. -/
inductive Traversal where
  | listed (rest : List Nat)
  | keyed (permutation : Permutation) (place : Nat)
  deriving Repr, DecidableEq

namespace Traversal

/-- The next number, and the cursor behind it. -/
def step : Traversal → Except Trap (Option (Nat × Traversal))
  | listed [] => .ok none
  | listed (index :: rest) => .ok (some (index, listed rest))
  | keyed permutation place => do
    if place < permutation.size then
      let index ← Checked.apply permutation place
      let place ← Checked.add place 1
      return some (index, keyed permutation place)
    else return none

/-- How many numbers the cursor has before it. -/
def left : Traversal → Nat
  | listed rest => rest.length
  | keyed permutation place => permutation.size - place

theorem left_lt_of_step {traversal traversal' : Traversal} {index : Nat}
    (h : traversal.step = .ok (some (index, traversal'))) : traversal'.left < traversal.left := by
  cases traversal with
  | listed rest =>
    cases rest with
    | nil => cases h
    | cons first rest =>
      cases h
      exact Nat.lt_succ_self _
  | keyed permutation place =>
    rw [step] at h
    split at h
    · rename_i hlt
      cases hindex : Checked.apply permutation place with
      | error trap =>
        rw [hindex] at h
        cases h
      | ok drawn =>
        rw [hindex] at h
        cases hplace : Checked.add place 1 with
        | error trap =>
          rw [hplace] at h
          cases h
        | ok place' =>
          rw [hplace] at h
          obtain rfl := Checked.eq_of_add hplace
          cases h
          show permutation.size - (place + 1) < permutation.size - place
          omega
    · cases h

end Traversal

namespace Order

/-- The cursor that stands at a place of an order. -/
def cursor : Order → Nat → Traversal
  | listed indices, place => .listed (indices.toList.drop place)
  | keyed permutation, place => .keyed permutation place

/-- Before the end the number at the place is drawn. -/
theorem step_cursor_of_lt {order : Order} (hsize : order.size < 2 ^ 128) {place : Nat}
    (h : place < order.size) :
    (order.cursor place).step = .ok (some (order.index place, order.cursor (place + 1))) := by
  cases order with
  | listed indices =>
    have hlt : place < indices.size := h
    have hlength : place < indices.toList.length := hlt
    have hindex : indices.getD place 0 = indices.toList[place] := by
      simp [hlt]
    show (Traversal.listed (indices.toList.drop place)).step = _
    rw [List.drop_eq_getElem_cons hlength, index, hindex]
    rfl
  | keyed permutation =>
    have hlt : place < permutation.size := h
    show (if place < permutation.size then _ else _) = _
    rw [if_pos hlt, Checked.apply_eq hsize hlt]
    show (Checked.add place 1 >>= _) = _
    rw [Checked.add_eq (Nat.lt_of_le_of_lt hlt hsize)]
    rfl

/-- At the end nothing is drawn. -/
theorem step_cursor_of_le {order : Order} {place : Nat} (h : order.size ≤ place) :
    (order.cursor place).step = .ok none := by
  cases order with
  | listed indices =>
    have hlength : indices.toList.length ≤ place := h
    show (Traversal.listed (indices.toList.drop place)).step = _
    rw [List.drop_eq_nil_of_le hlength]
    rfl
  | keyed permutation =>
    have hle : permutation.size ≤ place := h
    show (if place < permutation.size then _ else _) = _
    rw [if_neg (Nat.not_lt.2 hle)]
    rfl

end Order

/-- A pattern, a cursor over its numbers, and what is counted on the way. -/
structure Tour where
  pattern : Pattern
  traversal : Traversal
  total : Nat
  visited : Nat
  deriving Repr, DecidableEq

namespace Generator

/-- A generator, and the same one further on. -/
structure Follows (g g' : Generator) : Prop where
  pattern : g'.pattern = g.pattern
  order : g'.order = g.order
  visited : g.visited ≤ g'.visited
  within : g.visited ≤ g.total → g'.visited ≤ g'.total

theorem Follows.refl (g : Generator) : Follows g g :=
  ⟨rfl, rfl, Nat.le_refl _, id⟩

theorem Follows.trans {g g' g'' : Generator} (h : Follows g g') (h' : Follows g' g'') :
    Follows g g'' where
  pattern := h'.pattern.trans h.pattern
  order := h'.order.trans h.order
  visited := h.visited.trans h'.visited
  within hle := h'.within (h.within hle)

theorem Follows.total_eq {g g' : Generator} (h : Follows g g') : g'.total = g.total := by
  rw [total, total, h.order]

theorem follows_advance {g : Generator} (h : g.visited < g.order.size) : Follows g g.advance :=
  ⟨rfl, rfl, Nat.le_succ g.visited, fun _ => h⟩

theorem follows_next (g : Generator) : Follows g g.next.2 := by
  fun_induction next g with
  | case1 g hlt name hname => exact follows_advance hlt
  | case2 g hlt hname ih => exact (follows_advance hlt).trans ih
  | case3 g hge => exact .refl g

theorem next_of_le {g : Generator} (h : g.total ≤ g.visited) : g.next = (none, g) := by
  have hge : ¬ g.visited < g.order.size := Nat.not_lt.2 h
  rw [next, dif_neg hge]

/-- The answers of several calls. -/
def calls : Nat → Generator → List (Option String) × Generator
  | 0, g => ([], g)
  | n + 1, g =>
    let (name?, g) := g.next
    let (names, g) := calls n g
    (name? :: names, g)

theorem follows_calls (n : Nat) (g : Generator) : Follows g (g.calls n).2 := by
  induction n generalizing g with
  | zero => exact .refl g
  | succ n ih => exact (follows_next g).trans (ih g.next.2)

/-- At the end all calls answer that there is nothing more, and change nothing. -/
theorem calls_of_le {g : Generator} (h : g.total ≤ g.visited) (n : Nat) :
    g.calls n = (List.replicate n none, g) := by
  induction n with
  | zero => rfl
  | succ n ih =>
    show (g.next.1 :: (g.next.2.calls n).1, (g.next.2.calls n).2) = _
    rw [next_of_le h, ih, List.replicate_succ]

/-- The first answer without a name comes at the end. -/
theorem total_le_of_none_mem {n : Nat} {g : Generator} (hle : g.visited ≤ g.total)
    (h : none ∈ (g.calls n).1) : (g.calls n).2.total ≤ (g.calls n).2.visited := by
  induction n generalizing g with
  | zero => cases h
  | succ n ih =>
    have hnext := follows_next g
    rcases List.mem_cons.1 h with hnone | hlater
    · have hend : g.next.2.visited = g.order.size := next_none (Prod.ext hnone.symm rfl) hle
      have htotal : g.next.2.total ≤ g.next.2.visited := by
        rw [hnext.total_eq, hend]
        exact Nat.le_refl _
      show (g.next.2.calls n).2.total ≤ (g.next.2.calls n).2.visited
      rw [calls_of_le htotal]
      exact htotal
    · exact ih (hnext.within hle) hlater

/-- There are no more names to come than numbers. -/
theorem length_toList_le_remaining (g : Generator) : g.toList.length ≤ g.remaining := by
  have hlength : g.places.length = g.remaining := List.length_range'
  rw [toList_eq, ← hlength]
  exact List.length_filterMap_le _ _

theorem length_toList_le_of_upperBound? {g : Generator} {bound : Nat}
    (h : g.upperBound? = some bound) : g.toList.length ≤ bound := by
  rw [upperBound?] at h
  split at h
  · exact Option.some.inj h ▸ g.length_toList_le_remaining
  · cases h

end Generator

namespace Tour

/-- The numbers that are not visited yet. -/
def remaining (tour : Tour) : Except Trap Nat :=
  Checked.sub tour.total tour.visited

/-- An upper bound of the names to come, if it fits 64 bits. -/
def upperBound? (tour : Tour) : Except Trap (Option Nat) := do
  let remaining ← tour.remaining
  return if remaining ≤ Text.max64 then some remaining else none

/-- The next name, with the numbers that are drawn for it. -/
def next (tour : Tour) : Except Trap (List Nat × Option String × Tour) :=
  match _h : tour.traversal.step with
  | .error trap => .error trap
  | .ok none => .ok ([], none, tour)
  | .ok (some (index, traversal)) => do
    let visited ← Checked.add tour.visited 1
    let name? ← Checked.spell tour.pattern index
    match name? with
    | some name => return ([index], some name, { tour with traversal, visited })
    | none =>
      let (drawn, name?, tour) ← next { tour with traversal, visited }
      return (index :: drawn, name?, tour)
termination_by tour.traversal.left
decreasing_by exact Traversal.left_lt_of_step _h

/-- Several calls, with all numbers that are drawn for them. -/
def calls : Nat → Tour → Except Trap (List Nat × List (Option String) × Tour)
  | 0, tour => .ok ([], [], tour)
  | n + 1, tour => do
    let (drawn, name?, tour) ← tour.next
    let (later, names, tour) ← calls n tour
    return (drawn ++ later, name? :: names, tour)

/-- Before the first call. -/
def start (g : Generator) : Tour where
  pattern := g.pattern
  traversal := g.order.cursor 0
  total := g.total
  visited := 0

/-- Where a tour stands when its generator does. -/
def ofGenerator (g : Generator) : Tour where
  pattern := g.pattern
  traversal := g.order.cursor g.visited
  total := g.total
  visited := g.visited

theorem start_eq {g : Generator} (h : g.visited = 0) : start g = ofGenerator g := by
  rw [start, ofGenerator, h]

/-! ### One call -/

theorem next_of_step_none {tour : Tour} (h : tour.traversal.step = .ok none) :
    tour.next = .ok ([], none, tour) := by
  rw [next]
  split
  · rename_i hstep
    cases h.symm.trans hstep
  · rfl
  · rename_i hstep
    cases h.symm.trans hstep

/-- A number that is drawn is counted, and it is spelled. -/
theorem next_of_step {tour : Tour} {index : Nat} {traversal : Traversal}
    (h : tour.traversal.step = .ok (some (index, traversal)))
    (hvisited : tour.visited + 1 < 2 ^ 128) :
    tour.next =
      match spell tour.pattern index with
      | some name => .ok ([index], some name, { tour with traversal, visited := tour.visited + 1 })
      | none =>
        (next { tour with traversal, visited := tour.visited + 1 }).map
          fun (drawn, name?, tour) => (index :: drawn, name?, tour) := by
  rw [next]
  split
  · rename_i hstep
    cases h.symm.trans hstep
  · rename_i hstep
    cases h.symm.trans hstep
  · rename_i index' traversal' hstep
    cases h.symm.trans hstep
    rw [Checked.add_eq hvisited]
    show (Checked.spell tour.pattern index >>= _) = _
    rw [Checked.spell_eq]
    cases spell tour.pattern index with
    | some name => rfl
    | none =>
      show (next { tour with traversal, visited := tour.visited + 1 } >>= _) = _
      cases next { tour with traversal, visited := tour.visited + 1 } <;> rfl

/-- The numbers that a generator draws until it has visited as many as another one. -/
def drawnUntil (g g' : Generator) : List Nat :=
  (List.range' g.visited (g'.visited - g.visited)).map g.order.index

theorem drawnUntil_self (g : Generator) : drawnUntil g g = [] := by
  rw [drawnUntil, Nat.sub_self]
  rfl

theorem drawnUntil_advance {g g' : Generator} (h : g.visited < g'.visited) :
    drawnUntil g g' = g.order.index g.visited :: drawnUntil g.advance g' := by
  have hcount : g'.visited - g.visited = g'.visited - (g.visited + 1) + 1 := by omega
  rw [drawnUntil, hcount, List.range'_succ]
  rfl

theorem drawnUntil_of_visited_eq_zero {g g' : Generator} (h : g.visited = 0) :
    drawnUntil g g' = (List.range g'.visited).map g.order.index := by
  rw [drawnUntil, h, Nat.sub_zero, ← List.range_eq_range']

/-- A call draws the numbers that its generator visits, and gives the same answer. -/
theorem next_ofGenerator {g : Generator} (hsize : g.order.size < 2 ^ 128) :
    (ofGenerator g).next = .ok (drawnUntil g g.next.2, g.next.1, ofGenerator g.next.2) := by
  fun_induction Generator.next g with
  | case1 g hlt name hname =>
    rw [next_of_step (Order.step_cursor_of_lt hsize hlt) (Nat.lt_of_le_of_lt hlt hsize)]
    show (match spell g.pattern (g.order.index g.visited) with | some _ => _ | none => _) = _
    rw [hname, drawnUntil_advance (Nat.lt_succ_self g.visited), drawnUntil_self]
    rfl
  | case2 g hlt hname ih =>
    rw [next_of_step (Order.step_cursor_of_lt hsize hlt) (Nat.lt_of_le_of_lt hlt hsize)]
    show (match spell g.pattern (g.order.index g.visited) with | some _ => _ | none => _) = _
    have hlater : g.visited < g.advance.next.2.visited := g.advance.follows_next.visited
    rw [hname, drawnUntil_advance hlater]
    show (ofGenerator g.advance).next.map _ = _
    rw [ih hsize]
    rfl
  | case3 g hge =>
    rw [next_of_step_none (Order.step_cursor_of_le (Nat.le_of_not_lt hge)), drawnUntil_self]

/-! ### Several calls -/

theorem drawnUntil_append {g g' g'' : Generator} (h : g.Follows g') (h' : g'.Follows g'') :
    drawnUntil g g' ++ drawnUntil g' g'' = drawnUntil g g'' := by
  have hle := h.visited
  have hle' := h'.visited
  have hstart : g'.visited = g.visited + 1 * (g'.visited - g.visited) := by omega
  have hcount : g'.visited - g.visited + (g''.visited - g'.visited) = g''.visited - g.visited := by
    omega
  rw [drawnUntil, drawnUntil, drawnUntil, h.order, ← List.map_append, ← hcount,
    ← List.range'_append, ← hstart]

/-- Call by call the answers are the same, and the numbers are those that are visited. -/
theorem calls_ofGenerator {g : Generator} (hsize : g.order.size < 2 ^ 128) (n : Nat) :
    (ofGenerator g).calls n =
      .ok (drawnUntil g (g.calls n).2, (g.calls n).1, ofGenerator (g.calls n).2) := by
  induction n generalizing g with
  | zero =>
    show Except.ok ([], [], ofGenerator g) = .ok (drawnUntil g g, [], ofGenerator g)
    rw [drawnUntil_self]
  | succ n ih =>
    have hsize' : g.next.2.order.size < 2 ^ 128 := by
      rw [g.follows_next.order]
      exact hsize
    show ((ofGenerator g).next >>= _) = _
    rw [next_ofGenerator hsize]
    show ((ofGenerator g.next.2).calls n >>= _) = _
    rw [ih hsize']
    show Except.ok (drawnUntil g g.next.2 ++ drawnUntil g.next.2 (g.next.2.calls n).2, _, _) = _
    rw [drawnUntil_append g.follows_next (Generator.follows_calls n g.next.2)]
    rfl

/-- At the end nothing is drawn any more. -/
theorem calls_ofGenerator_of_le {g : Generator} (hsize : g.order.size < 2 ^ 128)
    (h : g.total ≤ g.visited) (n : Nat) :
    (ofGenerator g).calls n = .ok ([], List.replicate n none, ofGenerator g) := by
  rw [calls_ofGenerator hsize, Generator.calls_of_le h, drawnUntil_self]

theorem remaining_ofGenerator {g : Generator} (h : g.visited ≤ g.total) :
    (ofGenerator g).remaining = .ok g.remaining :=
  Checked.sub_eq h

theorem upperBound?_ofGenerator {g : Generator} (h : g.visited ≤ g.total) :
    (ofGenerator g).upperBound? = .ok g.upperBound? := by
  rw [upperBound?, remaining_ofGenerator h]
  rfl

end Tour

namespace Generator

/-- How the tour of a pattern stands after some calls, with the numbers that were drawn for them,
next to the answers and to the generator that gave them. -/
structure InStep (p : Pattern) (after : List (Option String) × Generator) (drawn : List Nat)
    (tour : Tour) : Prop where
  nodup : drawn.Nodup
  below : ∀ index ∈ drawn, index < tour.total
  /-- The numbers drawn are counted. -/
  visited : tour.visited = drawn.length
  remaining : drawn.length ≤ tour.total ∧ tour.remaining = .ok (tour.total - drawn.length)
  total : tour.total = indexCount p p.size ∧ tour.total < 2 ^ 128
  /-- The generator has counted the same. -/
  same : tour.pattern = p ∧ after.2.pattern = p ∧ tour.total = after.2.total ∧
    tour.visited = after.2.visited ∧ tour.remaining = .ok after.2.remaining
  /-- The upper bound is one, if there is any. -/
  upperBound : tour.upperBound? = .ok after.2.upperBound? ∧
    ∀ bound, after.2.upperBound? = some bound → after.2.toList.length ≤ bound
  /-- An answer without a name means that all numbers are drawn. No later call does anything. -/
  exhausted : none ∈ after.1 → tour.remaining = .ok 0 ∧
    ∀ m, tour.calls m = .ok ([], List.replicate m none, tour) ∧
      after.2.calls m = (List.replicate m none, after.2)

/-- A generator draws different numbers of those that its order covers. -/
theorem drawn_of_covers {g : Generator} {total visited : Nat} (hcovers : g.order.Covers total)
    (hle : visited ≤ g.total) :
    ((List.range visited).map g.order.index).Nodup ∧
      ∀ index ∈ (List.range visited).map g.order.index, index < total := by
  have hsub : ((List.range visited).map g.order.index).Sublist
      ((List.range g.order.size).map g.order.index) :=
    (List.range_sublist.2 hle).map g.order.index
  constructor
  · exact (hcovers.nodup_iff.2 List.nodup_range).sublist hsub
  · intro index hindex
    exact List.mem_range.1 (hcovers.subset (hsub.subset hindex))

/-- The numbers of a pattern that has a generator fit 128 bits. -/
theorem total_lt_of_create {p : Pattern} {strategy : Strategy} {words rest : Words} {g : Generator}
    (h : create p strategy words = .ok (g, rest)) : g.total < 2 ^ 128 := by
  by_contra hlarge
  rw [total_of_create h, Nat.not_lt] at hlarge
  have hsize : 2 ^ 128 ≤ p.size := hlarge.trans (indexCount_le p p.size)
  have hbound : strategy.bound < p.size :=
    Nat.lt_of_le_of_lt strategy.bound_le (Nat.lt_of_lt_of_le (by decide) hsize)
  rw [create_of_bound_lt hbound] at h
  cases h

/-- Whatever the pattern, the strategy and the words are, the tour of a new generator keeps in step
with it for any number of calls. -/
theorem calls_in_step {p : Pattern} {strategy : Strategy} {words rest : Words} {g : Generator}
    (h : create p strategy words = .ok (g, rest)) (n : Nat) :
    ∃ drawn tour, (Tour.start g).calls n = .ok (drawn, (g.calls n).1, tour) ∧
      InStep p (g.calls n) drawn tour := by
  obtain ⟨hpattern, hstart, hcovers⟩ := covers_of_create h
  have htotal := total_of_create h
  have hsize := total_lt_of_create h
  have hbegin : g.visited ≤ g.total := by
    rw [hstart]
    exact Nat.zero_le _
  have hfollows := follows_calls n g
  have hwithin := hfollows.within hbegin
  have hremaining := Tour.remaining_ofGenerator hwithin
  -- From the start on, the numbers drawn are those at the first places of the order.
  obtain ⟨hnodup, hbelow⟩ := drawn_of_covers hcovers (hfollows.total_eq ▸ hwithin)
  rw [← Tour.drawnUntil_of_visited_eq_zero hstart] at hnodup hbelow
  have hlength : (Tour.drawnUntil g (g.calls n).2).length = (g.calls n).2.visited := by
    rw [Tour.drawnUntil_of_visited_eq_zero hstart, List.length_map, List.length_range]
  refine ⟨Tour.drawnUntil g (g.calls n).2, Tour.ofGenerator (g.calls n).2, ?_, ?_⟩
  · rw [Tour.start_eq hstart]
    exact Tour.calls_ofGenerator hsize n
  refine ⟨hnodup, ?_, hlength.symm, ?_, ?_, ?_, ?_, ?_⟩
  · intro index hindex
    show index < (g.calls n).2.total
    rw [hfollows.total_eq, htotal]
    exact hbelow index hindex
  · rw [hlength]
    exact ⟨hwithin, hremaining⟩
  · show (g.calls n).2.total = _ ∧ (g.calls n).2.total < 2 ^ 128
    rw [hfollows.total_eq]
    exact ⟨htotal, hsize⟩
  · have hsame := hfollows.pattern.trans hpattern
    exact ⟨hsame, hsame, rfl, rfl, hremaining⟩
  · exact ⟨Tour.upperBound?_ofGenerator hwithin, fun _ => length_toList_le_of_upperBound?⟩
  · intro hnone
    have hend := total_le_of_none_mem hbegin hnone
    have hzero : (g.calls n).2.remaining = 0 := Nat.sub_eq_zero_of_le hend
    have hsize' : (g.calls n).2.total < 2 ^ 128 := by
      rwa [hfollows.total_eq]
    refine ⟨by rw [hremaining, hzero], fun m => ?_⟩
    exact ⟨Tour.calls_ofGenerator_of_le hsize' hend m, calls_of_le hend m⟩

/-- The numbers of twenty-four wildcards just fit 128 bits. -/
theorem calls_in_step_wildcards :
    ∃ g rest, create (Pattern.parse "________________________") .auto (Words.ofSeed #[] 1) =
        .ok (g, rest) ∧ 2 ^ 125 < g.total ∧
      ∃ drawn tour, (Tour.start g).calls 2 = .ok (drawn, (g.calls 2).1, tour) ∧ drawn.Nodup ∧
        tour.visited = drawn.length ∧ tour.remaining = .ok (tour.total - drawn.length) := by
  have hsize : (Pattern.parse "________________________").size = 37 ^ 24 := by decide
  have hbound : (Pattern.parse "________________________").size ≤ Strategy.auto.bound := by
    rw [hsize]
    decide
  obtain ⟨g, rest, h⟩ := exists_create hbound (Words.ofSeed #[] 1)
  refine ⟨g, rest, h, ?_, ?_⟩
  · rw [total_of_create h, hsize]
    decide
  · obtain ⟨drawn, tour, hrun, hstep⟩ := calls_in_step h 2
    exact ⟨drawn, tour, hrun, hstep.nodup, hstep.visited, hstep.remaining.2⟩

end Generator

end NameHunt
