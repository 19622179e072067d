import NameHunt.Proofs.FileSystem.Paths

/-!
# What changes do to a tree

* `FileSystem.apply_ensureDirectory`, `FileSystem.apply_write`, `FileSystem.apply_rename`: all that
  a change can do.
* `FileSystem.IsTree`: all that stands somewhere stands in a directory.
* `FileSystem.AddsDirectories`: trees that differ in new directories alone.
* `FileSystem.run_ensureParents`: there is nothing to make above a path that leads somewhere.
* `FileSystem.read_of_straight`: where something was missing on the way of a path that never turns
  back, nothing is read after the directories above it were made.
-/

namespace NameHunt.FileSystem

variable {fs fs' fs'' : FileSystem} {place place' : Location} {path : String}

/-! ### Single changes -/

theorem apply_ensureDirectory (h : fs.apply (.ensureDirectory path) = .ok fs') :
    ∃ place, fs.locate path = .ok place ∧
      (fs.node? place = some .directory ∧ fs' = fs ∨
        fs.node? place = none ∧ fs' = fs.put place .directory) := by
  simp only [apply, bind, Except.bind] at h
  split at h
  · cases h
  · rename_i place hlocate
    split at h
    · rename_i hnode
      cases h
      exact ⟨place, hlocate, .inl ⟨hnode, rfl⟩⟩
    · cases h
    · rename_i hnode
      cases h
      exact ⟨place, hlocate, .inr ⟨hnode, rfl⟩⟩

theorem apply_write {content : Bytes} (h : fs.apply (.write path content) = .ok fs') :
    ∃ place, fs.locate path = .ok place ∧ fs.node? place ≠ some .directory ∧
      fs' = fs.put place (.file content) := by
  simp only [apply, bind, Except.bind] at h
  split at h
  · cases h
  · rename_i place hlocate
    split at h
    · cases h
    · rename_i hnode
      cases h
      exact ⟨place, hlocate, hnode, rfl⟩

theorem apply_rename {source target : String} (h : fs.apply (.rename source target) = .ok fs') :
    ∃ origin content place, fs.locate source = .ok origin ∧
      fs.node? origin = some (.file content) ∧ fs.locate target = .ok place ∧
      fs.node? place ≠ some .directory ∧ fs' = (fs.erase origin).put place (.file content) := by
  simp only [apply, bind, Except.bind] at h
  split at h
  · cases h
  · rename_i origin horigin
    split at h
    · cases h
    · cases h
    · rename_i content hfile
      split at h
      · cases h
      · rename_i place hplace
        split at h
        · cases h
        · rename_i hnode
          cases h
          exact ⟨origin, content, place, horigin, hfile, hplace, hnode, rfl⟩

/-- The top is a directory. -/
theorem ne_nil_of_node? (h : fs.node? place ≠ some .directory) : place ≠ [] := by
  rintro rfl
  exact h rfl

/-- Where no directory stood, a file can be put. -/
theorem grows_put (hnode : fs.node? place ≠ some .directory) (content : Bytes) :
    Grows fs (fs.put place (.file content)) where
  current_eq := rfl
  directory := by
    intro q hq
    rw [node?_put_ne]
    · exact hq
    · rintro rfl
      exact hnode hq
  file := by
    intro q found hq
    by_cases hsame : q = place
    · rw [hsame, node?_put_self _ (ne_nil_of_node? hnode)]
      exact ⟨content, rfl⟩
    · rw [node?_put_ne _ hsame]
      exact ⟨found, hq⟩

/-- Where no directory stood, a file can be taken away. -/
theorem keepsDirectories_erase (hnode : fs.node? place ≠ some .directory) :
    KeepsDirectories fs (fs.erase place) where
  current_eq := rfl
  directory := by
    intro q hq
    rw [node?_erase_ne]
    · exact hq
    · rintro rfl
      exact hnode hq

theorem run_append (fs : FileSystem) (front rest : List Change) :
    fs.run (front ++ rest) =
      match fs.run front with
      | (changed, none) => changed.run rest
      | (changed, some fault) => (changed, some fault) := by
  induction front generalizing fs with
  | nil => rfl
  | cons change front ih =>
    rw [List.cons_append, run, run]
    cases fs.apply change with
    | error fault => rfl
    | ok changed => exact ih changed

/-- What is read through a path, by where it leads. -/
theorem read_eq (fs : FileSystem) (path : String) :
    fs.read path =
      match fs.locate path with
      | .error fault => .error fault
      | .ok place =>
        match fs.node? place with
        | none => .error .notFound
        | some .directory => .error .isADirectory
        | some (.file content) => .ok content := by
  simp only [read, find, bind, Except.bind]
  cases fs.locate path with
  | error fault => rfl
  | ok place =>
    cases hnode : fs.node? place with
    | none => simp only [hnode]
    | some node => cases node <;> simp only [hnode]

theorem read_of_locate (h : fs.locate path = .ok place) (h' : fs'.locate path = .ok place)
    (hnode : fs'.node? place = fs.node? place) : fs'.read path = fs.read path := by
  rw [read_eq, read_eq, h, h']
  show (match fs'.node? place with | none => _ | some .directory => _ | some (.file _) => _) = _
  rw [hnode]

theorem read_of_node {content : Bytes} (h : fs.locate path = .ok place)
    (hnode : fs.node? place = some (.file content)) : fs.read path = .ok content := by
  simp only [read, find, h, bind, Except.bind, hnode]

/-- A content is read through a path that leads to its file. -/
theorem locate_of_read {content : Bytes} (h : fs.read path = .ok content) :
    ∃ place, fs.locate path = .ok place ∧ fs.node? place = some (.file content) := by
  rw [read_eq] at h
  split at h
  · cases h
  · rename_i place hlocate
    split at h
    · cases h
    · cases h
    · rename_i found hnode
      cases h
      exact ⟨place, hlocate, hnode⟩

/-! ### Where a path leads to nothing but a directory above -/

theorem onward_cases {name : String} (h : onward place name = .ok place') :
    place' = place ∨ place' = place.tail ∨ place' = name :: place := by
  unfold onward at h
  split at h
  · cases h
    exact .inl rfl
  · split at h
    · cases h
      exact .inr (.inl rfl)
    · split at h
      · cases h
      · cases h
        exact .inr (.inr rfl)

/-- What stands where a path leads stands in the directory of the names before the last. -/
theorem exists_directory_of_locate (h : fs.locate path = .ok place) :
    ∃ init last above, names path = init ++ [last] ∧ fs.walk (fs.start path) init = .ok above ∧
      fs.node? above = some .directory ∧ onward above last = .ok place := by
  rw [locate_of_usable fs (usable_of_locate h)] at h
  obtain ⟨init, last, hnames⟩ : ∃ init last, names path = init ++ [last] :=
    ⟨_, _, (List.dropLast_concat_getLast (names_ne_nil path)).symm⟩
  rw [hnames, walk_append] at h
  split at h
  · rename_i above hinit
    rw [walk_cons] at h
    split at h
    · rename_i next henter
      cases h
      obtain ⟨hdirectory, honward⟩ := directory_of_enter henter
      exact ⟨init, last, above, hnames, hinit, hdirectory, honward⟩
    · cases h
  · cases h

/-! ### Trees -/

/-- All that stands somewhere stands in a directory. -/
def IsTree (fs : FileSystem) : Prop :=
  ∀ name place node, fs.node? (name :: place) = some node → fs.node? place = some .directory

theorem isTree_empty : IsTree empty := by
  intro name place node h
  cases h

/-- Nothing stands in what is no directory. -/
theorem IsTree.node?_cons (htree : fs.IsTree) (h : fs.node? place ≠ some .directory)
    (name : String) : fs.node? (name :: place) = none := by
  cases hnode : fs.node? (name :: place) with
  | none => rfl
  | some node => exact absurd (htree name place node hnode) h

theorem IsTree.put {node : Node} (htree : fs.IsTree) (hnode : fs.node? place ≠ some .directory)
    (habove : ∃ name above, place = name :: above ∧ fs.node? above = some .directory) :
    (fs.put place node).IsTree := by
  obtain ⟨name, above, rfl, habove⟩ := habove
  intro other below found hfound
  have hkeep : ∀ q, fs.node? q = some .directory →
      (fs.put (name :: above) node).node? q = some .directory := by
    intro q hq
    rw [node?_put_ne]
    · exact hq
    · rintro rfl
      exact hnode hq
  by_cases hsame : other :: below = name :: above
  · obtain ⟨-, rfl⟩ := List.cons.inj hsame
    exact hkeep below habove
  · rw [node?_put_ne _ hsame] at hfound
    exact hkeep below (htree other below found hfound)

/-! ### Trees with more directories -/

/-- Nothing differs but that there may be more directories. -/
structure AddsDirectories (fs fs' : FileSystem) : Prop where
  current_eq : fs'.current = fs.current
  node : ∀ place node, fs.node? place = some node → fs'.node? place = some node
  file : ∀ place content, fs'.node? place = some (.file content) →
    fs.node? place = some (.file content)

theorem AddsDirectories.refl (fs : FileSystem) : AddsDirectories fs fs :=
  ⟨rfl, fun _ _ => id, fun _ _ => id⟩

theorem AddsDirectories.trans (h : AddsDirectories fs fs') (h' : AddsDirectories fs' fs'') :
    AddsDirectories fs fs'' where
  current_eq := h'.current_eq.trans h.current_eq
  node := fun place node hnode => h'.node place node (h.node place node hnode)
  file := fun place content hfile => h.file place content (h'.file place content hfile)

theorem AddsDirectories.grows (h : AddsDirectories fs fs') : Grows fs fs' where
  current_eq := h.current_eq
  directory := fun place hplace => h.node place _ hplace
  file := fun place content hplace => ⟨content, h.node place _ hplace⟩

theorem addsDirectories_put (hnode : fs.node? place = none) :
    AddsDirectories fs (fs.put place .directory) where
  current_eq := rfl
  node := by
    intro q node hq
    rw [node?_put_ne]
    · exact hq
    · rintro rfl
      rw [hnode] at hq
      cases hq
  file := by
    intro q content hq
    have hne : place ≠ [] := ne_nil_of_node? (by rw [hnode]; nofun)
    by_cases hsame : q = place
    · rw [hsame, node?_put_self _ hne] at hq
      cases hq
    · rwa [node?_put_ne _ hsame] at hq

theorem addsDirectories_apply (h : fs.apply (.ensureDirectory path) = .ok fs') :
    AddsDirectories fs fs' := by
  obtain ⟨place, -, ⟨-, rfl⟩ | ⟨hnode, rfl⟩⟩ := apply_ensureDirectory h
  · exact .refl _
  · exact addsDirectories_put hnode

theorem addsDirectories_run (fs : FileSystem) (paths : List String) :
    AddsDirectories fs (fs.run (paths.map .ensureDirectory)).1 := by
  induction paths generalizing fs with
  | nil => exact .refl fs
  | cons path rest ih =>
    rw [List.map_cons, run]
    split
    · rename_i changed happly
      exact (addsDirectories_apply happly).trans (ih changed)
    · exact .refl fs

/-- A directory that is new stands where one of the paths leads. -/
theorem exists_locate_of_new (paths : List String) (hnone : fs.node? place = none) {node : Node}
    (hnew : (fs.run (paths.map .ensureDirectory)).1.node? place = some node) :
    ∃ above ∈ paths, ∃ tree, AddsDirectories fs tree ∧ tree.locate above = .ok place := by
  induction paths generalizing fs with
  | nil =>
    rw [List.map_nil, run, hnone] at hnew
    cases hnew
  | cons path rest ih =>
    rw [List.map_cons, run] at hnew
    split at hnew
    · rename_i changed happly
      by_cases hhere : changed.node? place = none
      · obtain ⟨above, habove, tree, hadds, hlocate⟩ := ih hhere hnew
        exact ⟨above, List.mem_cons_of_mem path habove, tree,
          (addsDirectories_apply happly).trans hadds, hlocate⟩
      · refine ⟨path, List.mem_cons_self, fs, .refl fs, ?_⟩
        obtain ⟨made, hlocate, ⟨-, rfl⟩ | ⟨-, rfl⟩⟩ := apply_ensureDirectory happly
        · exact absurd hnone hhere
        · by_cases hsame : place = made
          · rw [hsame]
            exact hlocate
          · rw [node?_put_ne _ hsame] at hhere
            exact absurd hnone hhere
    · rw [hnone] at hnew
      cases hnew

/-! ### Making the directories above a path -/

theorem run_ensureDirectories {paths : List String}
    (h : ∀ above ∈ paths, ∃ place, fs.locate above = .ok place ∧
      fs.node? place = some .directory) : fs.run (paths.map .ensureDirectory) = (fs, none) := by
  induction paths with
  | nil => rfl
  | cons path rest ih =>
    obtain ⟨place, hlocate, hnode⟩ := h path List.mem_cons_self
    have happly : fs.apply (.ensureDirectory path) = .ok fs := by
      simp only [apply, hlocate, bind, Except.bind, hnode]
    rw [List.map_cons, run, happly]
    exact ih fun above habove => h above (List.mem_cons_of_mem path habove)

/-- There is nothing to make above a path that leads somewhere. -/
theorem run_ensureParents (h : fs.locate path = .ok place) {made : List String}
    (hmade : ∀ above ∈ made, above ∈ parents path) :
    fs.run (made.map .ensureDirectory) = (fs, none) := by
  apply run_ensureDirectories
  intro above habove
  have husable := usable_of_locate h
  obtain ⟨front, rest, -, hrest, hnames, hlocate⟩ :=
    exists_walk_of_mem_parents husable (hmade above habove)
  rw [locate_of_usable fs husable, hnames] at h
  obtain ⟨there, hthere, hdirectory⟩ := directory_of_walk_append hrest h
  exact ⟨there, (hlocate fs).trans hthere, hdirectory⟩

/-- What is read through a path stays as it was when directories above it are made, unless something
was missing on its way. -/
theorem read_run_parents {made : List String} (hmade : ∀ above ∈ made, above ∈ parents path)
    (hfound : fs.locate path ≠ .error .notFound) :
    (fs.run (made.map .ensureDirectory)).1.read path = fs.read path := by
  cases hlocate : fs.locate path with
  | ok place => rw [run_ensureParents hlocate hmade]
  | error fault =>
    have hsame := (addsDirectories_run fs made).grows.locate hfound
    rw [read_eq, read_eq, hsame, hlocate]

/-! ### Paths that never turn back -/

/-- No name of the path goes up or is too long. -/
def Straight (path : String) : Prop :=
  ∀ name ∈ names path, name ≠ ".." ∧ name.utf8ByteSize ≤ nameLimit

instance (path : String) : Decidable (Straight path) :=
  inferInstanceAs (Decidable (∀ _ ∈ _, _))

/-- The names that lead further. -/
def further (name : String) : Bool := name != "" && name != "."

theorem onward_of_straight {name : String}
    (h : name ≠ ".." ∧ name.utf8ByteSize ≤ nameLimit) (place : Location) :
    onward place name = .ok (if further name then name :: place else place) := by
  have hsize : ¬ nameLimit < name.utf8ByteSize := Nat.not_lt.2 h.2
  by_cases hstay : (name == "" || name == ".") = true
  · have hnot : further name = false := by
      obtain rfl | rfl : name = "" ∨ name = "." := by simpa using hstay
      · rfl
      · rfl
    rw [onward, if_pos hstay, hnot]
    rfl
  · have hgo : further name = true := by simpa [further] using hstay
    rw [onward, if_neg hstay, if_neg (by simpa using h.1), if_neg hsize, hgo]
    rfl

/-- Every name that leads further makes the place one name longer. -/
theorem length_of_walk {names : List String}
    (hstraight : ∀ name ∈ names, name ≠ ".." ∧ name.utf8ByteSize ≤ nameLimit)
    (h : fs.walk place names = .ok place') :
    place'.length = place.length + names.countP further := by
  induction names generalizing place with
  | nil =>
    cases h
    rfl
  | cons name rest ih =>
    rw [walk_cons] at h
    split at h
    · rename_i next henter
      have honward := (directory_of_enter henter).2
      rw [onward_of_straight (hstraight name List.mem_cons_self)] at honward
      cases honward
      have hrest := ih (fun other hother => hstraight other (List.mem_cons_of_mem name hother)) h
      rw [hrest, List.countP_cons]
      split
      · rw [List.length_cons, Nat.add_right_comm, Nat.add_assoc]
      · rw [Nat.add_zero]
    · cases h

/-- The directories above a path have fewer names that lead further, if there are any. -/
theorem countP_parentNames (path : String) :
    parentNames path = [] ∨ (parentNames path).countP further < (names path).countP further := by
  let uncounted : String → Bool := fun name => name == "" || name == "."
  show ((names path).reverse.dropWhile uncounted).tail.reverse = [] ∨
    ((names path).reverse.dropWhile uncounted).tail.reverse.countP further < _
  cases hdrop : (names path).reverse.dropWhile uncounted with
  | nil => exact .inl rfl
  | cons last front =>
    right
    have hlast : further last = true := by
      have hhead := List.head_dropWhile_not uncounted (l := (names path).reverse)
        (by rw [hdrop]; nofun)
      simp only [hdrop, List.head_cons, uncounted] at hhead
      simpa [further] using hhead
    have hsub : (last :: front).Sublist (names path).reverse := by
      rw [← hdrop]
      exact List.dropWhile_sublist _
    have hcount := hsub.countP_le (p := further)
    rw [List.countP_reverse, List.countP_cons, if_pos hlast] at hcount
    rw [List.tail_cons, List.countP_reverse]
    omega

/-- Beyond a place where nothing stands, only new directories are walked through. -/
theorem walk_of_missing (htree : fs.IsTree) (hadds : AddsDirectories fs fs') {names : List String}
    (hstraight : ∀ name ∈ names, name ≠ ".." ∧ name.utf8ByteSize ≤ nameLimit)
    (hmissing : fs.node? place = none) :
    fs'.walk place names = .error .notFound ∨
      ∃ place', fs'.walk place names = .ok place' ∧ fs.node? place' = none := by
  induction names generalizing place with
  | nil => exact .inr ⟨place, rfl, hmissing⟩
  | cons name rest ih =>
    rw [walk_cons, enter_eq]
    cases hnode : fs'.node? place with
    | none => exact .inl rfl
    | some node =>
      cases node with
      | file content =>
        rw [hadds.file place content hnode] at hmissing
        cases hmissing
      | directory =>
        rw [onward_of_straight (hstraight name List.mem_cons_self)]
        apply ih fun other hother => hstraight other (List.mem_cons_of_mem name hother)
        split
        · exact htree.node?_cons (by rw [hmissing]; nofun) name
        · exact hmissing

/-- Where something was missing on the way, there was nothing either where the way leads to now. -/
theorem walk_of_notFound (htree : fs.IsTree) (hadds : AddsDirectories fs fs') {names : List String}
    (hstraight : ∀ name ∈ names, name ≠ ".." ∧ name.utf8ByteSize ≤ nameLimit)
    (h : fs.walk place names = .error .notFound) :
    fs'.walk place names = .error .notFound ∨
      ∃ place', fs'.walk place names = .ok place' ∧ fs.node? place' = none := by
  induction names generalizing place with
  | nil => cases h
  | cons name rest ih =>
    cases hnode : fs.node? place with
    | none => exact walk_of_missing htree hadds hstraight hnode
    | some node =>
      rw [walk_cons, enter_eq, hnode] at h
      rw [walk_cons, enter_eq, hadds.node place node hnode]
      cases node with
      | file content => cases h
      | directory =>
        rw [onward_of_straight (hstraight name List.mem_cons_self)] at h ⊢
        exact ih (fun other hother => hstraight other (List.mem_cons_of_mem name hother)) h

/-- Where something was missing on the way of a path that never turns back, nothing is read after
the directories above it were made. -/
theorem read_of_straight (htree : fs.IsTree) (hstraight : Straight path)
    (h : fs.locate path = .error .notFound) :
    (fs.run (ensureParents path)).1.read path = .error .notFound := by
  have hadds : AddsDirectories fs (fs.run (ensureParents path)).1 := addsDirectories_run fs _
  rw [read_eq]
  cases hfault : pathFault? path with
  | some fault =>
    rw [locate_eq, hfault] at h ⊢
    cases h
    rfl
  | none =>
    rw [locate_of_usable _ hfault] at h ⊢
    rw [hadds.grows.start]
    obtain hstill | ⟨place, hwalk, hnone⟩ := walk_of_notFound htree hadds hstraight h
    · rw [hstill]
    · rw [hwalk]
      show (match (fs.run (ensureParents path)).1.node? place with
        | none => _ | some .directory => _ | some (.file _) => _) = _
      cases hnode : (fs.run (ensureParents path)).1.node? place with
      | none => rfl
      | some node =>
        -- A new directory stands above the path, where its way has not come to an end.
        exfalso
        obtain ⟨above, habove, tree, htree', hlocate⟩ :=
          exists_locate_of_new (parents path) hnone hnode
        obtain ⟨front, rest, hfront, -, hnames, hway⟩ := exists_walk_of_mem_parents hfault habove
        rw [hway, htree'.grows.start] at hlocate
        have hshort := length_of_walk (fun name hname => hstraight name (by
          rw [hnames]
          exact List.mem_append_left rest hname)) hlocate
        have hlong := length_of_walk hstraight hwalk
        have hle := hfront.sublist.countP_le (p := further)
        obtain hnil | hlt := countP_parentNames path
        · rw [parents, hnil] at habove
          cases habove
        · omega

end NameHunt.FileSystem
