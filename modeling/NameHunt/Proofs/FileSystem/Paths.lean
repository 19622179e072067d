import NameHunt.FileSystem.Change
import NameHunt.Proofs.Text.Lines

/-!
# Where paths lead

A path is a row of names that are entered one after the other. Whether it leads anywhere is up to
the directories on the way alone, so that a tree in which they stay is one in which the path leads
to the same place.

* `FileSystem.walk`, `FileSystem.locate_eq`: a path name by name.
* `FileSystem.exists_walk_of_mem_parents`: the directories above a path are on its way.
* `FileSystem.exists_names_append`: a path that goes on within its last name.
* `FileSystem.KeepsDirectories`, `FileSystem.Grows`: trees in which directories stay, and trees in
  which files stay as well.
* `Grows.locate`: only a path on which something was missing may lead elsewhere in a tree that grew.
-/

namespace NameHunt

namespace FileSystem

variable {fs fs' fs'' : FileSystem} {place place' : Location} {path : String}

/-! ### A path name by name -/

theorem names_ne_nil (path : String) : names path ≠ [] := by
  rw [names, ne_eq, List.map_eq_nil_iff]
  exact Text.splitOn_ne_nil '/' path.toList

/-- The names of some names that were joined are these names. -/
theorem names_intercalate {front : List String} (hne : front ≠ [])
    (hslash : ∀ name ∈ front, '/' ∉ name.toList) : names ("/".intercalate front) = front := by
  rw [names, Text.splitOn_intercalate rfl hne hslash, List.map_map]
  simp [Function.comp_def]

theorem slash_not_mem_names {name : String} (h : name ∈ names path) : '/' ∉ name.toList := by
  obtain ⟨piece, hpiece, rfl⟩ := List.mem_map.1 h
  rw [String.toList_ofList]
  exact Text.not_mem_of_mem_splitOn hpiece

/-- The names of a path joined are the path. -/
theorem intercalate_names (path : String) : "/".intercalate (names path) = path := by
  have hsep : "/".toList = ['/'] := rfl
  apply String.toList_inj.1
  rw [String.toList_intercalate, hsep, names, List.map_map]
  have hid : String.toList ∘ String.ofList = id := by
    funext piece
    exact String.toList_ofList
  rw [hid, List.map_id, Text.splitOn_eq]
  exact List.intercalate_splitOn '/'

/-- Why a path cannot be used in any tree. -/
def pathFault? (path : String) : Option Fault :=
  if path.isEmpty then some .notFound
  else if path.toList.contains '\x00' then some .invalidName
  else if pathLimit < path.utf8ByteSize then some .nameTooLong
  else none

/-- One name further from a directory. -/
def onward (place : Location) (name : String) : Except Fault Location :=
  if name == "" || name == "." then .ok place
  else if name == ".." then .ok place.tail
  else if nameLimit < name.utf8ByteSize then .error .nameTooLong
  else .ok (name :: place)

theorem enter_eq (fs : FileSystem) (place : Location) (name : String) :
    fs.enter place name =
      match fs.node? place with
      | none => .error .notFound
      | some (.file _) => .error .notADirectory
      | some .directory => onward place name := rfl

/-- Nothing is missing one name further from a directory. -/
theorem onward_ne_notFound (place : Location) (name : String) :
    onward place name ≠ .error .notFound := by
  unfold onward
  split
  · nofun
  · split
    · nofun
    · split <;> nofun

/-- Several names further from a place. -/
def walk (fs : FileSystem) (place : Location) (names : List String) : Except Fault Location :=
  names.foldlM fs.enter place

theorem walk_nil (fs : FileSystem) (place : Location) : fs.walk place [] = .ok place := rfl

theorem walk_cons (fs : FileSystem) (place : Location) (name : String) (rest : List String) :
    fs.walk place (name :: rest) =
      match fs.enter place name with
      | .ok next => fs.walk next rest
      | .error fault => .error fault := by
  rw [walk, List.foldlM_cons]
  cases fs.enter place name <;> rfl

theorem walk_append (fs : FileSystem) (place : Location) (front rest : List String) :
    fs.walk place (front ++ rest) =
      match fs.walk place front with
      | .ok next => fs.walk next rest
      | .error fault => .error fault := by
  rw [walk, List.foldlM_append]
  show (fs.walk place front >>= fun next => fs.walk next rest) = _
  cases fs.walk place front <;> rfl

theorem walk_singleton (h : fs.node? place = some .directory) (name : String) :
    fs.walk place [name] = onward place name := by
  rw [walk_cons, enter_eq, h]
  cases honward : onward place name with
  | ok next => simp only [walk_nil]
  | error fault => rfl

/-- A path that can be used is walked from where it starts. -/
theorem locate_eq (fs : FileSystem) (path : String) :
    fs.locate path =
      match pathFault? path with
      | some fault => .error fault
      | none => fs.walk (fs.start path) (names path) := by
  unfold locate pathFault?
  split
  · rfl
  · split
    · rfl
    · split <;> rfl

theorem locate_empty (fs : FileSystem) : fs.locate "" = .error .notFound := rfl

theorem locate_of_usable (fs : FileSystem) (h : pathFault? path = none) :
    fs.locate path = fs.walk (fs.start path) (names path) := by
  rw [locate_eq, h]

theorem usable_of_locate (h : fs.locate path = .ok place) : pathFault? path = none := by
  rw [locate_eq] at h
  cases hfault : pathFault? path with
  | none => rfl
  | some fault =>
    rw [hfault] at h
    cases h

/-- Only a directory is entered. -/
theorem directory_of_enter {name : String} (h : fs.enter place name = .ok place') :
    fs.node? place = some .directory ∧ onward place name = .ok place' := by
  rw [enter_eq] at h
  split at h
  · cases h
  · cases h
  · rename_i hdirectory
    exact ⟨hdirectory, h⟩

/-- Where a walk goes on, it has come to a directory. -/
theorem directory_of_walk_append {front rest : List String} (hrest : rest ≠ [])
    (h : fs.walk place (front ++ rest) = .ok place') :
    ∃ above, fs.walk place front = .ok above ∧ fs.node? above = some .directory := by
  rw [walk_append] at h
  split at h
  · rename_i above hfront
    obtain ⟨name, rest, rfl⟩ := List.exists_cons_of_ne_nil hrest
    rw [walk_cons] at h
    split at h
    · rename_i next henter
      exact ⟨above, hfront, (directory_of_enter henter).1⟩
    · cases h
  · cases h

/-! ### The directories above a path -/

theorem usable_of_append {above : String} (h : pathFault? path = none) (hne : above ≠ "")
    {more : List Char} (hmore : path.toList = above.toList ++ more) : pathFault? above = none := by
  have hempty : ¬ above.isEmpty = true := by simpa using hne
  obtain rfl : path = above ++ String.ofList more := by
    apply String.toList_inj.1
    rw [hmore, String.toList_append, String.toList_ofList]
  unfold pathFault? at h ⊢
  split at h
  · cases h
  · split at h
    · cases h
    · split at h
      · cases h
      · rename_i hnul hlong
        have hnul' : ¬ above.toList.contains '\x00' = true := by
          intro hmem
          apply hnul
          rw [List.contains_iff_mem] at hmem ⊢
          rw [String.toList_append]
          exact List.mem_append_left _ hmem
        have hlong' : ¬ pathLimit < above.utf8ByteSize := by
          rw [String.utf8ByteSize_append] at hlong
          omega
        rw [if_neg hempty, if_neg hnul', if_neg hlong']

theorem start_of_append {above : String} (fs : FileSystem) (hne : above ≠ "") {more : List Char}
    (hmore : path.toList = above.toList ++ more) : fs.start above = fs.start path := by
  have hlist : above.toList ≠ [] := by simpa using hne
  obtain ⟨c, rest, hcons⟩ := List.exists_cons_of_ne_nil hlist
  simp [start, hmore, hcons]

/-- The names of the directories above a path are names of the path, and not all of them. -/
theorem exists_names_eq_parentNames (path : String) :
    ∃ rest, rest ≠ [] ∧ names path = parentNames path ++ rest := by
  let uncounted : String → Bool := fun name => name == "" || name == "."
  have hnames : names path = ((names path).reverse.dropWhile uncounted).reverse ++
      ((names path).reverse.takeWhile uncounted).reverse := by
    rw [← List.reverse_append, List.takeWhile_append_dropWhile, List.reverse_reverse]
  show ∃ rest, rest ≠ [] ∧
    names path = ((names path).reverse.dropWhile uncounted).tail.reverse ++ rest
  cases hdrop : (names path).reverse.dropWhile uncounted with
  | nil => exact ⟨names path, names_ne_nil path, rfl⟩
  | cons last front =>
    refine ⟨last :: ((names path).reverse.takeWhile uncounted).reverse, nofun, ?_⟩
    rw [hdrop, List.reverse_cons, List.append_assoc] at hnames
    exact hnames

/-- A directory above a path is on its way, and the way goes on from it. -/
theorem exists_walk_of_mem_parents (h : pathFault? path = none) {above : String}
    (habove : above ∈ parents path) :
    ∃ front rest, front <+: parentNames path ∧ rest ≠ [] ∧ names path = front ++ rest ∧
      ∀ fs : FileSystem, fs.locate above = fs.walk (fs.start path) front := by
  obtain ⟨after, hafter, hnames⟩ := exists_names_eq_parentNames path
  obtain ⟨hmem, hne⟩ := List.mem_filter.1 habove
  obtain ⟨n, hn, rfl⟩ := List.mem_map.1 hmem
  have hlt : n < (parentNames path).length := List.mem_range.1 hn
  have hne' : "/".intercalate ((parentNames path).take (n + 1)) ≠ "" := by simpa using hne
  have hall : names path =
      (parentNames path).take (n + 1) ++ ((parentNames path).drop (n + 1) ++ after) := by
    rw [← List.append_assoc, List.take_append_drop, hnames]
  have hfront : (parentNames path).take (n + 1) ≠ [] := by
    intro hnil
    have hlength := congrArg List.length hnil
    rw [List.length_take, List.length_nil] at hlength
    omega
  -- What is joined from the first names is the front of the path.
  obtain ⟨more, hmore⟩ : ∃ more, path.toList =
      ("/".intercalate ((parentNames path).take (n + 1))).toList ++ more := by
    have hpath := congrArg String.toList (intercalate_names path)
    rw [hall, String.toList_intercalate, List.map_append] at hpath
    obtain ⟨more, hprefix⟩ := Text.prefix_intercalate "/".toList
      (((parentNames path).take (n + 1)).map String.toList)
      (((parentNames path).drop (n + 1) ++ after).map String.toList)
    exact ⟨more, by rw [String.toList_intercalate, hprefix, hpath]⟩
  refine ⟨_, _, List.take_prefix _ _, ?_, hall, fun fs => ?_⟩
  · intro hnil
    exact hafter (List.append_eq_nil_iff.1 hnil).2
  · rw [locate_of_usable fs (usable_of_append h hne' hmore), start_of_append fs hne' hmore,
      names_intercalate hfront]
    intro name hname
    apply slash_not_mem_names
    rw [hall]
    exact List.mem_append_left _ hname

/-! ### A path that goes on within its last name -/

theorem exists_names_append (path : String) (suffix : String) (h : '/' ∉ suffix.toList) :
    ∃ init last, names path = init ++ [last] ∧
      names (path ++ suffix) = init ++ [last ++ suffix] := by
  obtain ⟨init, last, hpath, hlonger⟩ := Text.splitOn_append_of_not_mem h path.toList
  refine ⟨init.map String.ofList, String.ofList last, ?_, ?_⟩
  · rw [names, hpath, List.map_append]
    rfl
  · rw [names, String.toList_append, hlonger, List.map_append, List.map_singleton,
      String.ofList_append, String.ofList_toList]

/-! ### Trees in which directories stay -/

/-- Directories stay directories. -/
structure KeepsDirectories (fs fs' : FileSystem) : Prop where
  current_eq : fs'.current = fs.current
  directory : ∀ place, fs.node? place = some .directory → fs'.node? place = some .directory

/-- Directories stay directories, and files stay files. -/
structure Grows (fs fs' : FileSystem) : Prop extends KeepsDirectories fs fs' where
  file : ∀ place content, fs.node? place = some (.file content) →
    ∃ content', fs'.node? place = some (.file content')

theorem KeepsDirectories.trans (h : KeepsDirectories fs fs') (h' : KeepsDirectories fs' fs'') :
    KeepsDirectories fs fs'' where
  current_eq := h'.current_eq.trans h.current_eq
  directory := fun place hplace => h'.directory place (h.directory place hplace)

theorem KeepsDirectories.start (h : KeepsDirectories fs fs') (path : String) :
    fs'.start path = fs.start path := by
  rw [FileSystem.start, FileSystem.start, h.current_eq]

theorem KeepsDirectories.walk (h : KeepsDirectories fs fs') {names : List String}
    (hwalk : fs.walk place names = .ok place') : fs'.walk place names = .ok place' := by
  induction names generalizing place with
  | nil => exact hwalk
  | cons name rest ih =>
    rw [walk_cons] at hwalk ⊢
    split at hwalk
    · rename_i next henter
      obtain ⟨hdirectory, honward⟩ := directory_of_enter henter
      have henter' : fs'.enter place name = .ok next := by
        rw [enter_eq, h.directory place hdirectory]
        exact honward
      rw [henter']
      exact ih hwalk
    · cases hwalk

/-- A path that leads somewhere leads there as long as directories stay. -/
theorem KeepsDirectories.locate (h : KeepsDirectories fs fs')
    (hlocate : fs.locate path = .ok place) : fs'.locate path = .ok place := by
  have husable := usable_of_locate hlocate
  rw [locate_of_usable _ husable] at hlocate ⊢
  rw [h.start]
  exact h.walk hlocate

theorem Grows.walk (h : Grows fs fs') (place : Location) (names : List String) :
    fs.walk place names = .error .notFound ∨ fs'.walk place names = fs.walk place names := by
  induction names generalizing place with
  | nil => exact .inr rfl
  | cons name rest ih =>
    rw [walk_cons, walk_cons, enter_eq, enter_eq]
    cases hnode : fs.node? place with
    | none => exact .inl rfl
    | some node =>
      cases node with
      | directory =>
        rw [h.directory place hnode]
        cases onward place name with
        | error fault => exact .inr rfl
        | ok next => exact ih next
      | file content =>
        obtain ⟨content', hnode'⟩ := h.file place content hnode
        rw [hnode']
        exact .inr rfl

/-- Only a path on which something was missing may lead elsewhere in a tree that grew. -/
theorem Grows.locate (h : Grows fs fs') (hfound : fs.locate path ≠ .error .notFound) :
    fs'.locate path = fs.locate path := by
  rw [locate_eq, locate_eq] at *
  split at hfound
  · rfl
  · rw [h.start]
    exact (h.walk _ _).resolve_left hfound

end FileSystem

end NameHunt
