import NameHunt.Proofs.Cache.Format
import NameHunt.Proofs.FileSystem.Changes
import NameHunt.Store

/-!
# Saving in steps

Saving makes the directories above the file, writes the bytes to a second file, and moves that file
into place. It can come to a stop after each of these steps, and within the writing.

* `Store.Saving`: the trees that saving comes through.
* `Store.saving_save`: the tree that saving leaves behind is one of them.
* `Saving.read_done`, `Saving.find_temporary`: the cache in place, and the second file gone.
* `Saving.read_cases`: until then the file is what it was. A path on which something was missing may
  lead elsewhere once the directories above it were made.
* `Store.saves_atomically`: what is loaded at any point of saving.
* `Store.not_saves_atomically_everywhere`: a path that turns back in a directory that is not there.
-/

namespace NameHunt

open FileSystem

namespace Store

variable {store : Store} {cache : Cache} {fs fs' : FileSystem} {origin place : Location}

/-- The trees that saving a cache comes through, with whether the cache is in place. -/
inductive Saving (store : Store) (cache : Cache) (fs : FileSystem) : Bool → FileSystem → Prop
  /-- Some of the directories above the file are there. -/
  | making {made rest : List String} {fs' : FileSystem}
      (hparents : parents store.path = made ++ rest)
      (hmade : fs.run (made.map .ensureDirectory) = (fs', none)) : Saving store cache fs false fs'
  /-- The second file holds so many of the bytes. -/
  | writing {ready fs' : FileSystem} (count : Nat)
      (hready : fs.run (ensureParents store.path) = (ready, none))
      (hwrite : ready.apply (.write store.temporary (cache.encode.take count)) = .ok fs') :
      Saving store cache fs false fs'
  /-- The second file was moved into place. -/
  | done {ready written fs' : FileSystem}
      (hready : fs.run (ensureParents store.path) = (ready, none))
      (hwrite : ready.apply (.write store.temporary cache.encode) = .ok written)
      (hrename : written.apply (.rename store.temporary store.path) = .ok fs') :
      Saving store cache fs true fs'

/-! ### What saving leaves behind -/

/-- Directories are made up to the first that cannot be. -/
theorem exists_made {paths : List String} {fault : Fault}
    (h : fs.run (paths.map .ensureDirectory) = (fs', some fault)) :
    ∃ made rest, paths = made ++ rest ∧ fs.run (made.map .ensureDirectory) = (fs', none) := by
  induction paths generalizing fs with
  | nil => cases h
  | cons path rest ih =>
    rw [List.map_cons, run] at h
    split at h
    · rename_i changed happly
      obtain ⟨made, rest, rfl, hmade⟩ := ih h
      refine ⟨path :: made, rest, rfl, ?_⟩
      rw [List.map_cons, run, happly]
      exact hmade
    · cases h
      exact ⟨[], path :: rest, rfl, rfl⟩

theorem save_eq (store : Store) (cache : Cache) (fs : FileSystem) :
    store.save cache fs =
      ((fs.run (store.changes cache)).1,
        (fs.run (store.changes cache)).2.map store.writeFault) := by
  rw [save]

/-- The tree that saving leaves behind is one of those it comes through, and the cache is in place
unless there was an error. -/
theorem saving_save (store : Store) (cache : Cache) (fs : FileSystem) :
    Saving store cache fs (store.save cache fs).2.isNone (store.save cache fs).1 := by
  rw [save_eq, Option.isNone_map, changes, run_append]
  cases hready : fs.run (ensureParents store.path) with
  | mk ready fault =>
    cases fault with
    | some fault =>
      obtain ⟨made, rest, hparents, hmade⟩ := exists_made hready
      exact .making hparents hmade
    | none =>
      have hall : cache.encode.take cache.encode.size = cache.encode := by simp
      show Saving store cache fs
        (ready.run [.write store.temporary cache.encode,
          .rename store.temporary store.path]).2.isNone
        (ready.run [.write store.temporary cache.encode,
          .rename store.temporary store.path]).1
      rw [run]
      cases hwrite : ready.apply (.write store.temporary cache.encode) with
      | error fault => exact .making (List.append_nil _).symm hready
      | ok written =>
        show Saving store cache fs (written.run [.rename store.temporary store.path]).2.isNone
          (written.run [.rename store.temporary store.path]).1
        rw [run]
        cases hrename : written.apply (.rename store.temporary store.path) with
        | error fault => exact .writing cache.encode.size hready (by rw [hall, hwrite])
        | ok saved => exact .done hready hwrite hrename

theorem saving_of_save {error : Option Error} (h : store.save cache fs = (fs', error)) :
    Saving store cache fs error.isNone fs' := by
  have hsaving := saving_save store cache fs
  rwa [h] at hsaving

/-! ### The second file -/

/-- The second file stands beside the file, in the directory that the path leads through last. -/
theorem exists_above_of_temporary (hpath : store.path ≠ "")
    (h : fs.locate store.temporary = .ok origin) :
    ∃ last above, origin = (last ++ ".tmp") :: above ∧
      fs.locate store.path = onward above last := by
  have hlist : store.temporary.toList = store.path.toList ++ ".tmp".toList := String.toList_append
  have husable := usable_of_append (usable_of_locate h) hpath hlist
  obtain ⟨init, last, hnames, htemporary⟩ :=
    exists_names_append store.path ".tmp" (by decide)
  obtain ⟨init', last', above, hnames', hinit, hdirectory, honward⟩ := exists_directory_of_locate h
  obtain ⟨rfl, hlast⟩ := List.append_inj' (hnames'.symm.trans htemporary) rfl
  obtain rfl : last' = last ++ ".tmp" := List.singleton_inj.1 hlast
  refine ⟨last, above, ?_, ?_⟩
  · have hlength : (last ++ ".tmp").length = last.length + 4 := String.length_append last ".tmp"
    unfold onward at honward
    split at honward
    · rename_i hstay
      have hcases : last ++ ".tmp" = "" ∨ last ++ ".tmp" = "." := by simpa using hstay
      obtain hname | hname := hcases
      · rw [hname] at hlength
        exact absurd hlength (by show 0 ≠ last.length + 4; omega)
      · rw [hname] at hlength
        exact absurd hlength (by show 1 ≠ last.length + 4; omega)
    · split at honward
      · rename_i hup
        have hname : last ++ ".tmp" = ".." := by simpa using hup
        rw [hname] at hlength
        exact absurd hlength (by show 2 ≠ last.length + 4; omega)
      · split at honward
        · cases honward
        · cases honward
          rfl
  · rw [← start_of_append fs hpath hlist] at hinit
    rw [locate_of_usable fs husable, hnames, walk_append, hinit]
    exact walk_singleton hdirectory last

/-- The second file is not the file. -/
theorem ne_of_temporary (h : fs.locate store.temporary = .ok origin)
    (hplace : fs.locate store.path = .ok place) : place ≠ origin := by
  have hpath : store.path ≠ "" := by
    intro hempty
    rw [hempty, locate_empty] at hplace
    cases hplace
  obtain ⟨last, above, rfl, honward⟩ := exists_above_of_temporary hpath h
  obtain rfl | rfl | rfl := onward_cases (honward.symm.trans hplace)
  · exact fun hsame => absurd (congrArg List.length hsame) (by simp)
  · intro hsame
    have hlength := congrArg List.length hsame
    rw [List.length_tail, List.length_cons] at hlength
    omega
  · intro hsame
    have hlength := congrArg String.length (List.cons.inj hsame).1
    have hlonger : (last ++ ".tmp").length = last.length + 4 := String.length_append last ".tmp"
    omega

/-- Writing the second file leaves what is read through the path alone. -/
theorem read_of_write {content : Bytes}
    (h : fs.apply (.write store.temporary content) = .ok fs') :
    fs'.read store.path = fs.read store.path := by
  obtain ⟨origin, horigin, hnode, rfl⟩ := apply_write h
  have hgrows := grows_put hnode content
  by_cases hpath : store.path = ""
  · rw [hpath]
    rfl
  · obtain ⟨last, above, -, honward⟩ := exists_above_of_temporary hpath horigin
    have hfound : fs.locate store.path ≠ .error .notFound := by
      rw [honward]
      exact onward_ne_notFound above last
    have hsame := hgrows.locate hfound
    cases hlocate : fs.locate store.path with
    | error fault => rw [read_eq, read_eq, hsame, hlocate]
    | ok place =>
      have hne : place ≠ origin := ne_of_temporary horigin hlocate
      exact read_of_locate hlocate (hsame.trans hlocate) (node?_put_ne fs hne _)

/-! ### What is read while a cache is being saved -/

/-- All about the tree in which the cache is in place. -/
theorem Saving.exists_done (h : Saving store cache fs true fs') :
    ∃ ready origin place, AddsDirectories fs ready ∧ fs'.locate store.temporary = .ok origin ∧
      fs'.locate store.path = .ok place ∧ place ≠ origin ∧ place ≠ [] ∧ origin ≠ [] ∧
      (∀ q, q ≠ place → q ≠ origin → fs'.node? q = ready.node? q) ∧
      fs'.node? place = some (.file cache.encode) ∧ fs'.node? origin = none := by
  cases h with
  | @done ready written fs' hready hwrite hrename =>
    obtain ⟨origin, horigin, hnode, rfl⟩ := apply_write hwrite
    obtain ⟨origin', content, place, horigin', hfile, hplace, hnode', rfl⟩ := apply_rename hrename
    have horigin_ne : origin ≠ [] := ne_nil_of_node? hnode
    have hplace_ne : place ≠ [] := ne_nil_of_node? hnode'
    -- The second file that is moved is the one that was written.
    have hwritten := (grows_put hnode cache.encode).toKeepsDirectories.locate horigin
    obtain rfl : origin = origin' := Except.ok.inj (hwritten.symm.trans horigin')
    obtain rfl : cache.encode = content := by
      rw [node?_put_self _ horigin_ne] at hfile
      cases hfile
      rfl
    have hne : place ≠ origin := ne_of_temporary horigin' hplace
    have hkeeps : KeepsDirectories (ready.put origin (.file cache.encode))
        (((ready.put origin (.file cache.encode)).erase origin).put place
          (.file cache.encode)) := by
      apply (keepsDirectories_erase (by rw [hfile]; nofun)).trans
      refine (grows_put ?_ _).toKeepsDirectories
      rw [node?_erase_ne _ hne]
      exact hnode'
    refine ⟨ready, origin, place, ?_, hkeeps.locate horigin', hkeeps.locate hplace, hne, hplace_ne,
      horigin_ne, ?_, node?_put_self _ hplace_ne _, ?_⟩
    · have hadds := addsDirectories_run fs (parents store.path)
      rw [← ensureParents, hready] at hadds
      exact hadds
    · intro q hq hq'
      rw [node?_put_ne _ hq, node?_erase_ne _ hq', node?_put_ne _ hq']
    · rw [node?_put_ne _ hne.symm, node?_erase_self _ horigin_ne]

theorem Saving.read_done (h : Saving store cache fs true fs') :
    fs'.read store.path = .ok cache.encode := by
  obtain ⟨ready, origin, place, -, -, hplace, -, -, -, -, hfile, -⟩ := h.exists_done
  exact read_of_node hplace hfile

/-- Nothing stands where the second file stood. -/
theorem Saving.find_temporary (h : Saving store cache fs true fs') :
    fs'.find store.temporary = .error .notFound := by
  obtain ⟨ready, origin, place, -, horigin, -, -, -, -, -, -, hnone⟩ := h.exists_done
  simp only [find, horigin, bind, Except.bind, hnone]

/-- Until the cache is in place the file is what it was, if nothing was missing on the way to it. -/
theorem Saving.read_eq_of_found (h : Saving store cache fs false fs')
    (hfound : fs.locate store.path ≠ .error .notFound) :
    fs'.read store.path = fs.read store.path := by
  cases h with
  | @making made rest fs' hparents hmade =>
    have habove : ∀ above ∈ made, above ∈ parents store.path := by
      intro above hmem
      rw [hparents]
      exact List.mem_append_left rest hmem
    have hsame := read_run_parents habove hfound
    rwa [hmade] at hsame
  | writing count hready hwrite =>
    have hsame : (fs.run (ensureParents store.path)).1.read store.path = fs.read store.path :=
      read_run_parents (fun _ => id) hfound
    rw [hready] at hsame
    exact (read_of_write hwrite).trans hsame

/-- Until the cache is in place a file that can be read is what it was. -/
theorem Saving.read_of_read (h : Saving store cache fs false fs') {content : Bytes}
    (hread : fs.read store.path = .ok content) : fs'.read store.path = .ok content := by
  obtain ⟨place, hlocate, -⟩ := locate_of_read hread
  have hfound : fs.locate store.path ≠ .error .notFound := by
    rw [hlocate]
    nofun
  exact (h.read_eq_of_found hfound).trans hread

/-- Until the cache is in place the file is what it was, or what the path leads to after the
directories above it were made. -/
theorem Saving.read_cases (h : Saving store cache fs false fs') :
    fs'.read store.path = fs.read store.path ∨
      fs'.read store.path = (fs.run (ensureParents store.path)).1.read store.path := by
  cases h with
  | @making made rest fs' hparents hmade =>
    have hrest : (fs.run (ensureParents store.path)).1 =
        (fs'.run (rest.map .ensureDirectory)).1 := by
      rw [ensureParents, hparents, List.map_append, run_append, hmade]
    by_cases hfound : fs'.locate store.path = .error .notFound
    · left
      have hbefore : fs.locate store.path = .error .notFound := by
        by_contra hfound'
        have hadds := addsDirectories_run fs made
        rw [hmade] at hadds
        rw [hadds.grows.locate hfound'] at hfound
        exact hfound' hfound
      rw [read_eq, read_eq, hfound, hbefore]
    · right
      rw [hrest, read_run_parents (fun above habove => ?_) hfound]
      rw [hparents]
      exact List.mem_append_right made habove
  | writing count hready hwrite =>
    right
    rw [read_of_write hwrite, hready]

/-- Until the cache is in place the file is what it was, if its path never turns back. -/
theorem Saving.read_eq_of_straight (h : Saving store cache fs false fs') (htree : fs.IsTree)
    (hstraight : Straight store.path) : fs'.read store.path = fs.read store.path := by
  by_cases hfound : fs.locate store.path = .error .notFound
  · obtain hsame | hmade := h.read_cases
    · exact hsame
    · rw [hmade, read_of_straight htree hstraight hfound, read_eq, hfound]
  · exact h.read_eq_of_found hfound

/-- No file but the two has its content changed. -/
theorem Saving.node?_iff {done : Bool} (h : Saving store cache fs done fs')
    (hpath : fs'.locate store.path ≠ .ok place)
    (htemporary : fs'.locate store.temporary ≠ .ok place) (content : Bytes) :
    fs'.node? place = some (.file content) ↔ fs.node? place = some (.file content) := by
  cases done with
  | true =>
    obtain ⟨ready, origin, there, hadds, horigin, hthere, -, -, -, hframe, -, -⟩ := h.exists_done
    rw [hframe place (fun hsame => hpath (hsame ▸ hthere))
      (fun hsame => htemporary (hsame ▸ horigin))]
    exact ⟨hadds.file place content, hadds.node place _⟩
  | false =>
    cases h with
    | @making made rest fs' hparents hmade =>
      have hadds := addsDirectories_run fs made
      rw [hmade] at hadds
      exact ⟨hadds.file place content, hadds.node place _⟩
    | @writing ready fs' count hready hwrite =>
      have hadds := addsDirectories_run fs (parents store.path)
      rw [← ensureParents, hready] at hadds
      obtain ⟨origin, horigin, hnode, rfl⟩ := apply_write hwrite
      have hthere := (grows_put hnode (cache.encode.take count)).toKeepsDirectories.locate horigin
      rw [node?_put_ne _ (by rintro rfl; exact htemporary hthere)]
      exact ⟨hadds.file place content, hadds.node place _⟩

/-! ### What is loaded -/

theorem load_congr (h : fs'.read store.path = fs.read store.path) :
    store.load fs' = store.load fs := by
  rw [load, load, h]

theorem load_of_encode (h : fs.read store.path = .ok cache.encode) :
    store.load fs = .ok (some cache) := by
  simp only [load, h, Cache.decode_encode]

theorem load_of_notFound (h : fs.locate store.path = .error .notFound) :
    store.load fs = .ok none := by
  simp only [load, read_eq, h]

/-- What is loaded at any point of saving, and what else is changed. -/
structure SavesAtomically (store : Store) (cache : Cache) (fs : FileSystem) : Prop where
  /-- Until the cache is in place, what was loaded before is loaded. Only a path on which something
  was missing may lead elsewhere, to what it leads to after the directories above it were made. -/
  interrupted : ∀ fs', Saving store cache fs false fs' →
    store.load fs' = store.load fs ∨
      fs.locate store.path = .error .notFound ∧ store.load fs = .ok none ∧
        store.load fs' = store.load (fs.run (ensureParents store.path)).1
  /-- A path that never turns back, or on which nothing was missing, leads to what it led to. -/
  unchanged : fs.locate store.path ≠ .error .notFound ∨ fs.IsTree ∧ Straight store.path →
    ∀ fs', Saving store cache fs false fs' → store.load fs' = store.load fs
  done : ∀ fs', Saving store cache fs true fs' → store.load fs' = .ok (some cache)
  /-- An error means that the cache is not in place. -/
  returned : ∀ error fs', store.save cache fs = (fs', error) →
    Saving store cache fs error.isNone fs'
  /-- No file but the two has its content changed. -/
  others : ∀ isDone fs', Saving store cache fs isDone fs' → ∀ place,
    fs'.locate store.path ≠ .ok place → fs'.locate store.temporary ≠ .ok place →
      ∀ content, fs'.node? place = some (.file content) ↔ fs.node? place = some (.file content)

theorem saves_atomically (store : Store) (cache : Cache) (fs : FileSystem) :
    SavesAtomically store cache fs where
  interrupted := by
    intro fs' h
    by_cases hfound : fs.locate store.path = .error .notFound
    · obtain hsame | hmade := h.read_cases
      · exact .inl (load_congr hsame)
      · exact .inr ⟨hfound, load_of_notFound hfound, load_congr hmade⟩
    · exact .inl (load_congr (h.read_eq_of_found hfound))
  unchanged := by
    rintro (hfound | ⟨htree, hstraight⟩) fs' h
    · exact load_congr (h.read_eq_of_found hfound)
    · exact load_congr (h.read_eq_of_straight htree hstraight)
  done := fun fs' h => load_of_encode h.read_done
  returned := fun error fs' hsave => saving_of_save hsave
  others := fun isDone fs' h place hpath htemporary => h.node?_iff hpath htemporary

/-! ### A path that turns back -/

/-- A path through a directory `a` and back. -/
def roundabout : Store := ⟨"a/../x"⟩

/-- A file that holds a cache, and a directory in the place of the second file. -/
def blocked (held : Cache) : FileSystem :=
  (FileSystem.empty.put ["x"] (.file held.encode)).put ["x.tmp"] .directory

theorem isTree_blocked (held : Cache) : (blocked held).IsTree := by
  have hfile : (FileSystem.empty.put ["x"] (.file held.encode)).IsTree :=
    isTree_empty.put nofun ⟨"x", [], rfl, rfl⟩
  exact hfile.put nofun ⟨"x.tmp", [], rfl, rfl⟩

/-- The directory is made before the writing fails. -/
theorem save_blocked (held cache : Cache) :
    roundabout.save cache (blocked held) =
      ((blocked held).put ["a"] .directory, some (roundabout.writeFault .isADirectory)) := by
  have habove : ensureParents roundabout.path =
      [.ensureDirectory "a", .ensureDirectory "a/.."] := by cbv
  have hmake : (blocked held).apply (.ensureDirectory "a") =
      .ok ((blocked held).put ["a"] .directory) := rfl
  have hback : ((blocked held).put ["a"] .directory).apply (.ensureDirectory "a/..") =
      .ok ((blocked held).put ["a"] .directory) := rfl
  have hwrite : ((blocked held).put ["a"] .directory).apply
      (.write roundabout.temporary cache.encode) = .error .isADirectory := rfl
  simp only [save, changes, habove, List.cons_append, List.nil_append, run, hmake, hback, hwrite,
    Option.map_some]

/-- One slot, which is free. -/
def oneFree : Cache where
  capacity := 1
  bytes := #[0]
  capacity_pos := Nat.one_pos
  capacity_le := by decide
  size_bytes := by decide
  clear_beyond := fun i _ => Bits.get_replicate 1 i

/-- Nothing is found through the directory `a` while it is missing. Saving makes it, fails, and the
path leads to a file that was there all along. -/
theorem not_saves_atomically_everywhere :
    (¬ ∀ (store : Store) (cache : Cache) (fs fs' : FileSystem) (isDone : Bool), fs.IsTree →
      Saving store cache fs isDone fs' →
        store.load fs' = store.load fs ∨ store.load fs' = .ok (some cache)) ∧
    ¬ ∀ (store : Store) (cache : Cache) (fs : FileSystem), fs.IsTree →
      (store.save cache fs).2 ≠ none → store.load (store.save cache fs).1 = store.load fs := by
  let held := oneFree.insert "a"
  have hne : held ≠ oneFree := by decide
  have hbefore : roundabout.load (blocked held) = .ok none := load_of_notFound rfl
  have hafter : roundabout.load (roundabout.save oneFree (blocked held)).1 = .ok (some held) := by
    rw [save_blocked]
    exact load_of_encode rfl
  constructor
  · intro hall
    obtain hsame | hnew := hall roundabout oneFree (blocked held) _ _ (isTree_blocked held)
      (saving_save roundabout oneFree (blocked held))
    · rw [hafter, hbefore] at hsame
      cases hsame
    · rw [hafter] at hnew
      exact hne (Option.some.inj (Except.ok.inj hnew))
  · intro hall
    have hfault : (roundabout.save oneFree (blocked held)).2 ≠ none := by
      rw [save_blocked]
      nofun
    have hsame := hall roundabout oneFree (blocked held) (isTree_blocked held) hfault
    rw [hafter, hbefore] at hsame
    cases hsame

end Store

end NameHunt
