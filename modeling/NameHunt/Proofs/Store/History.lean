import NameHunt.Proofs.Cache.Slots
import NameHunt.Proofs.Store.Saving

/-!
# A store remembers one cache

Whatever is done with a store, after a cache was saved it is what the store gives back, until
another one is saved. Attempts to save that fail or are broken off, and changes of the tree that
leave the file alone, are no exception.

* `Store.Opens`: what opening gives, by what the file holds.
* `Store.opens`: it gives that in every tree.
* `Deed`, `Desk.Does`: what is done with a store and the cache at hand, one thing at a time.
* `History`: any number of them from any tree, with the answers.
* `lastSaved`: the cache that was saved last.
* `History.read_of_lastSaved`: the file holds it.
* `History.recalls`: all that a store answers is about the cache that was saved last.
-/

namespace NameHunt

open FileSystem

namespace Store

variable {store : Store} {fs fs' : FileSystem} {cache : Cache}

/-! ### What opening gives -/

/-- There is no file, or its bytes are no cache. -/
def Lacks (store : Store) (fs : FileSystem) : Prop :=
  fs.read store.path = .error .notFound ∨
    ∃ bytes corruption, fs.read store.path = .ok bytes ∧ Cache.decode bytes = .error corruption

/-- What opening gives, by what the file holds. -/
structure Opens (store : Store) (fs : FileSystem) : Prop where
  /-- A cache in the file is given with its own capacity. -/
  kept : ∀ capacity bytes cache, fs.read store.path = .ok bytes → Cache.decode bytes = .ok cache →
    store.loadOrFresh capacity fs = .ok cache
  /-- A file that cannot be read is an error. -/
  fault : ∀ capacity fault, fs.read store.path = .error fault → fault ≠ .notFound →
    store.loadOrFresh capacity fs = .error (store.readFault fault)
  fresh : ∀ capacity, store.Lacks fs → store.loadOrFresh capacity fs = Cache.fresh capacity
  /-- A cache that does not come from the file is an empty one, and there was none in the file. -/
  origin : ∀ capacity cache, store.loadOrFresh capacity fs = .ok cache →
    (∃ bytes, fs.read store.path = .ok bytes ∧ Cache.decode bytes = .ok cache) ∨
      store.Lacks fs ∧ cache.capacity = capacity ∧ cache.bitsSet = 0

theorem opens (store : Store) (fs : FileSystem) : Opens store fs := by
  have kept : ∀ capacity bytes cache, fs.read store.path = .ok bytes →
      Cache.decode bytes = .ok cache → store.loadOrFresh capacity fs = .ok cache := by
    intro capacity bytes cache hread hdecode
    simp only [loadOrFresh, load, hread, hdecode]
  have fault : ∀ capacity fault, fs.read store.path = .error fault → fault ≠ .notFound →
      store.loadOrFresh capacity fs = .error (store.readFault fault) := by
    intro capacity fault hread hne
    have hload : store.load fs = .error (store.readFault fault) := by
      unfold load
      rw [hread]
      cases fault with
      | notFound => exact absurd rfl hne
      | _ => rfl
    rw [loadOrFresh, hload]
    rfl
  have fresh : ∀ capacity, store.Lacks fs →
      store.loadOrFresh capacity fs = Cache.fresh capacity := by
    rintro capacity (hread | ⟨bytes, corruption, hread, hdecode⟩)
    · simp only [loadOrFresh, load, hread]
    · simp only [loadOrFresh, load, hread, hdecode, Corruption.error]
  refine ⟨kept, fault, fresh, ?_⟩
  intro capacity cache hopen
  cases hread : fs.read store.path with
  | ok bytes =>
    cases hdecode : Cache.decode bytes with
    | ok held =>
      rw [kept capacity bytes held hread hdecode] at hopen
      cases hopen
      exact .inl ⟨bytes, rfl, hdecode⟩
    | error corruption =>
      have hlacks : store.Lacks fs := .inr ⟨bytes, corruption, hread, hdecode⟩
      rw [fresh capacity hlacks] at hopen
      obtain ⟨hcapacity, -, hbits⟩ := Cache.empty_of_fresh hopen
      exact .inr ⟨hlacks, hcapacity, hbits⟩
  | error found =>
    by_cases hmissing : found = .notFound
    · have hlacks : store.Lacks fs := .inl (by rw [hread, hmissing])
      rw [fresh capacity hlacks] at hopen
      obtain ⟨hcapacity, -, hbits⟩ := Cache.empty_of_fresh hopen
      exact .inr ⟨hlacks, hcapacity, hbits⟩
    · rw [fault capacity found hread hmissing] at hopen
      cases hopen

end Store

/-! ### What is done with a store -/

/-- One thing that is done with a store, with the answer. -/
inductive Deed where
  /-- An empty cache is made. -/
  | made (capacity : Nat) (answer : Except Error Cache)
  /-- Another cache is taken up. -/
  | took (cache : Cache)
  | inserted (text : String)
  | loaded (answer : Except Error (Option Cache))
  | opened (capacity : Nat) (answer : Except Error Cache)
  | saved (cache : Cache)
  /-- Saving ended with an error. -/
  | failed (error : Error)
  /-- Saving came to a stop before the cache was in place. -/
  | brokenOff
  /-- Something changed that does not concern the file. -/
  | elsewhere

/-- The cache that was saved. -/
def Deed.saved? : Deed → Option Cache
  | saved cache => some cache
  | _ => none

/-- The cache that was saved last. -/
def lastSaved (deeds : List Deed) : Option Cache :=
  (deeds.filterMap Deed.saved?).getLast?

theorem lastSaved_concat (deeds : List Deed) (deed : Deed) :
    lastSaved (deeds ++ [deed]) = deed.saved?.or (lastSaved deeds) := by
  unfold lastSaved
  rw [List.filterMap_append, List.getLast?_append, List.filterMap_cons]
  cases deed.saved? <;> rfl

/-- The tree and the cache at hand. -/
structure Desk where
  fs : FileSystem
  cache : Cache

namespace Desk

/-- A cache that was given is the one at hand from now on. -/
def take (desk : Desk) (answer : Option Cache) : Desk :=
  { desk with cache := answer.getD desk.cache }

@[simp] theorem fs_take (desk : Desk) (answer : Option Cache) : (desk.take answer).fs = desk.fs :=
  rfl

/-- One thing is done. -/
inductive Does (store : Store) (desk : Desk) : Deed → Desk → Prop
  | made (capacity : Nat) :
      Does store desk (.made capacity (Cache.fresh capacity))
        (desk.take (Cache.fresh capacity).toOption)
  | took (cache : Cache) : Does store desk (.took cache) (desk.take (some cache))
  | inserted (text : String) :
      Does store desk (.inserted text) { desk with cache := desk.cache.insert text }
  | loaded :
      Does store desk (.loaded (store.load desk.fs)) (desk.take (store.load desk.fs).toOption.join)
  | opened (capacity : Nat) :
      Does store desk (.opened capacity (store.loadOrFresh capacity desk.fs))
        (desk.take (store.loadOrFresh capacity desk.fs).toOption)
  | saved {fs' : FileSystem} (hsave : store.save desk.cache desk.fs = (fs', none)) :
      Does store desk (.saved desk.cache) { desk with fs := fs' }
  | failed {fs' : FileSystem} {error : Error}
      (hsave : store.save desk.cache desk.fs = (fs', some error)) :
      Does store desk (.failed error) { desk with fs := fs' }
  | brokenOff {fs' : FileSystem} (hsaving : store.Saving desk.cache desk.fs false fs') :
      Does store desk .brokenOff { desk with fs := fs' }
  | elsewhere {fs' : FileSystem} (hread : fs'.read store.path = desk.fs.read store.path) :
      Does store desk .elsewhere { desk with fs := fs' }

end Desk

/-- Any number of things are done one after the other. -/
inductive History (store : Store) (start : Desk) : List Deed → Desk → Prop
  | nil : History store start [] start
  | snoc {deeds : List Deed} {deed : Deed} {desk desk' : Desk} :
      History store start deeds desk → desk.Does store deed desk' →
        History store start (deeds ++ [deed]) desk'

namespace Desk

variable {store : Store} {desk desk' : Desk} {deed : Deed} {held : Cache}

/-- Nothing but saving another cache changes the file once there is one. -/
theorem Does.read_eq (h : desk.Does store deed desk')
    (hheld : desk.fs.read store.path = .ok held.encode) :
    desk'.fs.read store.path = .ok (deed.saved?.getD held).encode := by
  cases h with
  | saved hsave => exact (Store.saving_of_save hsave).read_done
  | failed hsave => exact (Store.saving_of_save hsave).read_of_read hheld
  | brokenOff hsaving => exact hsaving.read_of_read hheld
  | elsewhere hread => exact hread.trans hheld
  | _ => exact hheld

/-- What was saved is in the file, and the second file is gone. -/
theorem Does.saved_read {cache : Cache} (h : desk.Does store (.saved cache) desk') :
    desk'.fs.read store.path = .ok cache.encode ∧
      desk'.fs.find store.temporary = .error .notFound := by
  cases h with
  | saved hsave =>
    have hsaving := Store.saving_of_save hsave
    exact ⟨hsaving.read_done, hsaving.find_temporary⟩

end Desk

namespace History

variable {store : Store} {start desk : Desk} {deeds : List Deed}

/-- The file holds the cache that was saved last. -/
theorem read_of_lastSaved (h : History store start deeds desk) {held : Cache}
    (hlast : lastSaved deeds = some held) : desk.fs.read store.path = .ok held.encode := by
  induction h generalizing held with
  | nil => cases hlast
  | @snoc deeds deed desk desk' hhistory hdoes ih =>
    rw [lastSaved_concat] at hlast
    cases hsaved : deed.saved? with
    | none =>
      rw [hsaved, Option.none_or] at hlast
      have hread := hdoes.read_eq (ih hlast)
      rwa [hsaved] at hread
    | some cache =>
      rw [hsaved, Option.some_or] at hlast
      cases hlast
      obtain rfl : deed = .saved held := by
        cases deed with
        | saved cache =>
          cases hsaved
          rfl
        | _ => cases hsaved
      exact hdoes.saved_read.1

/-- A history up to one of its deeds. -/
theorem exists_does (h : History store start deeds desk) {front rest : List Deed} {deed : Deed}
    (hdeeds : deeds = front ++ deed :: rest) :
    ∃ before after, History store start front before ∧ before.Does store deed after ∧
      (rest = [] → after = desk) := by
  induction h generalizing rest with
  | nil => exact absurd hdeeds.symm (by simp)
  | @snoc deeds last desk desk' hhistory hdoes ih =>
    obtain rfl | ⟨rest, final, rfl⟩ := rest.eq_nil_or_concat'
    · obtain ⟨rfl, hlast⟩ := List.append_inj' hdeeds rfl
      obtain rfl := List.singleton_inj.1 hlast
      exact ⟨desk, desk', hhistory, hdoes, fun _ => rfl⟩
    · rw [← List.cons_append, ← List.append_assoc] at hdeeds
      obtain ⟨before, after, hbefore, hdoes', -⟩ := ih (List.append_inj' hdeeds rfl).1
      exact ⟨before, after, hbefore, hdoes', fun hnil => absurd hnil (by simp)⟩

end History

/-- All that a store answers is about the cache that was saved last. -/
structure Recalls (store : Store) (deeds : List Deed) (fs : FileSystem) : Prop where
  /-- It is loaded and opened now, whatever capacity is asked for. -/
  now : ∀ cache, lastSaved deeds = some cache → store.load fs = .ok (some cache) ∧
    ∀ capacity, store.loadOrFresh capacity fs = .ok cache
  /-- It was given whenever the store was asked after it had been saved. -/
  loaded : ∀ front answer rest, deeds = front ++ .loaded answer :: rest →
    ∀ cache, lastSaved front = some cache → answer = .ok (some cache)
  opened : ∀ front capacity answer rest, deeds = front ++ .opened capacity answer :: rest →
    ∀ cache, lastSaved front = some cache → answer = .ok cache
  /-- There is no second file right after saving. -/
  temporary : ∀ front cache, deeds = front ++ [.saved cache] →
    fs.find store.temporary = .error .notFound
  /-- A cache in the file or a fault of the file is never passed over for an empty cache. -/
  opens : ∀ tree, store.Opens tree

/-- From any tree, whatever is done with a store, it remembers the cache that was saved last. -/
theorem History.recalls {store : Store} {start desk : Desk} {deeds : List Deed}
    (h : History store start deeds desk) : Recalls store deeds desk.fs where
  now := by
    intro cache hlast
    have hread := h.read_of_lastSaved hlast
    exact ⟨Store.load_of_encode hread, fun capacity =>
      (store.opens desk.fs).kept capacity _ cache hread cache.decode_encode⟩
  loaded := by
    intro front answer rest hdeeds cache hlast
    obtain ⟨before, after, hbefore, hdoes, -⟩ := h.exists_does hdeeds
    cases hdoes with
    | loaded => exact Store.load_of_encode (hbefore.read_of_lastSaved hlast)
  opened := by
    intro front capacity answer rest hdeeds cache hlast
    obtain ⟨before, after, hbefore, hdoes, -⟩ := h.exists_does hdeeds
    cases hdoes with
    | opened =>
      exact (store.opens before.fs).kept capacity _ cache (hbefore.read_of_lastSaved hlast)
        cache.decode_encode
  temporary := by
    intro front cache hdeeds
    obtain ⟨before, after, -, hdoes, hnow⟩ := h.exists_does hdeeds
    rw [← hnow rfl]
    exact hdoes.saved_read.2
  opens := store.opens

/-- A file in the current directory. -/
def Store.plain : Store := ⟨"c"⟩

/-- Nothing keeps a cache from being saved in an empty tree. -/
theorem Store.save_empty (cache : Cache) : (plain.save cache FileSystem.empty).2 = none := by
  have habove : ensureParents plain.path = [] := by cbv
  have hwrite : FileSystem.empty.apply (.write plain.temporary cache.encode) =
      .ok (FileSystem.empty.put ["c.tmp"] (.file cache.encode)) := rfl
  have hrename : (FileSystem.empty.put ["c.tmp"] (.file cache.encode)).apply
      (.rename plain.temporary plain.path) =
        .ok (((FileSystem.empty.put ["c.tmp"] (.file cache.encode)).erase ["c.tmp"]).put ["c"]
          (.file cache.encode)) := rfl
  simp only [save, changes, habove, List.nil_append, run, hwrite, hrename, Option.map_none]

/-- A cache is saved, a text is inserted, and the cache without it is opened. -/
theorem recalls_oneFree :
    ∃ answer desk, History .plain ⟨.empty, Store.oneFree⟩
        [.saved Store.oneFree, .inserted "a", .opened 7 answer] desk ∧
      answer = .ok Store.oneFree ∧ Store.plain.load desk.fs = .ok (some Store.oneFree) := by
  have hsave : Store.plain.save Store.oneFree .empty =
      ((Store.plain.save Store.oneFree .empty).1, none) :=
    Prod.ext rfl (Store.save_empty Store.oneFree)
  have hsaved : Desk.Does .plain ⟨.empty, Store.oneFree⟩ (.saved Store.oneFree) _ := .saved hsave
  have hhistory := ((History.nil.snoc hsaved).snoc (.inserted "a")).snoc (.opened 7)
  have hrecalls := hhistory.recalls
  exact ⟨_, _, hhistory, hrecalls.opened [.saved Store.oneFree, .inserted "a"] 7 _ [] rfl _ rfl,
    (hrecalls.now _ rfl).1⟩

end NameHunt
