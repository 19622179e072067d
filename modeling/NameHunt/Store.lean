import NameHunt.Cache.Format
import NameHunt.FileSystem.Change

/-!
# Caches on disk

* `Store`: the path of a cache file.
* `Store.load`: the cache in the file, if there is a file.
* `Store.loadOrFresh`: the same, with an empty cache for a file that is missing or corrupt.
* `Store.changes`, `Store.save`: the bytes go to a second file first, which then takes the place of
  the cache file, so that a file which was there before stays whole until the new one is whole.
-/

namespace NameHunt

/-- Where a cache is kept. -/
structure Store where
  path : String
  deriving Repr, DecidableEq

namespace Store

/-- The second file. -/
def temporary (store : Store) : String :=
  store.path ++ ".tmp"

def readFault (store : Store) (fault : Fault) : Error :=
  .file store.path ("Failed to read cache: " ++ fault.reason)

def writeFault (store : Store) (fault : Fault) : Error :=
  .file store.path ("Failed to write cache: " ++ fault.reason)

/-- The cache in the file. A missing file is no fault. -/
def load (store : Store) (fs : FileSystem) : Except Error (Option Cache) :=
  match fs.read store.path with
  | .error .notFound => .ok none
  | .error fault => .error (store.readFault fault)
  | .ok bytes =>
    match Cache.decode bytes with
    | .ok cache => .ok (some cache)
    | .error corruption => .error corruption.error

/-- The cache in the file, with its own capacity; an empty cache of the given capacity if the file
is missing or corrupt. -/
def loadOrFresh (store : Store) (capacity : Nat) (fs : FileSystem) : Except Error Cache :=
  match store.load fs with
  | .ok (some cache) => .ok cache
  | .ok none => Cache.fresh capacity
  | .error (.corruptState _) => Cache.fresh capacity
  | .error error => .error error

/-- The steps of saving. -/
def changes (store : Store) (cache : Cache) : List Change :=
  ensureParents store.path ++
    [.write store.temporary cache.encode, .rename store.temporary store.path]

/-- Saves a cache. A failure leaves the steps done that came before it. -/
def save (store : Store) (cache : Cache) (fs : FileSystem) : FileSystem × Option Error :=
  let (fs, fault) := fs.run (store.changes cache)
  (fs, fault.map store.writeFault)

end Store

end NameHunt
