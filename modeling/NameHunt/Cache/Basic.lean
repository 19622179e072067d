import NameHunt.Cache.Bits
import NameHunt.Cache.Hash
import NameHunt.Error
import NameHunt.Text.Number

/-!
# The membership cache

A set of texts of which only one bit each is kept. Every text has one slot; two texts of the same
slot cannot be told apart, so a text that was never inserted may be found, but one that was is never
missed.

* `Cache`: the capacity and the bits, none of them set beyond the capacity.
* `Cache.fresh`: the empty cache of a capacity.
* `Cache.slot`, `Cache.insert`, `Cache.test`: the slot of a text, setting it, and asking for it.
* `Cache.bitsSet`, `Cache.slots`: the number and the list of the slots that are set.
* `Cache.isSet_insert`: inserting sets one slot.
-/

namespace NameHunt

/-- A row of `capacity` bits. -/
structure Cache where
  capacity : Nat
  bytes : Bytes
  capacity_pos : 0 < capacity
  capacity_le : capacity ≤ Text.max64
  size_bytes : bytes.size = (capacity + 7) / 8
  clear_beyond : ∀ i, capacity ≤ i → Bits.get bytes i = false
  deriving DecidableEq

namespace Cache

/-- How many bytes hold a number of bits. -/
def byteCount (capacity : Nat) : Nat :=
  (capacity + 7) / 8

/-- An empty cache. -/
def fresh (capacity : Nat) : Except Error Cache :=
  if hpos : 0 < capacity then
    if hle : capacity ≤ Text.max64 then
      .ok
        { capacity
          bytes := Array.replicate (byteCount capacity) 0
          capacity_pos := hpos
          capacity_le := hle
          size_bytes := by simp [byteCount]
          clear_beyond := fun i _ => Bits.get_replicate _ i }
    else .error (.config ("Cache capacity " ++ toString capacity ++ " is too large"))
  else .error (.config "Cache capacity must be greater than zero")

/-- The slot of a text: the hash without its sign, modulo the capacity. -/
def slot (c : Cache) (s : String) : Nat :=
  (hash s).natAbs % c.capacity

theorem slot_lt (c : Cache) (s : String) : c.slot s < c.capacity :=
  Nat.mod_lt _ c.capacity_pos

/-- Whether a slot is set. -/
def isSet (c : Cache) (i : Nat) : Bool :=
  Bits.get c.bytes i

/-- The cache with one more slot. -/
def set (c : Cache) (i : Nat) (h : i < c.capacity) : Cache where
  capacity := c.capacity
  bytes := Bits.set c.bytes i
  capacity_pos := c.capacity_pos
  capacity_le := c.capacity_le
  size_bytes := by rw [Bits.size_set, c.size_bytes]
  clear_beyond := fun j hj => by
    have hne : i ≠ j := by omega
    simp [Bits.get_set, hne, c.clear_beyond j hj]

/-- The cache with one more text. -/
def insert (c : Cache) (s : String) : Cache :=
  c.set (c.slot s) (c.slot_lt s)

/-- Whether the slot of a text is set. -/
def test (c : Cache) (s : String) : Bool :=
  c.isSet (c.slot s)

/-- How many slots are set. -/
def bitsSet (c : Cache) : Nat :=
  Bits.count c.bytes

/-- The slots that are set, in ascending order. -/
def slots (c : Cache) : List Nat :=
  (List.range c.capacity).filter c.isSet

@[simp] theorem capacity_insert (c : Cache) (s : String) : (c.insert s).capacity = c.capacity := rfl

/-- Setting a slot sets it and no other. -/
theorem isSet_set (c : Cache) (i j : Nat) (h : i < c.capacity) :
    (c.set i h).isSet j = (c.isSet j || decide (i = j)) := by
  have hbyte : i / 8 < c.bytes.size := by
    rw [c.size_bytes]
    omega
  simp [isSet, set, Bits.get_set, hbyte]

/-- Inserting a text sets its slot and no other. -/
theorem isSet_insert (c : Cache) (s : String) (i : Nat) :
    (c.insert s).isSet i = (c.isSet i || decide (c.slot s = i)) :=
  c.isSet_set _ _ _

/-- A text is found after another was inserted if it was found before or shares its slot. -/
theorem test_insert (c : Cache) (s t : String) :
    (c.insert s).test t = (c.test t || decide (c.slot s = c.slot t)) :=
  c.isSet_insert s (c.slot t)

end Cache

end NameHunt
