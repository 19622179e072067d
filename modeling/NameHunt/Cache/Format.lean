import NameHunt.Cache.Basic

/-!
# Caches as bytes

The four letters DSBM, the version 1, the capacity in eight bytes with the lowest first, then the
bits.

* `Cache.encode`: the bytes of a cache.
* `Corruption`: why bytes are no cache.
* `Cache.decode`: the cache of some bytes.
-/

namespace NameHunt

/-- The letters in front. -/
def Cache.magic : List UInt8 := [0x44, 0x53, 0x42, 0x4D]

/-- The version of the format. -/
def Cache.version : UInt8 := 1

/-- How many bytes stand before the bits. -/
def Cache.headerSize : Nat := 13

/-- A number in eight bytes, the lowest first. -/
def littleEndian (n : Nat) : List UInt8 :=
  (List.range 8).map fun i => UInt8.ofNat (n >>> (8 * i))

/-- The number of some bytes, the lowest first. -/
def ofLittleEndian : List UInt8 → Nat
  | [] => 0
  | byte :: rest => byte.toNat + 256 * ofLittleEndian rest

/-- Why bytes are no cache. -/
inductive Corruption where
  | shortHeader (found : Nat)
  | noMagic
  | unknownVersion (version : Nat)
  | zeroCapacity
  | wrongSize (capacity found : Nat)
  | paddingSet (capacity : Nat)
  deriving Repr, DecidableEq

namespace Corruption

/-- The fault in words. -/
def reason : Corruption → String
  | shortHeader found =>
    "expected at least " ++ toString Cache.headerSize ++ " header bytes, found " ++ toString found
  | noMagic => "missing DSBM magic"
  | unknownVersion version => "unsupported format version " ++ toString version
  | zeroCapacity => "capacity must be positive"
  | wrongSize capacity found =>
    "capacity " ++ toString capacity ++ " does not match " ++ toString found ++ " bit bytes"
  | paddingSet capacity => "padding bits set past capacity " ++ toString capacity

def error (c : Corruption) : Error :=
  .corruptState c.reason

end Corruption

namespace Cache

/-- The bytes of a cache. -/
def encode (c : Cache) : Bytes :=
  (magic ++ version :: littleEndian c.capacity).toArray ++ c.bytes

/-- Whether a bit beyond the capacity is set in the last byte. -/
def paddingIsSet (capacity : Nat) (bits : Bytes) : Bool :=
  match bits.back? with
  | some last => capacity % 8 != 0 && last.toNat >>> (capacity % 8) != 0
  | none => false

/-- With as many bytes as the capacity needs and no padding set, no bit beyond the capacity is. -/
theorem clear_of_padding {capacity : Nat} {bits : Bytes} (hsize : bits.size = (capacity + 7) / 8)
    (hpadding : paddingIsSet capacity bits = false) (i : Nat) (hi : capacity ≤ i) :
    Bits.get bits i = false := by
  by_cases hbyte : bits.size ≤ i / 8
  · exact Bits.get_of_size_le hbyte
  · have hused : capacity % 8 ≠ 0 := by omega
    have hlast : i / 8 = bits.size - 1 := by omega
    have hlt : i / 8 < bits.size := Nat.lt_of_not_le hbyte
    have hback : bits.back? = some bits[i / 8] := by
      rw [Array.back?_eq_getElem?, ← hlast]
      exact Array.getElem?_eq_getElem hlt
    have hshift : bits[i / 8].toNat >>> (capacity % 8) = 0 := by
      simpa [paddingIsSet, hback, hused] using hpadding
    have hbit : i % 8 = capacity % 8 + (i % 8 - capacity % 8) := by omega
    simp only [Bits.get, Array.getElem?_eq_getElem hlt]
    rw [hbit, ← Nat.testBit_shiftRight, hshift, Nat.zero_testBit]

/-- The cache of a capacity and its bytes, faults of the capacity first. -/
def ofParts (capacity : Nat) (bits : Bytes) : Except Corruption Cache :=
  if hpos : 0 < capacity then
    if h : capacity ≤ Text.max64 ∧ bits.size = (capacity + 7) / 8 then
      if hpadding : paddingIsSet capacity bits = true then .error (.paddingSet capacity)
      else
        .ok
          { capacity
            bytes := bits
            capacity_pos := hpos
            capacity_le := h.1
            size_bytes := h.2
            clear_beyond := clear_of_padding h.2 (by simpa using hpadding) }
    else .error (.wrongSize capacity bits.size)
  else .error .zeroCapacity

/-- The cache of some bytes, or the first fault from front to back. -/
def decode (bytes : Bytes) : Except Corruption Cache :=
  let header := (bytes.extract 0 headerSize).toList
  if header.length < headerSize then .error (.shortHeader bytes.size)
  else if header.take 4 ≠ magic then .error .noMagic
  else
    match header.drop 4 with
    | [] => .error (.shortHeader bytes.size)
    | number :: capacity =>
      if number ≠ version then .error (.unknownVersion number.toNat)
      else ofParts (ofLittleEndian capacity) (bytes.extract headerSize bytes.size)

end Cache

end NameHunt
