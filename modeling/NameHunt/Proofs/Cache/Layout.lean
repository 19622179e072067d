import NameHunt.Proofs.Cache.Format

/-!
# Which bytes are caches

The bytes of caches have a layout of their own. All bytes of this layout are read, each as the one
cache that is written as these bytes, and all others are refused.

* `Cache.Layout`, `Cache.Accepted`: the layout, said without writing or reading a cache.
* `Cache.decodeChecked`: reading where every access to the bytes may fail.
* `littleEndian_ofLittleEndian`: eight bytes are written again as they were read.
* `Cache.accepted_iff`: what is written has the layout, and nothing else has it.
* `Cache.encode_of_decode`: what was read is written again as it was.
* `Cache.encode_bijOn_accepted`: caches and bytes of the layout correspond to each other.
-/

namespace NameHunt

/-! ### Numbers in bytes -/

theorem shifts_ofLittleEndian (bytes : List UInt8) :
    ((List.range bytes.length).map fun i => UInt8.ofNat (ofLittleEndian bytes >>> (8 * i))) =
      bytes := by
  induction bytes with
  | nil => rfl
  | cons byte rest ih =>
    have hlt : byte.toNat < 256 := byte.toNat_lt
    have hfirst : UInt8.ofNat (byte.toNat + 256 * ofLittleEndian rest) = byte := by
      apply UInt8.toNat_inj.1
      rw [UInt8.toNat_ofNat']
      omega
    have hrest : (byte.toNat + 256 * ofLittleEndian rest) / 256 = ofLittleEndian rest := by omega
    rw [List.length_cons, shifts_succ, ofLittleEndian, hfirst, hrest, ih]

/-- Eight bytes are written again as they were read. -/
theorem littleEndian_ofLittleEndian {bytes : List UInt8} (h : bytes.length = 8) :
    littleEndian (ofLittleEndian bytes) = bytes := by
  have hall := shifts_ofLittleEndian bytes
  rwa [h] at hall

theorem ofLittleEndian_lt (bytes : List UInt8) : ofLittleEndian bytes < 256 ^ bytes.length := by
  induction bytes with
  | nil => simp [ofLittleEndian]
  | cons byte rest ih =>
    have hlt : byte.toNat < 256 := byte.toNat_lt
    rw [ofLittleEndian, List.length_cons, Nat.pow_succ]
    omega

/-- The bytes are the digits of the number with base 256. -/
theorem ofLittleEndian_eq_ofDigits (bytes : List UInt8) :
    ofLittleEndian bytes = Nat.ofDigits 256 (bytes.map UInt8.toNat) := by
  induction bytes with
  | nil => rfl
  | cons byte rest ih => rw [ofLittleEndian, List.map_cons, Nat.ofDigits_cons, ih]

namespace Cache

/-! ### The layout -/

/-- The letters DSBM, the version 1, the capacity in eight digits with base 256, lowest first, and
the bits in as many bytes as they need, with none set beyond the capacity. -/
structure Layout (bytes : Bytes) (digits : List UInt8) (capacity : Nat) (bits : Bytes) : Prop where
  bytes_eq : bytes =
    (['D', 'S', 'B', 'M'].map (fun c => UInt8.ofNat c.toNat) ++ 1 :: digits).toArray ++ bits
  length_digits : digits.length = 8
  capacity_eq : capacity = Nat.ofDigits 256 (digits.map UInt8.toNat)
  capacity_pos : 0 < capacity
  size_bits : bits.size = capacity ⌈/⌉ 8
  clear_beyond : ∀ i, capacity ≤ i → Bits.get bits i = false

/-- Bytes of the layout. -/
def Accepted (bytes : Bytes) : Prop :=
  ∃ digits capacity bits, Layout bytes digits capacity bits

theorem ceilDiv_eight (n : Nat) : n ⌈/⌉ 8 = (n + 7) / 8 :=
  Nat.ceilDiv_eq_add_pred_div n 8

theorem layout_encode (c : Cache) :
    Layout c.encode (littleEndian c.capacity) c.capacity c.bytes where
  bytes_eq := rfl
  length_digits := length_littleEndian _
  capacity_eq := by
    rw [← ofLittleEndian_eq_ofDigits, ofLittleEndian_littleEndian c.capacity_le]
  capacity_pos := c.capacity_pos
  size_bits := by rw [c.size_bytes, ceilDiv_eight]
  clear_beyond := c.clear_beyond

/-- The parts of a layout make a cache. Eight digits are no more than 64 bits. -/
theorem Layout.exists_encode_eq {bytes bits : Bytes} {digits : List UInt8} {capacity : Nat}
    (h : Layout bytes digits capacity bits) : ∃ c : Cache, c.encode = bytes := by
  have hcapacity : capacity = ofLittleEndian digits := by
    rw [h.capacity_eq, ofLittleEndian_eq_ofDigits]
  have hle : capacity ≤ Text.max64 := by
    have hlt := ofLittleEndian_lt digits
    rw [← hcapacity, h.length_digits] at hlt
    exact Nat.le_of_lt_succ hlt
  refine ⟨{ capacity
            bytes := bits
            capacity_pos := h.capacity_pos
            capacity_le := hle
            size_bytes := by rw [h.size_bits, ceilDiv_eight]
            clear_beyond := h.clear_beyond }, Eq.trans ?_ h.bytes_eq.symm⟩
  simp only [encode, hcapacity, littleEndian_ofLittleEndian h.length_digits]
  rfl

/-- The bytes of caches have the layout, and no others do. -/
theorem accepted_iff {bytes : Bytes} : Accepted bytes ↔ ∃ c : Cache, c.encode = bytes := by
  constructor
  · rintro ⟨digits, capacity, bits, h⟩
    exact h.exists_encode_eq
  · rintro ⟨c, rfl⟩
    exact ⟨_, _, _, c.layout_encode⟩

/-! ### Reading -/

theorem eq_of_ofParts {capacity : Nat} {bits : Bytes} {c : Cache}
    (h : ofParts capacity bits = .ok c) : c.capacity = capacity ∧ c.bytes = bits := by
  unfold ofParts at h
  split at h
  · split at h
    · split at h
      · cases h
      · obtain rfl := Except.ok.inj h
        exact ⟨rfl, rfl⟩
    · cases h
  · cases h

/-- What was read is written again as it was. -/
theorem encode_of_decode {bytes : Bytes} {c : Cache} (h : decode bytes = .ok c) :
    c.encode = bytes := by
  simp only [decode] at h
  split at h
  · cases h
  · rename_i hlong
    split at h
    · cases h
    · rename_i hmagic
      split at h
      · cases h
      · rename_i number digits hdrop
        split at h
        · cases h
        · rename_i hversion
          obtain ⟨hcapacity, hbits⟩ := eq_of_ofParts h
          have hheader : (bytes.extract 0 headerSize).toList = magic ++ version :: digits := by
            rw [← not_not.1 hversion, ← hdrop, ← not_not.1 hmagic, List.take_append_drop]
          have hlength : digits.length = 8 := by
            have hall := congrArg List.length hheader
            simp only [magic, headerSize, Array.length_toList, Array.size_extract,
              List.length_append, List.length_cons, List.length_nil] at hall hlong
            omega
          rw [encode, hcapacity, hbits, littleEndian_ofLittleEndian hlength, ← hheader,
            Array.toArray_toList, Array.extract_append_extract]
          simp

theorem decode_eq_ok_iff {bytes : Bytes} {c : Cache} :
    decode bytes = .ok c ↔ c.encode = bytes := by
  constructor
  · exact encode_of_decode
  · rintro rfl
    exact c.decode_encode

/-! ### Reading with checks -/

/-- The bytes from one place up to another, if both are places of the bytes. -/
def slice? (bytes : Bytes) (first past : Nat) : Option Bytes :=
  if first ≤ past ∧ past ≤ bytes.size then some (bytes.extract first past) else none

theorem slice?_eq_some {bytes : Bytes} {first past : Nat} (h : first ≤ past)
    (h' : past ≤ bytes.size) : slice? bytes first past = some (bytes.extract first past) :=
  if_pos ⟨h, h'⟩

/-- Reading that fails altogether where it looks for bytes that are not there. -/
def decodeChecked (bytes : Bytes) : Option (Except Corruption Cache) :=
  if bytes.size < headerSize then some (.error (.shortHeader bytes.size))
  else do
    let letters ← slice? bytes 0 4
    if letters.toList ≠ magic then return .error .noMagic
    let number ← bytes[4]?
    if number ≠ version then return .error (.unknownVersion number.toNat)
    let digits ← slice? bytes 5 headerSize
    guard (digits.size = 8)
    let bits ← slice? bytes headerSize bytes.size
    return ofParts (ofLittleEndian digits.toList) bits

/-- The header in its three pieces. -/
theorem header_eq {bytes : Bytes} (h : 4 < bytes.size) :
    (bytes.extract 0 headerSize).toList.take 4 = (bytes.extract 0 4).toList ∧
      (bytes.extract 0 headerSize).toList.drop 4 =
        bytes[4] :: (bytes.extract 5 headerSize).toList := by
  have hlength : 4 < bytes.toList.length := h
  constructor
  · simp [headerSize, List.take_take]
  · simp [headerSize, List.drop_take, List.drop_eq_getElem_cons hlength]

/-- Reading looks for no bytes that are not there. -/
theorem decodeChecked_eq (bytes : Bytes) : decodeChecked bytes = some (decode bytes) := by
  by_cases hshort : bytes.size < headerSize
  · have hheader : (bytes.extract 0 headerSize).toList.length < headerSize := by simpa using hshort
    simp only [decodeChecked, decode, if_pos hshort, if_pos hheader]
  · have hsize : headerSize ≤ bytes.size := Nat.le_of_not_lt hshort
    have hfour : 4 < bytes.size := Nat.lt_of_lt_of_le (by decide) hsize
    have hheader : ¬ (bytes.extract 0 headerSize).toList.length < headerSize := by
      simpa using hshort
    have hdigits : (bytes.extract 5 headerSize).size = 8 := by
      rw [Array.size_extract, Nat.min_eq_left hsize]
      rfl
    obtain ⟨hletters, hrest⟩ := header_eq hfour
    simp only [decodeChecked, decode, if_neg hshort, if_neg hheader, hletters, hrest]
    rw [slice?_eq_some (Nat.zero_le 4) (Nat.le_of_lt hfour),
      slice?_eq_some (show 5 ≤ headerSize by decide) hsize, slice?_eq_some hsize le_rfl]
    simp only [Option.bind_eq_bind, Option.bind_some, Array.getElem?_eq_getElem hfour, hdigits]
    split
    · rfl
    · split <;> rfl

/-- Every fault is told as a corrupt state. -/
theorem mapError_decode (bytes : Bytes) :
    (∃ reason, (decode bytes).mapError Corruption.error = .error (.corruptState reason)) ↔
      ¬ ∃ c, decode bytes = .ok c := by
  cases decode bytes with
  | ok c => simp [Except.mapError]
  | error fault => simp [Except.mapError, Corruption.error]

/-- Caches and bytes of the layout correspond to each other. Every cache is read back from its
bytes. Any bytes can be read without looking beyond them: they are a cache if they have the layout,
which is then written as these same bytes, and are told to be corrupt otherwise. -/
theorem encode_bijOn_accepted :
    Set.BijOn encode Set.univ {bytes | Accepted bytes} ∧
      (∀ c : Cache, decode c.encode = .ok c) ∧
      ∀ bytes : Bytes,
        decodeChecked bytes = some (decode bytes) ∧
          ((∃ c, decode bytes = .ok c) ↔ Accepted bytes) ∧
          ((∃ reason, (decode bytes).mapError Corruption.error = .error (.corruptState reason)) ↔
            ¬ Accepted bytes) ∧
          ∀ c, decode bytes = .ok c → c.encode = bytes := by
  have hread : ∀ bytes : Bytes, (∃ c, decode bytes = .ok c) ↔ Accepted bytes := fun bytes => by
    simp only [decode_eq_ok_iff, accepted_iff]
  refine ⟨⟨?_, ?_, ?_⟩, decode_encode, fun bytes => ⟨decodeChecked_eq bytes, hread bytes, ?_, ?_⟩⟩
  · exact fun c _ => accepted_iff.2 ⟨c, rfl⟩
  · intro c _ c' _ hsame
    exact Except.ok.inj (c.decode_encode.symm.trans (decode_eq_ok_iff.2 hsame.symm))
  · intro bytes haccepted
    obtain ⟨c, hc⟩ := accepted_iff.1 haccepted
    exact ⟨c, trivial, hc⟩
  · rw [← hread bytes]
    exact mapError_decode bytes
  · exact fun c hc => encode_of_decode hc

end Cache

end NameHunt
