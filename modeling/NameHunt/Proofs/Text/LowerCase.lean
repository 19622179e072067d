import Mathlib
import NameHunt.Text.LowerCase

/-!
# What lower-casing makes ASCII

Only two characters outside ASCII have ASCII in their small form: the capital I with a dot (a small
i and a combining dot) and the sign of the kelvin (a small k). Every other ASCII character of a
lower-cased text is the small form of an ASCII character, and since no character vanishes, a text
whose small form holds no others was ASCII as a whole.

* `Native`, `eq_of_mem_lowerChar`: the characters that come from ASCII alone.
* `mem_of_mem_lower`: such a character, if it is no small letter, is not made by lower-casing.
* `ascii_of_lower`, `lower_of_ascii`: a text with a small form of such characters, and the small
  form of an ASCII text.
-/

namespace NameHunt.Text

/-! ### The table -/

/-- A run of capitals lies in ASCII, is the sign of the kelvin, or leads out of ASCII and not to a
surrogate. -/
theorem lowerRuns_apart : ∀ run ∈ lowerRuns,
    run.last < 0x80 ∨ (run.first = run.last ∧ run.lower = 'k'.toNat) ∨
      0x80 ≤ run.lower ∧ (run.lower + (run.last - run.first) < 0xD800 ∨
        0xDFFF < run.lower ∧ run.lower + (run.last - run.first) < 0x110000) := by
  decide +kernel

theorem CaseRun.eq_of_lower? {run : CaseRun} {n m : Nat} (h : run.lower? n = some m) :
    run.first ≤ n ∧ n ≤ run.last ∧ m = run.lower + (n - run.first) := by
  unfold CaseRun.lower? at h
  split at h
  · rename_i hrun
    simp only [Bool.and_eq_true, decide_eq_true_eq] at hrun
    exact ⟨hrun.1.1, hrun.1.2, (Option.some.inj h).symm⟩
  · cases h

/-- From outside ASCII the table leads to a small k or stays outside. -/
theorem ofNat_of_lower? {n m : Nat} (hn : 0x80 ≤ n)
    (h : lowerRuns.findSome? (·.lower? n) = some m) :
    Char.ofNat m = 'k' ∨ 0x80 ≤ (Char.ofNat m).toNat := by
  obtain ⟨run, hmem, hlower⟩ := List.exists_of_findSome?_eq_some h
  obtain ⟨hfirst, hlast, rfl⟩ := CaseRun.eq_of_lower? hlower
  rcases lowerRuns_apart run hmem with hascii | ⟨hone, hk⟩ | ⟨hout, hvalid⟩
  · omega
  · left
    rw [hk, show n - run.first = 0 by omega]
    rfl
  · right
    rw [Char.toNat_ofNat, if_pos]
    · omega
    · show _ < 0xD800 ∨ 0xDFFF < _ ∧ _ < 0x110000
      omega

/-! ### One character -/

theorem isUpper_iff {c : Char} : c.isUpper = true ↔ 65 ≤ c.toNat ∧ c.toNat ≤ 90 := by
  simp [Char.isUpper, UInt32.le_iff_toNat_le, ← Char.toNat_val]

theorem isLower_iff {c : Char} : c.isLower = true ↔ 97 ≤ c.toNat ∧ c.toNat ≤ 122 := by
  simp [Char.isLower, UInt32.le_iff_toNat_le, ← Char.toNat_val]

/-- An ASCII character that comes from ASCII alone. -/
structure Native (d : Char) : Prop where
  ascii : d.toNat < 0x80
  ne_i : d ≠ 'i'
  ne_k : d ≠ 'k'

/-- What becomes no small letter was no capital. -/
theorem toLower_eq_self {c : Char} (h : c.toLower.isLower = false) : c.toLower = c := by
  refine Char.toLower_eq_of_not_isUpper fun hupper => ?_
  rw [Char.isLower_toLower_eq_isAlpha, Char.isAlpha, hupper, Bool.true_or] at h
  cases h

/-- A text without capitals is its own small form. -/
theorem map_toLower_eq_self {s : List Char} (h : ∀ c ∈ s, c.isUpper = false) :
    s.map Char.toLower = s := by
  refine (List.map_congr_left fun c hc => ?_).trans (List.map_id s)
  refine Char.toLower_eq_of_not_isUpper ?_
  rw [h c hc]
  exact Bool.false_ne_true

/-- A small form without small letters is the text itself. -/
theorem eq_of_map_toLower {s t : List Char} (ht : ∀ c ∈ t, c.isLower = false)
    (h : s.map Char.toLower = t) : s = t := by
  have hs : s.map Char.toLower = s := by
    refine (List.map_congr_left fun c hc => ?_).trans (List.map_id s)
    exact toLower_eq_self (ht c.toLower (h ▸ List.mem_map_of_mem hc))
  exact hs.symm.trans h

theorem eq_or_eq_toUpper_of_toLower {c d : Char} (h : c.toLower = d) : c = d ∨ c = d.toUpper := by
  by_cases hupper : c.isUpper = true
  · right
    rw [← h, Char.toUpper_toLower_eq_toUpper,
      Char.toUpper_eq_of_not_isLower (Char.not_isLower_of_isUpper hupper)]
  · left
    rw [← h, Char.toLower_eq_of_not_isUpper hupper]

theorem lowerChar_ne_nil (c : Char) : lowerChar c ≠ [] := by
  unfold lowerChar
  split
  · simp
  · split
    · simp
    · split <;> simp

theorem eq_of_mem_lowerChar {c d : Char} (hd : Native d) (h : d ∈ lowerChar c) :
    c.toNat < 0x80 ∧ d = c.toLower := by
  unfold lowerChar at h
  split at h
  · rename_i hc
    exact ⟨hc, List.mem_singleton.1 h⟩
  · rename_i hc
    exfalso
    split at h
    · rcases List.mem_cons.1 h with rfl | hdot
      · exact hd.ne_i rfl
      · rw [List.mem_singleton] at hdot
        exact absurd hd.ascii (hdot ▸ by decide)
    · split at h
      · rename_i m hfound
        obtain rfl := List.mem_singleton.1 h
        rcases ofNat_of_lower? (Nat.le_of_not_lt hc) hfound with hk | hout
        · exact hd.ne_k hk
        · exact absurd hd.ascii (Nat.not_lt.2 hout)
      · obtain rfl := List.mem_singleton.1 h
        exact hc hd.ascii

/-! ### Texts -/

/-- A text is lower-cased from its front: each character leaves something, and what is native in it
comes from an ASCII character. -/
theorem exists_lowerAfter_cons (before : List Char) (c : Char) (rest : List Char) :
    ∃ small, lowerAfter before (c :: rest) = small ++ lowerAfter (c :: before) rest ∧
      small ≠ [] ∧ ∀ d ∈ small, Native d → c.toNat < 0x80 ∧ d = c.toLower := by
  by_cases hsigma : c.toNat = 0x3A3
  · refine ⟨[Char.ofNat (if isFinalSigma before rest then 0x3C2 else 0x3C3)], ?_,
      List.cons_ne_nil _ _, ?_⟩
    · rw [lowerAfter, if_pos hsigma]
    · intro d hd hnative
      have hascii := hnative.ascii
      rw [List.mem_singleton.1 hd] at hascii
      exfalso
      split at hascii
      · exact absurd hascii (by decide)
      · exact absurd hascii (by decide)
  · refine ⟨lowerChar c, ?_, lowerChar_ne_nil c, fun d hd hnative => eq_of_mem_lowerChar hnative hd⟩
    rw [lowerAfter, if_neg hsigma]

/-- Lower-casing drops no character. -/
theorem lower_ne_nil {s : List Char} (h : s ≠ []) : lower s ≠ [] := by
  cases s with
  | nil => exact absurd rfl h
  | cons c rest =>
    obtain ⟨small, hlower, hne, -⟩ := exists_lowerAfter_cons [] c rest
    rw [lower, hlower]
    exact List.append_ne_nil_of_left_ne_nil hne _

theorem exists_of_mem_lowerAfter {before s : List Char} {d : Char} (hd : Native d)
    (h : d ∈ lowerAfter before s) : ∃ c ∈ s, c.toNat < 0x80 ∧ d = c.toLower := by
  induction s generalizing before with
  | nil => cases h
  | cons c rest ih =>
    obtain ⟨small, hlower, -, hsmall⟩ := exists_lowerAfter_cons before c rest
    rw [hlower] at h
    rcases List.mem_append.1 h with hhead | hrest
    · exact ⟨c, List.mem_cons_self, hsmall d hhead hd⟩
    · obtain ⟨e, he, hlow⟩ := ih hrest
      exact ⟨e, List.mem_cons_of_mem c he, hlow⟩

/-- A native character that is no small letter is in the small form of a text only if it is in the
text. -/
theorem mem_of_mem_lower {s : List Char} {d : Char} (hd : Native d) (hsmall : d.isLower = false)
    (h : d ∈ lower s) : d ∈ s := by
  obtain ⟨c, hc, -, rfl⟩ := exists_of_mem_lowerAfter hd h
  rwa [toLower_eq_self hsmall]

theorem ascii_of_lowerAfter {before s : List Char} (h : ∀ d ∈ lowerAfter before s, Native d) :
    ∀ c ∈ s, c.toNat < 0x80 := by
  induction s generalizing before with
  | nil => exact nofun
  | cons c rest ih =>
    obtain ⟨small, hlower, hne, hsmall⟩ := exists_lowerAfter_cons before c rest
    rw [hlower] at h
    obtain ⟨d, hd⟩ := List.exists_mem_of_ne_nil small hne
    refine List.forall_mem_cons.2 ⟨?_, ih fun e he => h e (List.mem_append_right small he)⟩
    exact (hsmall d hd (h d (List.mem_append_left _ hd))).1

/-- Where the small form of a text is native, the text is ASCII. -/
theorem ascii_of_lower {s : List Char} (h : ∀ d ∈ lower s, Native d) : ∀ c ∈ s, c.toNat < 0x80 :=
  ascii_of_lowerAfter h

/-- An ASCII text is lower-cased one character at a time. -/
theorem lowerAfter_of_ascii {s : List Char} (h : ∀ c ∈ s, c.toNat < 0x80) (before : List Char) :
    lowerAfter before s = s.map Char.toLower := by
  induction s generalizing before with
  | nil => rfl
  | cons c rest ih =>
    have hc : c.toNat < 0x80 := h c List.mem_cons_self
    have hsigma : c.toNat ≠ 0x3A3 := by omega
    rw [lowerAfter, ih (fun d hd => h d (List.mem_cons_of_mem c hd)), if_neg hsigma, lowerChar,
      if_pos hc]
    rfl

theorem lower_of_ascii {s : List Char} (h : ∀ c ∈ s, c.toNat < 0x80) :
    lower s = s.map Char.toLower :=
  lowerAfter_of_ascii h []

end NameHunt.Text
