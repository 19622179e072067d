import NameHunt.Proofs.Pattern.Letters

/-!
# The segments of a text

Reading a text takes it apart at its tokens and keeps what stands between them, so that every token
splits the work in two and no two literals come to stand side by side. Where a text holds ASCII
characters alone, lower-casing it first, or writing it back, changes nothing but its capitals.

* `Pattern.Normal`: a row of segments as it comes from a text.
* `Pattern.describe_parse`: what was read is written back in small letters.
* `Pattern.parse_toLower`: capitals are read as small letters.
* `Pattern.Tokenized`, `Pattern.tokenized`: what the reading of texts keeps.
-/

namespace NameHunt

namespace Text

theorem toLower_ascii {c : Char} (h : c.toNat < 0x80) : c.toLower.toNat < 0x80 := by
  by_cases hupper : c.isUpper = true
  · have halphanum : c.isAlphanum = true := by
      simp [Char.isAlphanum, Char.isAlpha, hupper]
    have hsmall := isExtensionChar_iff.1 (isExtensionChar_toLower halphanum)
    omega
  · rwa [Char.toLower_eq_of_not_isUpper hupper]

end Text

namespace Token

/-- The tokens are told by the small form of a character. -/
theorem ofChar?_eq_some_iff {c : Char} {token : Token} :
    ofChar? c = some token ↔ c.toLower = token.symbol := by
  constructor
  · intro h
    unfold ofChar? at h
    split at h <;> cases h <;> rfl
  · intro h
    rcases Text.eq_or_eq_toUpper_of_toLower h with rfl | rfl
    · exact ofChar?_symbol token
    · cases token <;> rfl

theorem ofChar?_toLower (c : Char) : ofChar? c.toLower = ofChar? c := by
  refine Option.ext fun token => ?_
  rw [ofChar?_eq_some_iff, ofChar?_eq_some_iff, Char.toLower_toLower_eq_toLower]

end Token

/-- Whether a segment is a literal. -/
def Segment.isLiteral : Segment → Bool
  | literal _ => true
  | choice _ => false

namespace Pattern

/-! ### What stands side by side -/

/-- A row of segments as it comes from a text. -/
structure Normal (p : Pattern) : Prop where
  literal_ne_nil : ∀ text, Segment.literal text ∈ p → text ≠ []
  /-- No literal follows a literal. -/
  apart : p.IsChain fun a b => ¬ (a.isLiteral = true ∧ b.isLiteral = true)
  alphabet_ne_nil : ∀ segment ∈ p, segment.alphabet ≠ []
  nodup_alphabet : ∀ segment ∈ p, segment.alphabet.Nodup
  /-- A literal stands for one text. -/
  length_alphabet : ∀ segment ∈ p, segment.isLiteral = true → segment.alphabet.length = 1

/-- A literal is closed where a token or the end of the text comes, so no second one follows. -/
theorem isChain_ofChars (buffer s : List Char) :
    (ofChars buffer s).IsChain fun a b => ¬ (a.isLiteral = true ∧ b.isLiteral = true) := by
  induction s generalizing buffer with
  | nil =>
    rw [ofChars, close]
    split
    · exact List.isChain_nil
    · exact List.isChain_singleton _
  | cons c rest ih =>
    rw [ofChars]
    split
    · rename_i token _
      have hopen : List.IsChain (fun a b => ¬ (a.isLiteral = true ∧ b.isLiteral = true))
          (.choice token :: ofChars [] rest) := by
        refine List.isChain_cons.2 ⟨?_, ih []⟩
        rintro b - ⟨hchoice, -⟩
        cases hchoice
      unfold close
      split
      · exact hopen
      · refine List.isChain_cons.2 ⟨?_, hopen⟩
        rintro b hb ⟨-, hliteral⟩
        obtain rfl : Segment.choice token = b := Option.some.inj hb
        cases hliteral
    · exact ih (c :: buffer)

theorem normal_parse (s : String) : Normal (parse s) where
  literal_ne_nil := fun text h => (plain_parse s text h).1
  apart := isChain_ofChars [] s.toList
  alphabet_ne_nil := by
    intro segment _
    rw [← List.length_pos_iff, Segment.length_alphabet]
    exact segment.radix_pos
  nodup_alphabet := fun segment _ => segment.nodup_alphabet
  length_alphabet := by
    intro segment _ hliteral
    cases segment with
    | literal text => rfl
    | choice token => cases hliteral

/-! ### Capitals -/

/-- The literal that is closed in an ASCII text. -/
theorem close_of_ascii {buffer : List Char} (h : ∀ c ∈ buffer, c.toNat < 0x80) :
    close buffer =
      if buffer.isEmpty then [] else [.literal (buffer.reverse.map Char.toLower)] := by
  rw [close, Text.lower_of_ascii fun c hc => h c (List.mem_reverse.1 hc)]

theorem close_map_toLower {buffer : List Char} (h : ∀ c ∈ buffer, c.toNat < 0x80) :
    close (buffer.map Char.toLower) = close buffer := by
  have hsmall : ∀ c ∈ buffer.map Char.toLower, c.toNat < 0x80 := by
    intro c hc
    rcases List.mem_map.1 hc with ⟨d, hd, rfl⟩
    exact Text.toLower_ascii (h d hd)
  have htwice : (buffer.reverse.map Char.toLower).map Char.toLower =
      buffer.reverse.map Char.toLower := by
    simp
  rw [close_of_ascii hsmall, close_of_ascii h, ← List.map_reverse, htwice, List.isEmpty_map]

theorem ofChars_map_toLower {buffer s : List Char} (hbuffer : ∀ c ∈ buffer, c.toNat < 0x80)
    (hs : ∀ c ∈ s, c.toNat < 0x80) :
    ofChars (buffer.map Char.toLower) (s.map Char.toLower) = ofChars buffer s := by
  induction s generalizing buffer with
  | nil => exact close_map_toLower hbuffer
  | cons c rest ih =>
    rcases List.forall_mem_cons.1 hs with ⟨hc, hrest⟩
    rw [List.map_cons, ofChars, ofChars, Token.ofChar?_toLower]
    cases Token.ofChar? c with
    | some token =>
      show close (buffer.map Char.toLower) ++ .choice token :: ofChars [] (rest.map Char.toLower) =
        close buffer ++ .choice token :: ofChars [] rest
      rw [close_map_toLower hbuffer]
      exact congrArg (close buffer ++ .choice token :: ·) (ih (List.forall_mem_nil _) hrest)
    | none => exact ih (List.forall_mem_cons.2 ⟨hc, hbuffer⟩) hrest

theorem flatMap_describe_close {buffer : List Char} (h : ∀ c ∈ buffer, c.toNat < 0x80) :
    (close buffer).flatMap Segment.describe = buffer.reverse.map Char.toLower := by
  rw [close_of_ascii h]
  cases buffer with
  | nil => rfl
  | cons c buffer => exact List.flatMap_singleton _ _

/-- Every character of an ASCII text is in one segment, in its small form. -/
theorem flatMap_describe_ofChars {buffer s : List Char} (hbuffer : ∀ c ∈ buffer, c.toNat < 0x80)
    (hs : ∀ c ∈ s, c.toNat < 0x80) :
    (ofChars buffer s).flatMap Segment.describe = (buffer.reverse ++ s).map Char.toLower := by
  induction s generalizing buffer with
  | nil => rw [ofChars, flatMap_describe_close hbuffer, List.append_nil]
  | cons c rest ih =>
    rcases List.forall_mem_cons.1 hs with ⟨hc, hrest⟩
    rw [ofChars]
    cases htoken : Token.ofChar? c with
    | some token =>
      show (close buffer ++ .choice token :: ofChars [] rest).flatMap Segment.describe = _
      have hsplit : (buffer.reverse ++ c :: rest).map Char.toLower =
          buffer.reverse.map Char.toLower ++ token.symbol :: rest.map Char.toLower := by
        rw [List.map_append, List.map_cons, Token.ofChar?_eq_some_iff.1 htoken]
      rw [List.flatMap_append, List.flatMap_cons, flatMap_describe_close hbuffer,
        ih (List.forall_mem_nil _) hrest, hsplit]
      rfl
    | none =>
      show (ofChars (c :: buffer) rest).flatMap Segment.describe = _
      rw [ih (List.forall_mem_cons.2 ⟨hc, hbuffer⟩) hrest, List.reverse_cons, List.append_assoc]
      rfl

/-- A pattern without a fault holds ASCII characters. -/
theorem ascii_of_fault? {s : List Char} (h : fault? s = none) : ∀ c ∈ s, c.toNat < 0x80 := by
  intro c hc
  have hchar := isPatternChar_of_fault? h c hc
  simp only [isPatternChar, Bool.or_eq_true, beq_iff_eq] at hchar
  rcases hchar with (halphanum | rfl) | rfl
  · rw [Text.isAlphanum_iff] at halphanum
    omega
  · decide
  · decide

theorem toList_toLower (s : String) : s.toLower.toList = s.toList.map Char.toLower :=
  String.toList_map

/-- An ASCII text is written back in small letters. -/
theorem describe_parse {s : String} (h : ∀ c ∈ s.toList, c.toNat < 0x80) :
    (parse s).describe = s.toLower := by
  rw [← String.toList_inj, describe, String.toList_ofList, parse,
    flatMap_describe_ofChars (List.forall_mem_nil _) h, toList_toLower]
  rfl

theorem parse_toLower {s : String} (h : ∀ c ∈ s.toList, c.toNat < 0x80) :
    parse s.toLower = parse s := by
  rw [parse, parse, toList_toLower]
  exact ofChars_map_toLower (List.forall_mem_nil _) h

/-- What the reading of texts keeps. -/
structure Tokenized : Prop where
  /-- A token splits the reading in two. -/
  split : ∀ (before after : String) (token : Token), ∀ c ∈ [token.symbol, token.symbol.toUpper],
    parse (before ++ c.toString ++ after) = parse before ++ .choice token :: parse after
  normal : ∀ s, Normal (parse s)
  /-- A pattern without a fault is written back as it was, in small letters. -/
  describe : ∀ s : String, fault? s.toList = none → (parse s).describe = s.toLower
  again : ∀ s : String, fault? s.toList = none → parse (parse s).describe = parse s
  caseless : ∀ s t : String, fault? s.toList = none → fault? t.toList = none →
    s.toLower = t.toLower → parse s = parse t

theorem tokenized : Tokenized where
  split := by
    intro before after token c hc
    have hsmall : c.toLower = token.symbol := by
      simp only [List.mem_cons, List.not_mem_nil, or_false] at hc
      rcases hc with rfl | rfl <;> cases token <;> rfl
    rw [parse, String.toList_append, String.toList_append, Char.toString, String.toList_singleton,
      List.append_assoc]
    exact ofChars_append_token (Token.ofChar?_eq_some_iff.2 hsmall) [] _ _
  normal := normal_parse
  describe := fun s h => describe_parse (ascii_of_fault? h)
  again := by
    intro s h
    rw [describe_parse (ascii_of_fault? h), parse_toLower (ascii_of_fault? h)]
  caseless := by
    intro s t hs ht heq
    rw [← parse_toLower (ascii_of_fault? hs), heq, parse_toLower (ascii_of_fault? ht)]

end Pattern

end NameHunt
