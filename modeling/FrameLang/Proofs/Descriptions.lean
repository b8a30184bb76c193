import FrameLang.Number.Text
import FrameLang.Span

/-!
What the description of a span shows. Every character in it shows for itself, whatever the text of
the span, so a description fits into one line of a message. Two spans are never described alike: a
quoted character can be taken back whatever follows it.
-/

set_option autoImplicit false

namespace FrameLang.Span

/-!
## Hexadecimal digits
-/

/-- The value of a hexadecimal digit in lower case. -/
def hexDigitValue (digit : Char) : Nat :=
  if digit.isDigit then digit.toNat - '0'.toNat else digit.toNat - 'a'.toNat + 10

def hexValue (digits : List Char) : Nat :=
  digits.foldl (fun total digit => 16 * total + hexDigitValue digit) 0

theorem hexDigitValue_digitChar {value : Nat} (small : value < 16) :
    hexDigitValue value.digitChar = value :=
  (by decide : ∀ value < 16, hexDigitValue (Nat.digitChar value) = value) value small

theorem hexValue_toDigits (value : Nat) : hexValue (Nat.toDigits 16 value) = value := by
  induction value using Nat.strongRecOn with
  | _ value ih =>
      by_cases short : value < 16
      · rw [Nat.toDigits_of_lt_base short]
        simp only [hexValue, List.foldl_cons, List.foldl_nil, hexDigitValue_digitChar short]
        omega
      · have shorter := ih (value / 16) (by omega)
        rw [hexValue] at shorter ⊢
        rw [Nat.toDigits_of_base_le (by decide) (Nat.le_of_not_lt short), List.foldl_append, shorter,
          List.foldl_cons, List.foldl_nil, hexDigitValue_digitChar (Nat.mod_lt value (by decide))]
        omega

theorem exists_digitChar_of_mem {value : Nat} {c : Char} (member : c ∈ Nat.toDigits 16 value) :
    ∃ digit < 16, c = Nat.digitChar digit := by
  induction value using Nat.strongRecOn with
  | _ value ih =>
      by_cases short : value < 16
      · rw [Nat.toDigits_of_lt_base short, List.mem_singleton] at member
        exact ⟨value, short, member⟩
      · rw [Nat.toDigits_of_base_le (by decide) (Nat.le_of_not_lt short), List.mem_append,
          List.mem_singleton] at member
        cases member with
        | inl leading => exact ih (value / 16) (by omega) leading
        | inr last => exact ⟨value % 16, Nat.mod_lt value (by decide), last⟩

/-- No hexadecimal digit closes a code. -/
theorem ne_brace_of_mem_toDigits {value : Nat} {c : Char} (member : c ∈ Nat.toDigits 16 value) :
    c ≠ '\x7d' := by
  obtain ⟨digit, small, rfl⟩ := exists_digitChar_of_mem member
  exact (by decide : ∀ digit < 16, Nat.digitChar digit ≠ '\x7d') digit small

/-!
## Characters that show
-/

/-- The letters, digits and signs among the first 128 characters, and the space. -/
def IsBasic (c : Char) : Prop := 32 ≤ c.toNat ∧ c.toNat < 127

instance (c : Char) : Decidable (IsBasic c) := inferInstanceAs (Decidable (_ ∧ _))

theorem IsBasic.shows {c : Char} (basic : IsBasic c) : isUnprintable c = false := by
  obtain ⟨low, high⟩ := basic
  rw [isUnprintable_eq_of_toNat_lt c (by omega)]
  exact decide_eq_false (by omega)

theorem isBasic_of_mem_toDigits {value : Nat} {c : Char} (member : c ∈ Nat.toDigits 16 value) :
    IsBasic c := by
  obtain ⟨digit, small, rfl⟩ := exists_digitChar_of_mem member
  exact (by decide : ∀ digit < 16, IsBasic (Nat.digitChar digit)) digit small

theorem isBasic_of_isDigit {c : Char} (digit : c.isDigit = true) : IsBasic c := by
  obtain ⟨low, high⟩ : 48 ≤ c.toNat ∧ c.toNat ≤ 57 := Char.isDigit_iff_toNat.mp digit
  exact ⟨by omega, by omega⟩

/-!
## Quoted characters
-/

/-- The characters that have a letter of their own, each with that letter. -/
def escapes : List (Char × Char) :=
  [('"', '"'), ('\\', '\\'), ('\n', 'n'), ('\t', 't'), ('\r', 'r'), ('\x00', '0')]

/-- The three ways in which a character is quoted. -/
inductive Quoted (c : Char) : List Char → Prop where
  | letter {letter : Char} (listed : (c, letter) ∈ escapes) : Quoted c ['\\', letter]
  | code : Quoted c ('\\' :: 'u' :: '\x7b' :: (Nat.toDigits 16 c.toNat ++ ['\x7d']))
  | itself (noQuote : c ≠ '"') (noBackslash : c ≠ '\\') (shows : isUnprintable c = false) :
      Quoted c [c]

theorem quotedChar_quoted (c : Char) : Quoted c (quotedChar c) := by
  unfold quotedChar
  -- The first six cases are those of the listed characters.
  iterate 6
    split
    next same =>
      subst same
      exact .letter (by decide)
  split
  next => exact .code
  next shows => exact .itself ‹c ≠ '"'› ‹c ≠ '\\'› (Bool.eq_false_iff.mpr shows)

theorem Quoted.shows {c : Char} {text : List Char} (quoted : Quoted c text) :
    ∀ shown ∈ text, isUnprintable shown = false := by
  intro shown member
  cases quoted with
  | letter listed =>
      have letters : ∀ escape ∈ escapes, IsBasic escape.2 := by decide
      cases member with
      | head => exact IsBasic.shows (by decide)
      | tail _ member =>
          obtain rfl := List.mem_singleton.mp member
          exact (letters _ listed).shows
  | code =>
      simp only [List.mem_cons, List.mem_append, List.not_mem_nil, or_false] at member
      rcases member with rfl | rfl | rfl | digit | rfl
      · exact IsBasic.shows (by decide)
      · exact IsBasic.shows (by decide)
      · exact IsBasic.shows (by decide)
      · exact (isBasic_of_mem_toDigits digit).shows
      · exact IsBasic.shows (by decide)
  | itself _ _ shows =>
      obtain rfl := List.mem_singleton.mp member
      exact shows

/-- Takes a quoted character from the front of a text. -/
def takeQuoted? : List Char → Option (Char × List Char)
  | [] => none
  | '\\' :: 'u' :: '\x7b' :: rest =>
    some (Char.ofNat (hexValue (rest.takeWhile (· ≠ '\x7d'))), (rest.dropWhile (· ≠ '\x7d')).tail)
  | '\\' :: letter :: rest =>
    (escapes.find? fun escape => escape.2 = letter).map fun escape => (escape.1, rest)
  | c :: rest => some (c, rest)

/-- What is quoted can be taken back, whatever stands behind it. -/
theorem Quoted.takes {c : Char} {text : List Char} (quoted : Quoted c text) (rest : List Char) :
    takeQuoted? (text ++ rest) = some (c, rest) := by
  cases quoted with
  | letter listed =>
      simp only [escapes, List.mem_cons, Prod.mk.injEq, List.not_mem_nil, or_false] at listed
      rcases listed with ⟨rfl, rfl⟩ | ⟨rfl, rfl⟩ | ⟨rfl, rfl⟩ | ⟨rfl, rfl⟩ | ⟨rfl, rfl⟩ | ⟨rfl, rfl⟩ <;>
        rfl
  | code =>
      have inside : ∀ d ∈ Nat.toDigits 16 c.toNat, decide (d ≠ '\x7d') = true :=
        fun d member => decide_eq_true (ne_brace_of_mem_toDigits member)
      simp only [List.cons_append, List.append_assoc, List.nil_append, takeQuoted?]
      rw [List.takeWhile_append_of_pos inside, List.dropWhile_append_of_pos inside]
      simp [hexValue_toDigits]
  | itself noQuote noBackslash shows =>
      rw [List.singleton_append]
      unfold takeQuoted?
      split
      next empty => cases empty
      next same => exact absurd (List.cons.inj same).1 noBackslash
      next same => exact absurd (List.cons.inj same).1 noBackslash
      next same => rw [(List.cons.inj same).1, (List.cons.inj same).2]

theorem quotedChar_append_inj {c d : Char} {rest more : List Char}
    (same : quotedChar c ++ rest = quotedChar d ++ more) : c = d ∧ rest = more := by
  have taken := (quotedChar_quoted c).takes rest
  rw [same, (quotedChar_quoted d).takes more, Option.some_inj, Prod.mk.injEq] at taken
  exact ⟨taken.1.symm, taken.2.symm⟩

/-- A quoted character is no closing quote. -/
theorem quotedChar_head (c : Char) (rest more : List Char) :
    quotedChar c ++ rest ≠ '"' :: more := by
  intro same
  have quoted := quotedChar_quoted c
  generalize quotedChar c = text at quoted same
  cases quoted with
  | letter => cases same
  | code => cases same
  | itself noQuote => exact noQuote (List.cons.inj same).1

/-- A quotation ends with the first quote that stands alone. -/
theorem quotation_inj {text other rest more : List Char}
    (same : text.flatMap quotedChar ++ '"' :: rest = other.flatMap quotedChar ++ '"' :: more) :
    text = other ∧ rest = more := by
  induction text generalizing other with
  | nil =>
      cases other with
      | nil => exact ⟨rfl, (List.cons.inj same).2⟩
      | cons d other =>
          rw [List.flatMap_cons, List.append_assoc] at same
          exact absurd same.symm (quotedChar_head d _ _)
  | cons c text ih =>
      cases other with
      | nil =>
          rw [List.flatMap_cons, List.append_assoc] at same
          exact absurd same (quotedChar_head c _ _)
      | cons d other =>
          rw [List.flatMap_cons, List.flatMap_cons, List.append_assoc, List.append_assoc] at same
          obtain ⟨head, tail⟩ := quotedChar_append_inj same
          obtain ⟨others, behind⟩ := ih tail
          exact ⟨head ▸ others ▸ rfl, behind⟩

/-!
## Descriptions
-/

theorem toList_describe (span : Span) :
    span.describe.toList = Nat.toDigits 10 span.start ++ '.' :: '.' ::
      (Nat.toDigits 10 span.stop ++ ' ' :: '"' ::
        (span.text.toList.flatMap quotedChar ++ ['"'])) := by
  have digits (value : Nat) : (toString value).toList = Nat.toDigits 10 value := Nat.toList_repr
  simp only [describe, range, String.toList_append, String.toList_ofList, digits,
    List.append_assoc]
  rfl

/-- A row of digits ends where something else begins. -/
theorem digits_append_inj {first second : Nat} {c d : Char} {rest more : List Char}
    (cEnds : c.isDigit = false) (dEnds : d.isDigit = false)
    (same : Nat.toDigits 10 first ++ c :: rest = Nat.toDigits 10 second ++ d :: more) :
    first = second ∧ c :: rest = d :: more := by
  have row (value : Nat) {c : Char} (rest : List Char) (ends : c.isDigit = false) :
      (Nat.toDigits 10 value ++ c :: rest).takeWhile Char.isDigit = Nat.toDigits 10 value := by
    rw [List.takeWhile_append_of_pos fun _ member => Number.isDigit_of_mem_toDigits member,
      List.takeWhile_cons, ends, if_neg Bool.false_ne_true, List.append_nil]
  have digits : Nat.toDigits 10 first = Nat.toDigits 10 second := by
    rw [← row first rest cEnds, same, row second more dEnds]
  rw [digits] at same
  refine ⟨?_, List.append_cancel_left same⟩
  rw [← Number.digitsValue_toDigits first, digits, Number.digitsValue_toDigits]

/-- Every character of a description shows for itself: its code is in no range of the table. -/
theorem describe_shows (span : Span) :
    ∀ c ∈ span.describe.toList, ∀ range ∈ Unprintable.ranges,
      c.toNat < range.first ∨ range.last < c.toNat := by
  intro c member range listed
  have shows : isUnprintable c = false := by
    rw [toList_describe] at member
    simp only [List.mem_append, List.mem_cons, List.mem_flatMap, List.not_mem_nil,
      or_false] at member
    rcases member with digit | rfl | rfl | digit | rfl | rfl | ⟨quoted, _, member⟩ | rfl
    · exact (isBasic_of_isDigit (Number.isDigit_of_mem_toDigits digit)).shows
    · exact IsBasic.shows (by decide)
    · exact IsBasic.shows (by decide)
    · exact (isBasic_of_isDigit (Number.isDigit_of_mem_toDigits digit)).shows
    · exact IsBasic.shows (by decide)
    · exact IsBasic.shows (by decide)
    · exact (quotedChar_quoted quoted).shows c member
    · exact IsBasic.shows (by decide)
  have outside : ¬ (range.first ≤ c.toNat ∧ c.toNat ≤ range.last) := by
    intro inside
    have hidden := isUnprintable_iff.mpr ⟨range, listed, inside⟩
    rw [shows] at hidden
    cases hidden
  omega

/-- A description determines the span. -/
theorem describe_injective {span other : Span} (same : span.describe = other.describe) :
    span = other := by
  have chars := congrArg String.toList same
  rw [toList_describe, toList_describe] at chars
  obtain ⟨start, chars⟩ := digits_append_inj rfl rfl chars
  obtain ⟨stop, chars⟩ := digits_append_inj rfl rfl (List.cons.inj (List.cons.inj chars).2).2
  obtain ⟨text, _⟩ := quotation_inj (List.cons.inj (List.cons.inj chars).2).2
  cases span
  cases other
  rw [Span.mk.injEq]
  exact ⟨start, stop, String.toList_inj.mp text⟩

end FrameLang.Span
