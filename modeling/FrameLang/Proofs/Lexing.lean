import FrameLang.Lexeme
import FrameLang.Proofs.Grammar

/-!
Where the lexemes of a text stand. Layout and tokens alternate, and each token is the one that
`Token.scan?` finds in front of everything behind it. A text may be cut at the ends of two of its
tokens: as no token reaches beyond its own last character, what is left has the same tokens.
-/

set_option autoImplicit false

namespace FrameLang

/-!
## Parts of a source text
-/

namespace Source

theorem dropBytes_zero (chars : List Char) : dropBytes 0 chars = chars := by
  cases chars <;> rfl

theorem takeBytes_zero (chars : List Char) : takeBytes 0 chars = [] := by
  cases chars <;> rfl

theorem dropBytes_append (before chars : List Char) :
    dropBytes (byteLength before) (before ++ chars) = chars := by
  induction before with
  | nil => exact dropBytes_zero chars
  | cons c before ih =>
      have some : c.utf8Size + byteLength before ≠ 0 := by
        have pos := c.utf8Size_pos
        omega
      rw [byteLength, List.cons_append, dropBytes, if_neg some, Nat.add_sub_cancel_left, ih]

theorem takeBytes_append (chars after : List Char) :
    takeBytes (byteLength chars) (chars ++ after) = chars := by
  induction chars with
  | nil => exact takeBytes_zero after
  | cons c chars ih =>
      have some : c.utf8Size + byteLength chars ≠ 0 := by
        have pos := c.utf8Size_pos
        omega
      rw [byteLength, List.cons_append, takeBytes, if_neg some, Nat.add_sub_cancel_left, ih]

theorem slice_append (before middle after : List Char) :
    slice (before ++ middle ++ after) (byteLength before) (byteLength before + byteLength middle) =
      ⟨byteLength before, byteLength before + byteLength middle, String.ofList middle⟩ := by
  rw [slice, Nat.add_sub_cancel_left, List.append_assoc, dropBytes_append, takeBytes_append]

theorem eq_nil_of_byteLength {chars : List Char} (none : byteLength chars = 0) : chars = [] := by
  cases chars with
  | nil => rfl
  | cons c chars =>
      have pos := c.utf8Size_pos
      rw [byteLength] at none
      omega

end Source

/-!
## Tokens and what stands behind them
-/

/-- A run of characters that ends within the text is the same whatever comes behind the text, as long
as it comes from the same place. -/
theorem takeWhile_cut {p : Char → Bool} {text rest rest' : List Char}
    (within : ((text ++ rest).takeWhile p).length ≤ text.length) (cut : rest' <+: rest) :
    (text ++ rest').takeWhile p = (text ++ rest).takeWhile p := by
  induction text with
  | nil =>
      obtain ⟨more, rfl⟩ := cut
      cases rest' with
      | nil => exact (List.eq_nil_of_length_eq_zero (Nat.le_zero.mp within)).symm
      | cons c rest' =>
          cases holds : p c with
          | true => simp [holds] at within
          | false => simp [holds]
  | cons c text ih =>
      cases holds : p c with
      | true =>
          simp only [List.cons_append, List.takeWhile_cons, holds, if_true, List.length_cons,
            Nat.add_le_add_iff_right] at within ⊢
          rw [ih within]
      | false => simp [holds]

namespace Token

/-- The digits behind a decimal point. -/
def fraction : List Char → List Char
  | '.' :: rest => rest.takeWhile Char.isDigit
  | _ => []

/-- The characters that the point and the digits behind it take. -/
def fractionLength (digits : List Char) : Nat :=
  if digits.isEmpty then 0 else 1 + digits.length

theorem fraction_of_ne_point {chars : List Char} (noPoint : ∀ rest, chars ≠ '.' :: rest) :
    fraction chars = [] := by
  unfold fraction
  split
  · exact absurd rfl (noPoint _)
  · rfl

theorem fractionLength_le (chars : List Char) :
    fractionLength (fraction chars) ≤ chars.length := by
  by_cases point : ∃ rest, chars = '.' :: rest
  · obtain ⟨rest, rfl⟩ := point
    have within : (rest.takeWhile Char.isDigit).length ≤ rest.length :=
      (List.takeWhile_prefix Char.isDigit).length_le
    rw [fraction, fractionLength, List.length_cons]
    split <;> omega
  · rw [fraction_of_ne_point fun rest same => point ⟨rest, same⟩]
    exact Nat.zero_le _

theorem numberDigits_eq (chars : List Char) :
    numberDigits chars = (chars.takeWhile Char.isDigit,
      fraction (chars.drop (chars.takeWhile Char.isDigit).length)) := by
  rw [numberDigits]
  split
  next behind => rw [behind, fraction]
  next noPoint => rw [fraction_of_ne_point noPoint]

theorem fraction_cut {text rest rest' : List Char}
    (whole : fractionLength (fraction (text ++ rest)) = text.length) (cut : rest' <+: rest) :
    fraction (text ++ rest') = fraction (text ++ rest) := by
  cases text with
  | nil =>
      have none : fraction rest = [] := by
        cases digits : fraction rest with
        | nil => rfl
        | cons => simp [fractionLength, digits] at whole
      rw [List.nil_append, List.nil_append, none]
      by_cases point : ∃ behind, rest' = '.' :: behind
      · obtain ⟨behind, rfl⟩ := point
        obtain ⟨more, rfl⟩ := cut
        rw [List.cons_append, fraction] at none
        have same := @takeWhile_cut Char.isDigit [] (behind ++ more) behind
          (Nat.le_of_eq (by rw [List.nil_append, none])) (List.prefix_append behind more)
        exact same.trans none
      · exact fraction_of_ne_point fun behind same => point ⟨behind, same⟩
  | cons c text =>
      by_cases point : c = '.'
      · subst point
        refine takeWhile_cut ?_ cut
        simp only [List.cons_append, fraction, fractionLength, List.length_cons] at whole
        split at whole
        · omega
        · omega
      · rw [fraction_of_ne_point, fraction_of_ne_point]
        · rintro more same
          exact point (List.cons.inj same).1
        · rintro more same
          exact point (List.cons.inj same).1

theorem numberDigits_cut {text rest rest' : List Char}
    (whole : (numberDigits (text ++ rest)).1.length +
      fractionLength (numberDigits (text ++ rest)).2 = text.length) (cut : rest' <+: rest) :
    numberDigits (text ++ rest') = numberDigits (text ++ rest) := by
  rw [numberDigits_eq] at whole
  dsimp only at whole
  have within := Nat.le_of_add_right_le (Nat.le_of_eq whole)
  have wholeSame := takeWhile_cut within cut
  rw [numberDigits_eq, numberDigits_eq, wholeSame, List.drop_append_of_le_length within,
    List.drop_append_of_le_length within, fraction_cut ?_ cut]
  rw [← List.drop_append_of_le_length within, List.length_drop]
  omega

theorem scan?_of_digit {c : Char} (digit : c.isDigit = true) (chars : List Char) :
    scan? (c :: chars) =
      some (.number (Number.ofDigits (numberDigits (c :: chars)).1 (numberDigits (c :: chars)).2),
        (numberDigits (c :: chars)).1.length + fractionLength (numberDigits (c :: chars)).2) := by
  rw [scan?, if_pos digit, fractionLength]
  dsimp only
  split
  · rfl
  · rw [Nat.add_assoc]

theorem scan?_of_word {c : Char} (noDigit : c.isDigit = false) (word : startsWord c = true)
    (chars : List Char) :
    scan? (c :: chars) = some (ofWord (String.ofList (c :: chars.takeWhile continuesWord)),
      (chars.takeWhile continuesWord).length + 1) := by
  rw [scan?, noDigit, word]
  rfl

/-- The sign that the text starts with. -/
def sign? (chars : List Char) : Option Symbol :=
  Symbol.signs.find? fun sign => sign.spelling.toList.isPrefixOf chars

theorem scan?_of_sign {c : Char} (noDigit : c.isDigit = false) (noWord : startsWord c = false)
    (chars : List Char) :
    scan? (c :: chars) =
      (sign? (c :: chars)).map fun sign => (.symbol sign, sign.spelling.length) := by
  rw [scan?, noDigit, noWord]
  rfl

theorem sign?_cut {text rest rest' : List Char} {sign : Symbol}
    (found : sign? (text ++ rest) = some sign) (whole : sign.spelling.length = text.length)
    (cut : rest' <+: rest) : sign? (text ++ rest') = some sign := by
  rw [sign?, List.find?_eq_some_iff_append] at found ⊢
  obtain ⟨fits, earlier, later, split, noEarlier⟩ := found
  obtain ⟨more, spelled⟩ := List.isPrefixOf_iff_prefix.mp fits
  have spelled : sign.spelling.toList = text :=
    List.append_inj_left spelled (String.length_toList.trans whole)
  refine ⟨?_, earlier, later, split, ?_⟩
  · rw [spelled, List.isPrefixOf_iff_prefix]
    exact List.prefix_append text rest'
  · intro other member
    have noFit := noEarlier other member
    rw [Bool.not_eq_true', ← Bool.not_eq_true, List.isPrefixOf_iff_prefix] at noFit ⊢
    exact fun fits => noFit (fits.trans ((List.prefix_append_right_inj text).mpr cut))

theorem scan?_length_pos {chars : List Char} {token : Token} {length : Nat}
    (found : scan? chars = some (token, length)) : 0 < length := by
  cases chars with
  | nil => cases found
  | cons c chars =>
      cases digit : c.isDigit with
      | true =>
          rw [scan?_of_digit digit, numberDigits_eq, Option.some.injEq, Prod.mk.injEq,
            List.takeWhile_cons, if_pos digit, List.length_cons] at found
          omega
      | false =>
          cases word : startsWord c with
          | true =>
              rw [scan?_of_word digit word, Option.some.injEq, Prod.mk.injEq] at found
              omega
          | false =>
              rw [scan?_of_sign digit word, Option.map_eq_some_iff] at found
              obtain ⟨sign, -, same⟩ := found
              cases same
              cases sign <;> decide

theorem scan?_length_le {chars : List Char} {token : Token} {length : Nat}
    (found : scan? chars = some (token, length)) : length ≤ chars.length := by
  cases chars with
  | nil => cases found
  | cons c chars =>
      cases digit : c.isDigit with
      | true =>
          rw [scan?_of_digit digit, numberDigits_eq, Option.some.injEq, Prod.mk.injEq] at found
          dsimp only at found
          have within : ((c :: chars).takeWhile Char.isDigit).length ≤ (c :: chars).length :=
            (List.takeWhile_prefix Char.isDigit).length_le
          have behind := fractionLength_le
            ((c :: chars).drop ((c :: chars).takeWhile Char.isDigit).length)
          rw [List.length_drop] at behind
          omega
      | false =>
          cases word : startsWord c with
          | true =>
              rw [scan?_of_word digit word, Option.some.injEq, Prod.mk.injEq] at found
              have within : (chars.takeWhile continuesWord).length ≤ chars.length :=
                (List.takeWhile_prefix continuesWord).length_le
              rw [List.length_cons]
              omega
          | false =>
              rw [scan?_of_sign digit word, Option.map_eq_some_iff] at found
              obtain ⟨sign, found, same⟩ := found
              cases same
              rw [sign?, List.find?_eq_some_iff_append] at found
              have fits := List.isPrefixOf_iff_prefix.mp found.1
              rw [← String.length_toList]
              exact fits.length_le

theorem scan?_cut {text rest rest' : List Char} {token : Token}
    (found : scan? (text ++ rest) = some (token, text.length)) (cut : rest' <+: rest) :
    scan? (text ++ rest') = some (token, text.length) := by
  cases text with
  | nil => exact absurd (scan?_length_pos found) (Nat.lt_irrefl 0)
  | cons c text =>
      rw [List.cons_append] at found ⊢
      cases digit : c.isDigit with
      | true =>
          rw [scan?_of_digit digit, Option.some.injEq, Prod.mk.injEq, ← List.cons_append] at found
          rw [scan?_of_digit digit, ← List.cons_append, numberDigits_cut found.2 cut, found.1,
            found.2]
      | false =>
          cases word : startsWord c with
          | true =>
              rw [scan?_of_word digit word, Option.some.injEq, Prod.mk.injEq] at found
              have same := takeWhile_cut (Nat.le_of_eq (Nat.add_right_cancel found.2)) cut
              rw [scan?_of_word digit word, same, found.1, found.2]
          | false =>
              rw [scan?_of_sign digit word, Option.map_eq_some_iff] at found ⊢
              obtain ⟨sign, found, same⟩ := found
              have whole := (Prod.mk.inj same).2
              rw [← List.cons_append] at found ⊢
              exact ⟨sign, sign?_cut found whole cut, same⟩

end Token

/-!
## Layout
-/

/-- Whitespace and comments, each up to the end of its line. -/
inductive Layout : List Char → Prop where
  | nil : Layout []
  | space {c rest} : Lexeme.isWhitespace c = true → Layout rest → Layout (c :: rest)
  | comment {text rest} : '\n' ∉ text → Layout rest → Layout ('#' :: (text ++ '\n' :: rest))

/-- Layout behind the last token. Here a comment may run up to the end of the text. -/
inductive TrailingLayout : List Char → Prop where
  | whole {gap} : Layout gap → TrailingLayout gap
  | comment {gap text} : Layout gap → '\n' ∉ text → TrailingLayout (gap ++ '#' :: text)

namespace Lexeme

open Source

def startsLayout (c : Char) : Bool := isWhitespace c || c == '#'

theorem skipLayout_of_token {c : Char} (starts : startsLayout c = false) (offset : Nat)
    (chars : List Char) : skipLayout false offset (c :: chars) = (offset, c :: chars) := by
  rw [startsLayout, Bool.or_eq_false_iff, beq_eq_false_iff_ne] at starts
  rw [skipLayout, starts.1, if_neg Bool.false_ne_true, if_neg starts.2]

theorem skipLayout_comment {text : List Char} (oneLine : '\n' ∉ text) (offset : Nat)
    (chars : List Char) :
    skipLayout true offset (text ++ '\n' :: chars) =
      skipLayout false (offset + byteLength text + 1) chars := by
  induction text generalizing offset with
  | nil => rfl
  | cons c text ih =>
      rw [List.mem_cons, not_or] at oneLine
      have inside : (c != '\n') = true := bne_iff_ne.mpr (Ne.symm oneLine.1)
      rw [List.cons_append, skipLayout, inside, ih oneLine.2, byteLength, Nat.add_assoc offset]

theorem skipLayout_lastComment {text : List Char} (oneLine : '\n' ∉ text) (offset : Nat) :
    (skipLayout true offset text).2 = [] := by
  induction text generalizing offset with
  | nil => rfl
  | cons c text ih =>
      rw [List.mem_cons, not_or] at oneLine
      have inside : (c != '\n') = true := bne_iff_ne.mpr (Ne.symm oneLine.1)
      rw [skipLayout, inside, ih oneLine.2]

theorem skipLayout_layout {gap : List Char} (layout : Layout gap) (offset : Nat)
    (chars : List Char) :
    skipLayout false offset (gap ++ chars) =
      skipLayout false (offset + byteLength gap) chars := by
  induction layout generalizing offset with
  | nil => rfl
  | space white _ ih =>
      rw [List.cons_append, skipLayout, if_pos white, ih, byteLength, Nat.add_assoc]
  | @comment text rest oneLine _ ih =>
      have hash : isWhitespace '#' = false := by decide
      rw [List.cons_append, skipLayout, hash, if_neg Bool.false_ne_true, if_pos rfl,
        List.append_assoc, List.cons_append, skipLayout_comment oneLine, ih, byteLength,
        byteLength_append, byteLength]
      have newline : '\n'.utf8Size = 1 := by decide
      rw [newline]
      congr 1
      omega

theorem skipLayout_trailing {chars : List Char} (layout : TrailingLayout chars) (offset : Nat) :
    (skipLayout false offset chars).2 = [] := by
  cases layout with
  | whole layout =>
      have skipped := skipLayout_layout layout offset []
      rw [List.append_nil] at skipped
      rw [skipped]
      rfl
  | comment layout oneLine =>
      rw [skipLayout_layout layout]
      exact skipLayout_lastComment oneLine _

theorem split_comment (chars : List Char) :
    '\n' ∉ chars ∨ ∃ text rest, '\n' ∉ text ∧ chars = text ++ '\n' :: rest := by
  induction chars with
  | nil => exact .inl List.not_mem_nil
  | cons c chars ih =>
      by_cases newline : c = '\n'
      · exact .inr ⟨[], chars, List.not_mem_nil, by rw [newline, List.nil_append]⟩
      rcases ih with oneLine | ⟨text, rest, oneLine, rfl⟩
      · exact .inl (List.not_mem_cons_of_ne_of_not_mem (Ne.symm newline) oneLine)
      · exact .inr ⟨c :: text, rest,
          List.not_mem_cons_of_ne_of_not_mem (Ne.symm newline) oneLine, rfl⟩

/-- Layout in front of a text ends where a token may start, or with the text. -/
theorem split_layout (chars : List Char) :
    TrailingLayout chars ∨ ∃ gap c rest, Layout gap ∧ startsLayout c = false ∧
      chars = gap ++ c :: rest := by
  match chars with
  | [] => exact .inl (.whole .nil)
  | c :: chars =>
      by_cases white : isWhitespace c = true
      · rcases split_layout chars with trailing | ⟨gap, first, rest, layout, starts, rfl⟩
        · cases trailing with
          | whole layout => exact .inl (.whole (.space white layout))
          | comment layout oneLine => exact .inl (.comment (.space white layout) oneLine)
        · exact .inr ⟨c :: gap, first, rest, .space white layout, starts, rfl⟩
      by_cases hash : c = '#'
      · subst hash
        rcases split_comment chars with oneLine | ⟨text, behind, oneLine, rfl⟩
        · exact .inl (.comment .nil oneLine)
        rcases split_layout behind with trailing | ⟨gap, first, rest, layout, starts, rfl⟩
        · cases trailing with
          | whole layout => exact .inl (.whole (.comment oneLine layout))
          | @comment gap last layout lastLine =>
              have split : '#' :: (text ++ '\n' :: (gap ++ '#' :: last)) =
                  '#' :: (text ++ '\n' :: gap) ++ '#' :: last := by
                simp only [List.cons_append, List.append_assoc]
              rw [split]
              exact .inl (.comment (.comment oneLine layout) lastLine)
        · refine .inr ⟨'#' :: (text ++ '\n' :: gap), first, rest, .comment oneLine layout, starts, ?_⟩
          simp only [List.cons_append, List.append_assoc]
      · refine .inr ⟨[], c, chars, .nil, ?_, rfl⟩
        rw [startsLayout, Bool.eq_false_iff.mpr white, beq_eq_false_iff_ne.mpr hash]
        rfl
termination_by chars.length

end Lexeme

theorem Token.startsLayout_of_scan? {c : Char} {chars : List Char} {token : Token} {length : Nat}
    (found : Token.scan? (c :: chars) = some (token, length)) : Lexeme.startsLayout c = false := by
  rw [Lexeme.startsLayout, Lexeme.isWhitespace, Bool.eq_false_iff]
  intro layout
  simp only [Bool.or_eq_true, beq_iff_eq] at layout
  rcases layout with ((((rfl | rfl) | rfl) | rfl) | rfl) | rfl <;> cases found

/-- A row of lexemes makes up a text that starts at the given offset. -/
inductive Lexes : Nat → List Char → List Lexeme → Prop where
  | done {offset chars} : TrailingLayout chars → Lexes offset chars []
  | token {offset start stop chars gap text rest token lexemes} :
      Layout gap → Token.scan? (text ++ rest) = some (token, text.length) →
      Lexes stop rest lexemes →
      start = offset + Source.byteLength gap → stop = start + Source.byteLength text →
      chars = gap ++ (text ++ rest) →
      Lexes offset chars (⟨token, ⟨start, stop, String.ofList text⟩⟩ :: lexemes)

namespace Lexeme

theorem ofCharsFrom_trailing {chars : List Char} (layout : TrailingLayout chars) (offset : Nat) :
    ofCharsFrom offset chars = .ok [] := by
  have skipped := skipLayout_trailing layout offset
  rw [ofCharsFrom]
  split
  · rfl
  next found =>
    rw [found] at skipped
    cases skipped

theorem ofCharsFrom_token {offset start stop : Nat} {gap text rest : List Char} {token : Token}
    (layout : Layout gap) (found : Token.scan? (text ++ rest) = some (token, text.length))
    (atStart : start = offset + Source.byteLength gap)
    (atStop : stop = start + Source.byteLength text) :
    ofCharsFrom offset (gap ++ (text ++ rest)) =
      (ofCharsFrom stop rest >>= fun lexemes =>
        .ok (⟨token, ⟨start, stop, String.ofList text⟩⟩ :: lexemes)) := by
  cases text with
  | nil => exact absurd (Token.scan?_length_pos found) (Nat.lt_irrefl 0)
  | cons c text =>
      have starts := Token.startsLayout_of_scan? found
      have skipped := skipLayout_layout layout offset (c :: text ++ rest)
      rw [List.cons_append, skipLayout_of_token starts] at skipped
      rw [List.cons_append] at found ⊢
      rw [ofCharsFrom]
      split
      next none =>
        rw [skipped] at none
        cases none
      next start d more some =>
        rw [skipped, ← atStart, Prod.mk.injEq, List.cons.injEq] at some
        obtain ⟨rfl, rfl, rfl⟩ := some
        rw [found]
        dsimp only
        have whole : List.take (c :: text).length (c :: (text ++ rest)) = c :: text :=
          List.take_left
        have behind : List.drop ((c :: text).length - 1) (text ++ rest) = rest := List.drop_left
        rw [whole, behind, ← atStop]
        cases ofCharsFrom stop rest <;> rfl

theorem ofCharsFrom_unrecognized {offset : Nat} {gap rest : List Char} {c : Char}
    (layout : Layout gap) (starts : startsLayout c = false)
    (none : Token.scan? (c :: rest) = none) :
    ofCharsFrom offset (gap ++ c :: rest) = .error ⟨.unrecognized c,
      ⟨offset + Source.byteLength gap, offset + Source.byteLength gap + c.utf8Size,
        String.ofList [c]⟩⟩ := by
  have skipped := skipLayout_layout layout offset (c :: rest)
  rw [skipLayout_of_token starts] at skipped
  rw [ofCharsFrom]
  split
  next nothing =>
    rw [skipped] at nothing
    cases nothing
  next some =>
    rw [skipped, Prod.mk.injEq, List.cons.injEq] at some
    obtain ⟨rfl, rfl, rfl⟩ := some
    rw [none]

theorem ofCharsFrom_of_lexes {offset : Nat} {chars : List Char} {lexemes : List Lexeme}
    (lexes : Lexes offset chars lexemes) : ofCharsFrom offset chars = .ok lexemes := by
  induction lexes with
  | done layout => exact ofCharsFrom_trailing layout _
  | token layout found _ atStart atStop split ih =>
      rw [split, ofCharsFrom_token layout found atStart atStop, ih]
      rfl

theorem lexes_of_ofCharsFrom {offset : Nat} {chars : List Char} {lexemes : List Lexeme}
    (read : ofCharsFrom offset chars = .ok lexemes) : Lexes offset chars lexemes := by
  rcases split_layout chars with trailing | ⟨gap, c, behind, layout, starts, split⟩
  · rw [ofCharsFrom_trailing trailing] at read
    cases read
    exact .done trailing
  cases found : Token.scan? (c :: behind) with
  | none =>
      rw [split, ofCharsFrom_unrecognized layout starts found] at read
      cases read
  | some result =>
      obtain ⟨token, length⟩ := result
      have pos := Token.scan?_length_pos found
      obtain ⟨text, rest, whole, textLength⟩ : ∃ text rest, c :: behind = text ++ rest ∧
          text.length = length :=
        ⟨(c :: behind).take length, (c :: behind).drop length,
          (List.take_append_drop ..).symm,
          List.length_take_of_le (Token.scan?_length_le found)⟩
      have shorter : rest.length < chars.length := by
        rw [split, whole, List.length_append, List.length_append]
        omega
      rw [whole, ← textLength] at found
      rw [split, whole, ofCharsFrom_token layout found rfl rfl] at read
      obtain ⟨more, readMore, same⟩ := except_bind_eq_ok_iff.mp read
      cases same
      exact .token layout found (lexes_of_ofCharsFrom readMore) rfl rfl (whole ▸ split)
termination_by chars.length

/-- The lexemes of a text, read in at most `count` steps. This evaluates on a closed text. -/
def ofCharsWithin : Nat → Nat → List Char → Except Error (List Lexeme)
  | 0, _, _ => .ok []
  | count + 1, offset, chars =>
    match skipLayout false offset chars with
    | (_, []) => .ok []
    | (start, c :: rest) =>
      match Token.scan? (c :: rest) with
      | none => .error ⟨.unrecognized c, ⟨start, start + c.utf8Size, String.ofList [c]⟩⟩
      | some (token, length) =>
        let text := (c :: rest).take length
        let stop := start + Source.byteLength text
        (ofCharsWithin count stop (rest.drop (length - 1))).map
          (⟨token, ⟨start, stop, String.ofList text⟩⟩ :: ·)

/-- Every step takes a character at least, so as many steps as there are characters are enough. -/
theorem ofCharsFrom_eq_within {count offset : Nat} {chars : List Char}
    (enough : chars.length ≤ count) :
    ofCharsFrom offset chars = ofCharsWithin count offset chars := by
  induction count generalizing offset chars with
  | zero =>
      obtain rfl := List.eq_nil_of_length_eq_zero (Nat.le_zero.mp enough)
      rw [ofCharsFrom]
      rfl
  | succ count ih =>
      rw [ofCharsFrom, ofCharsWithin]
      have shorter := skipLayout_length_le false offset chars
      split
      next skipped =>
        rw [skipped]
      next start c rest skipped =>
        rw [skipped] at shorter ⊢
        simp only
        cases scanned : Token.scan? (c :: rest) with
        | none => rfl
        | some found =>
            have left : (rest.drop (found.2 - 1)).length ≤ count := by
              simp only [List.length_cons, List.length_drop] at shorter ⊢
              omega
            simp only [ih left]
            generalize ofCharsWithin count _ (rest.drop (found.2 - 1)) = read
            cases read with
            | ok lexemes => rfl
            | error error => rfl

theorem ofSource_eq_within (source : List Char) :
    ofSource source = ofCharsWithin source.length 0 source :=
  ofCharsFrom_eq_within (Nat.le_refl source.length)

theorem ofCharsFrom_eq_ok_iff {offset : Nat} {chars : List Char} {lexemes : List Lexeme} :
    ofCharsFrom offset chars = .ok lexemes ↔ Lexes offset chars lexemes :=
  ⟨lexes_of_ofCharsFrom, ofCharsFrom_of_lexes⟩

end Lexeme

/-- The tokens of a text, wherever it stands. -/
inductive Tokenizes : List Char → List Token → Prop where
  | done {chars} : TrailingLayout chars → Tokenizes chars []
  | token {chars gap text rest token tokens} :
      Layout gap → Token.scan? (text ++ rest) = some (token, text.length) →
      Tokenizes rest tokens → chars = gap ++ (text ++ rest) → Tokenizes chars (token :: tokens)

theorem Tokenizes.lexes {chars : List Char} {tokens : List Token}
    (tokenizes : Tokenizes chars tokens) (offset : Nat) :
    ∃ lexemes, lexemes.map Lexeme.token = tokens ∧ Lexes offset chars lexemes := by
  induction tokenizes generalizing offset with
  | done layout => exact ⟨[], rfl, .done layout⟩
  | @token _ gap text _ token _ layout found _ split ih =>
      obtain ⟨lexemes, rfl, lexes⟩ :=
        ih (offset + Source.byteLength gap + Source.byteLength text)
      exact ⟨_, rfl, .token layout found lexes rfl rfl split⟩

theorem Layout.append {first second : List Char} (layout : Layout first) (behind : Layout second) :
    Layout (first ++ second) := by
  induction layout with
  | nil => exact behind
  | space white _ ih => exact .space white ih
  | comment oneLine _ ih =>
      rw [List.cons_append, List.append_assoc]
      exact .comment oneLine ih

theorem Tokenizes.behind_layout {gap chars : List Char} {tokens : List Token} (layout : Layout gap)
    (tokenizes : Tokenizes chars tokens) : Tokenizes (gap ++ chars) tokens := by
  cases tokenizes with
  | done trailing =>
      cases trailing with
      | whole behind => exact .done (.whole (layout.append behind))
      | comment behind oneLine =>
          rw [← List.append_assoc]
          exact .done (.comment (layout.append behind) oneLine)
  | token behind found others split =>
      refine .token (layout.append behind) found others ?_
      rw [split, List.append_assoc]

end FrameLang
