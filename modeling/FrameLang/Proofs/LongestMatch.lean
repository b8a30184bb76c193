import FrameLang.Proofs.Placement
import FrameLang.Proofs.Printing

/-!
Tokenization by longest match. The rules below say which texts are tokens, and how a source is read
from left to right: layout is skipped, and in front of anything else the longest text that is a token
is taken. They do not say how such a text is found. The lexemes of a source are what the rules give,
and so is the error of a source that has none.
-/

set_option autoImplicit false

namespace FrameLang

open Source

/-!
## The texts that are tokens
-/

namespace Token

/-- The text is a token by itself. A word that is a symbol is no identifier. -/
inductive Spelled : Token → List Char → Prop where
  | symbol (symbol : Symbol) : Spelled (.symbol symbol) symbol.spelling.toList
  /-- Digits, and behind a point at least one more if there is a point. -/
  | number {whole fraction} :
      Number.IsNumeral whole fraction →
      Spelled (.number (Number.ofDigits whole fraction)) (Number.numeral whole fraction)
  | identifier {c chars} :
      startsWord c = true → (∀ d ∈ chars, continuesWord d = true) →
      (∀ symbol : Symbol, symbol.spelling.toList ≠ c :: chars) →
      Spelled (.identifier (String.ofList (c :: chars))) (c :: chars)

/-- The text is a token in front of the row, and no longer text in front of the row is one. -/
structure Longest (row text : List Char) (token : Token) : Prop where
  front : text <+: row
  spelled : token.Spelled text
  longest : ∀ other longer, longer <+: row → Spelled other longer → longer.length ≤ text.length

end Token

/-!
## Symbols
-/

namespace Symbol

/-- A reserved word has the letters of an identifier, and no sign begins like one or like a number. -/
theorem word_or_sign (symbol : Symbol) :
    ∃ c chars, symbol.spelling.toList = c :: chars ∧
      ((symbol ∈ words ∧ Token.startsWord c = true ∧ chars.all Token.continuesWord = true) ∨
        (symbol ∈ signs ∧ c.isDigit = false ∧ Token.startsWord c = false)) := by
  cases symbol with
  | letWord | inWord | ifWord | thenWord | elseWord =>
      exact ⟨_, _, rfl, .inl ⟨by decide, rfl, rfl⟩⟩
  | _ => exact ⟨_, _, rfl, .inr (by decide)⟩

theorem signs_shorten :
    signs.Pairwise fun first second => second.spelling.length ≤ first.spelling.length := by
  decide

end Symbol

namespace Token

theorem length_le_takeWhile {p : Char → Bool} {text row : List Char} (front : text <+: row)
    (holds : ∀ c ∈ text, p c = true) : text.length ≤ (row.takeWhile p).length := by
  obtain ⟨rest, rfl⟩ := front
  simp [List.takeWhile_append_of_pos holds]

theorem exists_sign {sign : Symbol} {row : List Char} (member : sign ∈ Symbol.signs)
    (front : sign.spelling.toList <+: row) :
    ∃ found, sign? row = some found ∧ sign.spelling.length ≤ found.spelling.length := by
  have fits : sign.spelling.toList.isPrefixOf row = true := List.isPrefixOf_iff_prefix.mpr front
  cases result : sign? row with
  | none =>
      have noFit := List.find?_eq_none.mp result sign member
      exact absurd fits noFit
  | some found =>
      -- No sign in front of the one that is found fits, and those behind it are no longer.
      refine ⟨found, rfl, ?_⟩
      obtain ⟨_, earlier, later, split, noEarlier⟩ := List.find?_eq_some_iff_append.mp result
      have ordered := Symbol.signs_shorten
      rw [split] at member ordered
      rcases List.mem_append.mp member with inEarlier | behind
      · have noFit := noEarlier sign inEarlier
        simp [fits] at noFit
      · rcases List.mem_cons.mp behind with rfl | inLater
        · exact Nat.le_refl _
        · exact (List.pairwise_cons.mp (List.pairwise_append.mp ordered).2.1).1 sign inLater

/-!
## Scanning
-/

theorem exists_scan?_word {c : Char} {chars row : List Char} (front : c :: chars <+: row)
    (starts : startsWord c = true) (continues : ∀ d ∈ chars, continuesWord d = true) :
    ∃ found length, scan? row = some (found, length) ∧ (c :: chars).length ≤ length := by
  obtain ⟨rest, rfl⟩ := front
  have reach := length_le_takeWhile (List.prefix_append chars rest) continues
  refine ⟨_, _, scan?_of_word (isDigit_of_startsWord starts) starts (chars ++ rest), ?_⟩
  exact Nat.succ_le_succ reach

theorem exists_scan?_number {whole fraction row : List Char}
    (front : Number.numeral whole fraction <+: row) (isNumeral : Number.IsNumeral whole fraction) :
    ∃ found length, scan? row = some (found, length) ∧
      (Number.numeral whole fraction).length ≤ length := by
  obtain ⟨rest, rfl⟩ := front
  have wholeDigits : ∀ c ∈ whole, c.isDigit = true := fun c member =>
    isNumeral.digits c (List.mem_append_left _ member)
  have fractionDigits : ∀ c ∈ fraction, c.isDigit = true := fun c member =>
    isNumeral.digits c (List.mem_append_right _ member)
  obtain ⟨digit, more, rfl⟩ := List.exists_cons_of_ne_nil isNumeral.nonempty
  have scanned (tail : List Char) := scan?_of_digit (wholeDigits digit List.mem_cons_self) tail
  cases fraction with
  | nil =>
      rw [Number.numeral_nil]
      refine ⟨_, _, scanned (more ++ rest), ?_⟩
      have reach := length_le_takeWhile (List.prefix_append (digit :: more) rest) wholeDigits
      rw [List.cons_append] at reach
      rw [numberDigits_eq]
      exact Nat.le_trans reach (Nat.le_add_right _ _)
  | cons place places =>
      have reach := length_le_takeWhile (List.prefix_append (place :: places) rest) fractionDigits
      have digits : numberDigits (digit :: (more ++ '.' :: place :: (places ++ rest))) =
          (digit :: more, (place :: (places ++ rest)).takeWhile Char.isDigit) := by
        have point : ('.' :: place :: (places ++ rest)).takeWhile Char.isDigit = [] := rfl
        rw [numberDigits_eq, ← List.cons_append, List.takeWhile_append_of_pos wholeDigits, point,
          List.append_nil, List.drop_left, fraction]
      rw [Number.numeral_cons, List.append_assoc, List.cons_append, List.cons_append,
        List.cons_append]
      refine ⟨_, _, scanned _, ?_⟩
      rw [digits, fractionLength]
      simp only [List.cons_append] at reach
      simp only [List.length_append, List.length_cons, List.isEmpty_iff_length_eq_zero] at reach ⊢
      split <;> omega

/-- A row that starts with a token is scanned at least to the end of that token. -/
theorem Spelled.exists_scan? {token : Token} {text row : List Char} (spelled : token.Spelled text)
    (front : text <+: row) :
    ∃ found length, scan? row = some (found, length) ∧ text.length ≤ length := by
  cases spelled with
  | symbol symbol =>
      obtain ⟨c, chars, split, ⟨_, starts, continues⟩ | ⟨member, noDigit, noWord⟩⟩ :=
        symbol.word_or_sign
      · rw [split] at front ⊢
        exact exists_scan?_word front starts (List.all_eq_true.mp continues)
      · obtain ⟨found, isFound, reach⟩ := exists_sign member front
        rw [split] at front
        obtain ⟨rest, rfl⟩ := front
        refine ⟨.symbol found, found.spelling.length, ?_, ?_⟩
        · rw [List.cons_append] at isFound ⊢
          rw [scan?_of_sign noDigit noWord, isFound]
          rfl
        · rwa [String.length_toList]
  | number isNumeral => exact exists_scan?_number front isNumeral
  | identifier starts continues _ => exact exists_scan?_word front starts continues

theorem Spelled.scan?_eq {token : Token} {text : List Char} (spelled : token.Spelled text) :
    scan? text = some (token, text.length) := by
  cases spelled with
  | symbol symbol => cases symbol <;> rfl
  | number isNumeral =>
      have alone := @Number.scan?_numeral _ _ [] isNumeral trivial
      rwa [List.append_nil] at alone
  | @identifier c chars starts continues noSymbol =>
      have free : Symbol.words.find?
          (fun symbol => symbol.spelling == String.ofList (c :: chars)) = none := by
        rw [List.find?_eq_none]
        intro symbol _ same
        exact noSymbol symbol (by rw [beq_iff_eq.mp same, String.toList_ofList])
      rw [scan?_of_word (isDigit_of_startsWord starts) starts,
        List.takeWhile_eq_self_iff.mpr continues, ofWord, free]
      rfl

theorem spelled_ofWord {c : Char} {chars : List Char} (starts : startsWord c = true)
    (continues : ∀ d ∈ chars, continuesWord d = true) :
    (ofWord (String.ofList (c :: chars))).Spelled (c :: chars) := by
  unfold ofWord
  split
  next symbol found =>
    have same : symbol.spelling = String.ofList (c :: chars) := by
      simpa using List.find?_some found
    have spelling : symbol.spelling.toList = c :: chars := by rw [same, String.toList_ofList]
    exact spelling ▸ .symbol symbol
  next free =>
    apply Spelled.identifier starts continues
    intro symbol spelling
    obtain ⟨_, _, split, ⟨member, _⟩ | ⟨_, _, noWord⟩⟩ := symbol.word_or_sign
    · have different := List.find?_eq_none.mp free symbol member
      simp [← spelling] at different
    · rw [spelling] at split
      obtain ⟨rfl, rfl⟩ := List.cons.inj split
      rw [starts] at noWord
      cases noWord

theorem take_of_fraction {chars : List Char} {place : Char} {more : List Char}
    (places : fraction chars = place :: more) :
    chars.take (fractionLength (place :: more)) = '.' :: place :: more ∧
      ∀ c ∈ place :: more, c.isDigit = true := by
  unfold fraction at places
  split at places
  next rest =>
    have length : fractionLength (place :: more) = (place :: more).length + 1 := Nat.add_comm 1 _
    have taken : rest.take (place :: more).length = place :: more := by
      rw [← places]
      exact (List.prefix_iff_eq_take.mp (List.takeWhile_prefix _)).symm
    refine ⟨by rw [length, List.take_succ_cons, taken], fun c member => ?_⟩
    rw [← places] at member
    exact List.mem_takeWhile_imp member
  next => cases places

/-- The digits in front of a row, with the point and the digits behind it that belong to them. -/
theorem spelled_number {digit : Char} {row : List Char} (isDigit : digit.isDigit = true) :
    let digits := numberDigits (digit :: row)
    (Token.number (Number.ofDigits digits.1 digits.2)).Spelled
      ((digit :: row).take (digits.1.length + fractionLength digits.2)) := by
  let whole := (digit :: row).takeWhile Char.isDigit
  let behind := (digit :: row).dropWhile Char.isDigit
  have split : digit :: row = whole ++ behind := List.takeWhile_append_dropWhile.symm
  have wholeDigits : ∀ c ∈ whole, c.isDigit = true := fun c member => List.mem_takeWhile_imp member
  have nonempty : whole ≠ [] := by simp [whole, isDigit]
  have digits : numberDigits (digit :: row) = (whole, fraction behind) := by
    have rest : (digit :: row).drop whole.length = behind := by rw [split, List.drop_left]
    rw [numberDigits_eq, rest]
  rw [digits]
  dsimp only
  rw [split, List.take_length_add_append]
  cases places : fraction behind with
  | nil =>
      have isNumeral : Number.IsNumeral whole [] := ⟨nonempty, by simpa using wholeDigits⟩
      simpa [fractionLength, Number.numeral_nil] using Spelled.number isNumeral
  | cons place more =>
      obtain ⟨taken, placeDigits⟩ := take_of_fraction places
      have isNumeral : Number.IsNumeral whole (place :: more) := by
        refine ⟨nonempty, fun c member => ?_⟩
        exact (List.mem_append.mp member).elim (wholeDigits c) (placeDigits c)
      rw [taken]
      exact .number isNumeral

theorem spelled_of_scan? {row : List Char} {token : Token} {length : Nat}
    (found : scan? row = some (token, length)) : token.Spelled (row.take length) := by
  cases row with
  | nil => cases found
  | cons c chars =>
      cases digit : c.isDigit with
      | true =>
          rw [scan?_of_digit digit] at found
          cases found
          exact spelled_number digit
      | false =>
          cases word : startsWord c with
          | true =>
              rw [scan?_of_word digit word] at found
              cases found
              have whole : (c :: chars).take ((chars.takeWhile continuesWord).length + 1) =
                  c :: chars.takeWhile continuesWord :=
                congrArg (c :: ·) (List.prefix_iff_eq_take.mp (List.takeWhile_prefix _)).symm
              rw [whole]
              exact spelled_ofWord word fun d member => List.mem_takeWhile_imp member
          | false =>
              rw [scan?_of_sign digit word, Option.map_eq_some_iff] at found
              obtain ⟨sign, isFirst, same⟩ := found
              cases same
              have fits := (List.find?_eq_some_iff_append.mp isFirst).1
              have spelling := List.prefix_iff_eq_take.mp (List.isPrefixOf_iff_prefix.mp fits)
              rw [String.length_toList] at spelling
              exact spelling ▸ .symbol sign

theorem scan?_eq_some_iff {row : List Char} {token : Token} {length : Nat} :
    scan? row = some (token, length) ↔
      ∃ text, Longest row text token ∧ text.length = length := by
  constructor
  · intro found
    have within := scan?_length_le found
    refine ⟨row.take length, ⟨List.take_prefix length row, spelled_of_scan? found, ?_⟩,
      List.length_take_of_le within⟩
    intro other longer front spelled
    obtain ⟨_, _, same, reach⟩ := spelled.exists_scan? front
    rw [found] at same
    cases same
    rwa [List.length_take_of_le within]
  · rintro ⟨text, ⟨⟨rest, rfl⟩, spelled, longest⟩, rfl⟩
    obtain ⟨found, length, scanned, reach⟩ := spelled.exists_scan? (List.prefix_append text rest)
    have within := longest found _ (List.take_prefix length _) (spelled_of_scan? scanned)
    rw [List.length_take_of_le (scan?_length_le scanned)] at within
    cases Nat.le_antisymm within reach
    -- The text alone scans as it does in front of the rest.
    have alone := scan?_cut scanned (List.nil_prefix (l := rest))
    rw [List.append_nil, spelled.scan?_eq] at alone
    cases alone
    exact scanned

theorem scan?_eq_none_iff {row : List Char} :
    scan? row = none ↔ ∀ text token, text <+: row → ¬ Spelled token text := by
  constructor
  · intro nothing text token front spelled
    obtain ⟨_, _, found, _⟩ := spelled.exists_scan? front
    rw [nothing] at found
    cases found
  · intro free
    cases found : scan? row with
    | none => rfl
    | some result => exact absurd (spelled_of_scan? found) (free _ _ (List.take_prefix _ row))

end Token

/-!
## From left to right
-/

/-- What a text that starts at the offset reads as, or the character at which it cannot be read on.
Whitespace is skipped, and so is a comment up to the end of its line, or of the text. In front of
anything else the longest token is taken. -/
inductive MaximalMunch : Nat → List Char → Except Error (List Lexeme) → Prop where
  | finish {offset} : MaximalMunch offset [] (.ok [])
  | space {offset c rest result} :
      Lexeme.isWhitespace c = true → MaximalMunch (offset + c.utf8Size) rest result →
      MaximalMunch offset (c :: rest) result
  | comment {offset text rest result} :
      '\n' ∉ text → (∀ c ∈ rest.head?, c = '\n') →
      MaximalMunch (offset + byteLength ('#' :: text)) rest result →
      MaximalMunch offset ('#' :: (text ++ rest)) result
  | token {offset stop text rest token result} :
      Token.Longest (text ++ rest) text token → stop = offset + byteLength text →
      MaximalMunch stop rest result →
      MaximalMunch offset (text ++ rest)
        (result.map fun lexemes => ⟨token, ⟨offset, stop, String.ofList text⟩⟩ :: lexemes)
  | stuck {offset c rest} :
      Lexeme.isWhitespace c = false → c ≠ '#' →
      (∀ text token, text <+: c :: rest → ¬ Token.Spelled token text) →
      MaximalMunch offset (c :: rest)
        (.error ⟨.unrecognized c, ⟨offset, offset + c.utf8Size, String.ofList [c]⟩⟩)

namespace Lexeme

theorem ofCharsFrom_of_skipLayout {offset place : Nat} {chars rest : List Char}
    (same : skipLayout false offset chars = skipLayout false place rest) :
    ofCharsFrom offset chars = ofCharsFrom place rest := by
  unfold ofCharsFrom
  generalize skipLayout false offset chars = first at same ⊢
  cases same
  rfl

theorem skipLayout_openComment {text rest : List Char} (oneLine : '\n' ∉ text)
    (ends : ∀ c ∈ rest.head?, c = '\n') (offset : Nat) :
    skipLayout true offset (text ++ rest) =
      skipLayout false (offset + byteLength text) rest := by
  induction text generalizing offset with
  | nil =>
      cases rest with
      | nil => rfl
      | cons c rest =>
          cases ends c rfl
          rfl
  | cons c text ih =>
      rw [List.mem_cons, not_or] at oneLine
      have inside : (c != '\n') = true := bne_iff_ne.mpr (Ne.symm oneLine.1)
      rw [List.cons_append, skipLayout, inside, ih oneLine.2, byteLength, Nat.add_assoc]

theorem ofCharsFrom_space {c : Char} (white : isWhitespace c = true) (offset : Nat)
    (rest : List Char) : ofCharsFrom offset (c :: rest) = ofCharsFrom (offset + c.utf8Size) rest := by
  apply ofCharsFrom_of_skipLayout
  rw [skipLayout, if_pos white]

theorem ofCharsFrom_comment {text rest : List Char} (oneLine : '\n' ∉ text)
    (ends : ∀ c ∈ rest.head?, c = '\n') (offset : Nat) :
    ofCharsFrom offset ('#' :: (text ++ rest)) =
      ofCharsFrom (offset + byteLength ('#' :: text)) rest := by
  have hash : isWhitespace '#' = false := rfl
  apply ofCharsFrom_of_skipLayout
  rw [skipLayout, hash, if_neg Bool.false_ne_true, if_pos rfl, skipLayout_openComment oneLine ends,
    byteLength, Nat.add_assoc]

theorem ofCharsFrom_longest {offset stop : Nat} {text rest : List Char} {token : Token}
    (longest : Token.Longest (text ++ rest) text token) (atStop : stop = offset + byteLength text) :
    ofCharsFrom offset (text ++ rest) =
      (ofCharsFrom stop rest).map
        fun lexemes => ⟨token, ⟨offset, stop, String.ofList text⟩⟩ :: lexemes := by
  have found := Token.scan?_eq_some_iff.mpr ⟨text, longest, rfl⟩
  have atStart : offset = offset + byteLength [] := rfl
  rw [← List.nil_append (text ++ rest), ofCharsFrom_token .nil found atStart atStop]
  cases ofCharsFrom stop rest <;> rfl

theorem ofCharsFrom_stuck {offset : Nat} {c : Char} {rest : List Char}
    (noSpace : isWhitespace c = false) (noComment : c ≠ '#')
    (free : ∀ text token, text <+: c :: rest → ¬ Token.Spelled token text) :
    ofCharsFrom offset (c :: rest) =
      .error ⟨.unrecognized c, ⟨offset, offset + c.utf8Size, String.ofList [c]⟩⟩ := by
  have starts : startsLayout c = false := by
    simp [startsLayout, noSpace, noComment]
  exact ofCharsFrom_unrecognized .nil starts (Token.scan?_eq_none_iff.mpr free)

theorem split_lastLine (chars : List Char) :
    ∃ text rest, chars = text ++ rest ∧ '\n' ∉ text ∧ ∀ c ∈ rest.head?, c = '\n' := by
  rcases split_comment chars with oneLine | ⟨text, rest, oneLine, rfl⟩
  · exact ⟨chars, [], (List.append_nil chars).symm, oneLine, by simp⟩
  · exact ⟨text, '\n' :: rest, rfl, oneLine, by simp⟩

theorem ofCharsFrom_of_maximalMunch {offset : Nat} {chars : List Char}
    {result : Except Error (List Lexeme)} (munch : MaximalMunch offset chars result) :
    ofCharsFrom offset chars = result := by
  induction munch with
  | finish => exact ofCharsFrom_trailing (.whole .nil) _
  | space white _ ih => rw [ofCharsFrom_space white, ih]
  | comment oneLine ends _ ih => rw [ofCharsFrom_comment oneLine ends, ih]
  | token longest atStop _ ih => rw [ofCharsFrom_longest longest atStop, ih]
  | stuck noSpace noComment free => exact ofCharsFrom_stuck noSpace noComment free

theorem maximalMunch_ofCharsFrom (offset : Nat) (chars : List Char) :
    MaximalMunch offset chars (ofCharsFrom offset chars) := by
  -- Not on the list: a comment or a token takes several characters at once.
  match chars with
  | [] =>
      rw [ofCharsFrom_trailing (.whole .nil)]
      exact .finish
  | c :: rest =>
      by_cases white : isWhitespace c = true
      · rw [ofCharsFrom_space white]
        exact .space white (maximalMunch_ofCharsFrom _ rest)
      by_cases hash : c = '#'
      · subst hash
        obtain ⟨text, behind, rfl, oneLine, ends⟩ := split_lastLine rest
        rw [ofCharsFrom_comment oneLine ends]
        exact .comment oneLine ends (maximalMunch_ofCharsFrom _ behind)
      cases found : Token.scan? (c :: rest) with
      | none =>
          have free := Token.scan?_eq_none_iff.mp found
          have noSpace := Bool.eq_false_iff.mpr white
          rw [ofCharsFrom_stuck noSpace hash free]
          exact .stuck noSpace hash free
      | some result =>
          have pos := Token.scan?_length_pos found
          obtain ⟨text, longest, length⟩ := Token.scan?_eq_some_iff.mp found
          obtain ⟨behind, split⟩ := longest.front
          have shorter : behind.length ≤ rest.length := by
            have total := congrArg List.length split
            rw [List.length_append, List.length_cons] at total
            omega
          rw [← split] at longest ⊢
          rw [ofCharsFrom_longest longest rfl]
          exact .token longest rfl (maximalMunch_ofCharsFrom _ behind)
termination_by chars.length

theorem ofCharsFrom_eq_iff {offset : Nat} {chars : List Char}
    {result : Except Error (List Lexeme)} :
    ofCharsFrom offset chars = result ↔ MaximalMunch offset chars result := by
  constructor
  · intro read
    exact read ▸ maximalMunch_ofCharsFrom offset chars
  · exact ofCharsFrom_of_maximalMunch

end Lexeme

theorem Token.Longest.cut {text rest rest' : List Char} {token : Token}
    (longest : Longest (text ++ rest) text token) (cut : rest' <+: rest) :
    Longest (text ++ rest') text token := by
  refine ⟨List.prefix_append text rest', longest.spelled, fun other longer front => ?_⟩
  exact longest.longest other longer (front.trans ((List.prefix_append_right_inj text).mpr cut))

theorem Lexeme.no_layout_of {p : Char → Bool} {c : Char} (holds : p c = true)
    (free : [' ', '\t', '\r', '\n', '\x0c', '#'].any p = false) : startsLayout c = false := by
  rw [Bool.eq_false_iff]
  intro layout
  have listed : c ∈ [' ', '\t', '\r', '\n', '\x0c', '#'] := by
    simpa [startsLayout, isWhitespace, or_assoc] using layout
  exact List.any_eq_false.mp free c listed holds

/-- No token contains a space or starts a comment. -/
theorem Token.Spelled.no_layout {token : Token} {text : List Char} (spelled : token.Spelled text) :
    ∀ c ∈ text, Lexeme.startsLayout c = false := by
  intro c member
  cases spelled with
  | symbol symbol =>
      have free : symbol.spelling.toList.all (fun c => !Lexeme.startsLayout c) = true := by
        cases symbol <;> rfl
      simpa using List.all_eq_true.mp free c member
  | @number whole fraction isNumeral =>
      have digit (inDigits : c ∈ whole ++ fraction) : Lexeme.startsLayout c = false :=
        Lexeme.no_layout_of (isNumeral.digits c inDigits) rfl
      cases fraction with
      | nil =>
          rw [Number.numeral_nil] at member
          exact digit (List.mem_append_left _ member)
      | cons place places =>
          rw [Number.numeral_cons] at member
          rcases List.mem_append.mp member with inWhole | behind
          · exact digit (List.mem_append_left _ inWhole)
          rcases List.mem_cons.mp behind with rfl | inFraction
          · decide
          · exact digit (List.mem_append_right _ inFraction)
  | identifier starts continues _ =>
      rcases List.mem_cons.mp member with rfl | later
      · exact Lexeme.no_layout_of starts rfl
      · exact Lexeme.no_layout_of (continues c later) rfl

/-- What stands behind layout does not make a token longer. -/
theorem Token.Longest.before_layout {row text behind : List Char} {token : Token}
    (longest : Longest row text token) (layout : ∀ c ∈ behind.head?, Lexeme.startsLayout c = true) :
    Longest (row ++ behind) text token := by
  refine ⟨longest.front.trans (List.prefix_append row behind), longest.spelled, ?_⟩
  intro other longer front spelled
  rcases Nat.le_total longer.length row.length with within | beyond
  · have inRow := List.prefix_of_prefix_length_le front (List.prefix_append row behind) within
    exact longest.longest other longer inRow spelled
  · -- Then the text contains the whole row, and layout if it contains any more.
    obtain ⟨more, rfl⟩ := List.prefix_of_prefix_length_le (List.prefix_append row behind) front beyond
    obtain ⟨last, split⟩ := (List.prefix_append_right_inj row).mp front
    cases more with
    | nil =>
        rw [List.append_nil] at spelled ⊢
        exact longest.longest other row (List.prefix_refl row) spelled
    | cons c more =>
        have isLayout := layout c (by rw [← split]; rfl)
        rw [spelled.no_layout c (List.mem_append_right row List.mem_cons_self)] at isLayout
        cases isLayout

theorem Token.scan?_before_layout {row behind : List Char} {token : Token} {length : Nat}
    (found : scan? row = some (token, length))
    (layout : ∀ c ∈ behind.head?, Lexeme.startsLayout c = true) :
    scan? (row ++ behind) = some (token, length) := by
  obtain ⟨text, longest, same⟩ := scan?_eq_some_iff.mp found
  exact scan?_eq_some_iff.mpr ⟨text, longest.before_layout layout, same⟩

/-- Neither layout nor a token starts with the character. -/
structure StartsNothing (c : Char) (rest : List Char) : Prop where
  noSpace : Lexeme.isWhitespace c = false
  noComment : c ≠ '#'
  noToken : ∀ text token, text <+: c :: rest → ¬ Token.Spelled token text

/-- Reading stops at the first character that starts nothing: the text in front of it reads. -/
theorem MaximalMunch.first_stuck {offset : Nat} {chars : List Char} {error : Error}
    (munch : MaximalMunch offset chars (.error error)) :
    ∃ before c rest lexemes, chars = before ++ c :: rest ∧ StartsNothing c rest ∧
      Lexeme.ofCharsFrom offset before = .ok lexemes ∧
      error = ⟨.unrecognized c, ⟨offset + byteLength before, offset + byteLength before + c.utf8Size,
        String.ofList [c]⟩⟩ := by
  generalize same : Except.error error = result at munch
  induction munch with
  | finish => cases same
  | @space offset white _ _ isWhite _ ih =>
      obtain ⟨before, c, rest, lexemes, rfl, starts, reads, rfl⟩ := ih same
      refine ⟨white :: before, c, rest, lexemes, rfl, starts, ?_, ?_⟩
      · rw [Lexeme.ofCharsFrom_space isWhite, reads]
      · simp only [byteLength, Nat.add_assoc]
  | @comment offset text _ _ oneLine ends _ ih =>
      obtain ⟨before, c, rest, lexemes, rfl, starts, reads, rfl⟩ := ih same
      refine ⟨'#' :: (text ++ before), c, rest, lexemes, ?_, starts, ?_, ?_⟩
      · simp only [List.cons_append, List.append_assoc]
      · have endsBefore : ∀ d ∈ before.head?, d = '\n' := fun d first =>
          ends d (List.mem_head?_append_of_mem_head? first)
        rw [Lexeme.ofCharsFrom_comment oneLine endsBefore, reads]
      · simp only [byteLength, byteLength_append, Nat.add_assoc]
  | @token offset stop text _ token result longest atStop _ ih =>
      cases result with
      | ok lexemes => cases same
      | error other =>
          cases same
          obtain ⟨before, c, rest, lexemes, rfl, starts, reads, rfl⟩ := ih rfl
          -- The longest token stays the longest when the row is cut in front of the character.
          refine ⟨text ++ before, c, rest, ⟨token, ⟨offset, stop, String.ofList text⟩⟩ :: lexemes,
            (List.append_assoc ..).symm, starts, ?_, ?_⟩
          · rw [Lexeme.ofCharsFrom_longest (longest.cut (List.prefix_append ..)) atStop, reads]
            rfl
          · simp only [atStop, byteLength_append, Nat.add_assoc]
  | @stuck offset c rest noSpace noComment free =>
      cases same
      exact ⟨[], c, rest, [], rfl, ⟨noSpace, noComment, free⟩,
        Lexeme.ofCharsFrom_trailing (.whole .nil) offset, rfl⟩

/-!
## Between the lexemes
-/

/-- Layout stands in front of each lexeme, from where the one before it ends, and behind the last. -/
def LayoutBetween (source : List Char) (place : Nat) : List Lexeme → Prop
  | [] => TrailingLayout (slice source place (byteLength source)).text.toList
  | lexeme :: rest =>
    Layout (slice source place lexeme.span.start).text.toList ∧
      LayoutBetween source lexeme.span.stop rest

theorem Lexes.layoutBetween {offset : Nat} {chars : List Char} {lexemes : List Lexeme}
    (lexes : Lexes offset chars lexemes) {before : List Char} (place : offset = byteLength before) :
    LayoutBetween (before ++ chars) offset lexemes := by
  induction lexes generalizing before with
  | @done _ chars layout =>
      have behind := slice_append before chars []
      rw [List.append_nil, ← byteLength_append] at behind
      rw [LayoutBetween, place, behind, String.toList_ofList]
      exact layout
  | @token offset start stop chars gap text rest _ lexemes layout _ _ atStart atStop split ih =>
      have infront := slice_append before gap (text ++ rest)
      have whole : before ++ chars = before ++ gap ++ (text ++ rest) := by
        rw [split, List.append_assoc]
      have others : LayoutBetween (before ++ gap ++ text ++ rest) stop lexemes :=
        ih (by simp only [atStop, atStart, place, byteLength_append])
      rw [List.append_assoc (before ++ gap)] at others
      rw [LayoutBetween, whole, atStart, place, infront, String.toList_ofList]
      exact ⟨layout, others⟩

/-- The lexemes of a source are those of the longest match, or the error is. Lexemes are not empty,
they follow one another, and nothing but layout stands between them. A source without lexemes is
refused for the first character that starts neither layout nor a token, before anything is parsed. -/
theorem lexemes_by_longest_match (source : String) :
    (∀ result, Lexeme.ofSource source.toList = result ↔ MaximalMunch 0 source.toList result) ∧
    (∀ lexemes, Lexeme.ofSource source.toList = .ok lexemes →
      (∀ lexeme ∈ lexemes, lexeme.span.Marks source) ∧
      lexemes.Pairwise (fun first second => first.span.stop ≤ second.span.start) ∧
      LayoutBetween source.toList 0 lexemes) ∧
    ∀ error, Lexeme.ofSource source.toList = .error error →
      error.kind = .syntaxError ∧ parse source = .error error ∧
      ∃ before c rest lexemes, source.toList = before ++ c :: rest ∧ StartsNothing c rest ∧
        Lexeme.ofSource before = .ok lexemes ∧
        error = ⟨.unrecognized c, ⟨byteLength before, byteLength before + c.utf8Size,
          String.ofList [c]⟩⟩ := by
  refine ⟨fun result => Lexeme.ofCharsFrom_eq_iff, fun lexemes read => ?_, fun error failed => ?_⟩
  · have lexes := Lexeme.ofCharsFrom_eq_ok_iff.mp read
    have nothing : 0 = byteLength [] := rfl
    exact ⟨fun lexeme member => lexes.span_marks member, lexes.ordered.advances,
      lexes.layoutBetween nothing⟩
  · obtain ⟨before, c, rest, lexemes, split, starts, reads, rfl⟩ :=
      (Lexeme.ofCharsFrom_eq_iff.mp failed).first_stuck
    refine ⟨rfl, ?_, before, c, rest, lexemes, split, starts, reads, ?_⟩
    · unfold parse
      rw [failed]
      rfl
    · simp only [Nat.zero_add]

theorem two_character_sign_and_lone_mark :
    MaximalMunch 0 "x>=y".toList
        (.ok [⟨.identifier "x", ⟨0, 1, "x"⟩⟩, ⟨.symbol .greaterEqual, ⟨1, 3, ">="⟩⟩,
          ⟨.identifier "y", ⟨3, 4, "y"⟩⟩]) ∧
      parse "x !" = .error ⟨.unrecognized '!', ⟨2, 3, "!"⟩⟩ := by
  have read : Lexeme.ofSource "x>=y".toList =
      .ok [⟨.identifier "x", ⟨0, 1, "x"⟩⟩, ⟨.symbol .greaterEqual, ⟨1, 3, ">="⟩⟩,
        ⟨.identifier "y", ⟨3, 4, "y"⟩⟩] := by
    rw [Lexeme.ofSource_eq_within]
    rfl
  have failed : Lexeme.ofSource "x !".toList = .error ⟨.unrecognized '!', ⟨2, 3, "!"⟩⟩ := by
    rw [Lexeme.ofSource_eq_within]
    rfl
  have munched := ((lexemes_by_longest_match "x>=y").1 _).mp read
  have refused := (lexemes_by_longest_match "x !").2.2 _ failed
  exact ⟨munched, refused.2.1⟩

end FrameLang
