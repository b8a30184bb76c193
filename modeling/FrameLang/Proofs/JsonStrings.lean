import FrameLang.Config.Json
import FrameLang.Error

/-!
Strings in a JSON text. What stands between the quotes is given by what it spells: plain bytes, and
escapes for single bytes and for code points. A string is read exactly from a text that spells its
bytes.
-/

set_option autoImplicit false

namespace FrameLang.Config.Json

/-! ### Spellings -/

/-- Four hexadecimal digits, and the number they are written for. -/
inductive IsUnit : List UInt8 → Nat → Prop
  | digits {a b c d : UInt8} {first second third fourth : Nat} (isFirst : hexDigit? a = some first)
      (isSecond : hexDigit? b = some second) (isThird : hexDigit? c = some third)
      (isFourth : hexDigit? d = some fourth) :
      IsUnit [a, b, c, d] (((first * 16 + second) * 16 + third) * 16 + fourth)

/-- The bytes of a code point. -/
def encoded (codePoint : Nat) : List UInt8 :=
  (String.singleton (Char.ofNat codePoint)).toUTF8.toList

/-- The letters that stand for one byte behind a backslash. -/
def shortEscapes : List (UInt8 × UInt8) :=
  [(byte '"', byte '"'), (byte '\\', byte '\\'), (byte '/', byte '/'), (byte 'b', 8),
    (byte 'f', 12), (byte 'n', 10), (byte 'r', 13), (byte 't', 9)]

/-- The code point of an escape: one unit that is no surrogate, or a pair of surrogates. -/
inductive IsCodePoint : List UInt8 → Nat → Prop
  | single {digits : List UInt8} {value : Nat} (isUnit : IsUnit digits value)
      (noSurrogate : ¬ (0xD800 ≤ value ∧ value ≤ 0xDFFF)) : IsCodePoint digits value
  | pair {highDigits lowDigits : List UInt8} {high low : Nat} (highUnit : IsUnit highDigits high)
      (lowUnit : IsUnit lowDigits low) (isHigh : 0xD800 ≤ high ∧ high ≤ 0xDBFF)
      (isLow : 0xDC00 ≤ low ∧ low ≤ 0xDFFF) :
      IsCodePoint (highDigits ++ byte '\\' :: byte 'u' :: lowDigits)
        (0x10000 + (high - 0xD800) * 0x400 + (low - 0xDC00))

/-- An escape behind its backslash, and the bytes it stands for. -/
inductive IsEscape : List UInt8 → List UInt8 → Prop
  | short {letter b : UInt8} (listed : (letter, b) ∈ shortEscapes) : IsEscape [letter] [b]
  | codePoint {spelling : List UInt8} {value : Nat} (isCodePoint : IsCodePoint spelling value) :
      IsEscape (byte 'u' :: spelling) (encoded value)

/-- What stands between the quotes of a string, and the bytes it stands for. -/
inductive Unescapes : List UInt8 → List UInt8 → Prop
  | nil : Unescapes [] []
  | plain {b : UInt8} {text bytes : List UInt8} (noQuote : b ≠ byte '"')
      (noBackslash : b ≠ byte '\\') (printable : 32 ≤ b) (rest : Unescapes text bytes) :
      Unescapes (b :: text) (b :: bytes)
  | escape {spelling decoded text bytes : List UInt8} (first : IsEscape spelling decoded)
      (rest : Unescapes text bytes) : Unescapes (byte '\\' :: (spelling ++ text)) (decoded ++ bytes)

/-! ### What is read -/

theorem hexUnit_eq_ok_iff {value : Nat} {bytes rest : List UInt8} :
    hexUnit bytes = .ok (value, rest) ↔ ∃ digits, IsUnit digits value ∧ bytes = digits ++ rest := by
  constructor
  · intro read
    unfold hexUnit at read
    split at read
    next a b c d behind =>
      split at read
      next first second third fourth isFirst isSecond isThird isFourth =>
        cases read
        exact ⟨[a, b, c, d], .digits isFirst isSecond isThird isFourth, rfl⟩
      next => cases read
    next => cases read
  · intro ⟨digits, unit, text⟩
    cases unit with
    | digits isFirst isSecond isThird isFourth =>
        rw [text]
        simp only [hexUnit, List.cons_append, List.nil_append, isFirst, isSecond, isThird, isFourth]

theorem expectByte_eq_ok_iff {expected : UInt8} {bytes rest : List UInt8} :
    expectByte expected bytes = .ok ((), rest) ↔ bytes = expected :: rest := by
  cases bytes with
  | nil => simp [expectByte]
  | cons b behind =>
      by_cases same : b = expected
      · simp [expectByte, same]
      · simp [expectByte, same]

theorem escapedCodePoint_eq_ok_iff {codePoint : Nat} {bytes rest : List UInt8} :
    escapedCodePoint bytes = .ok (codePoint, rest) ↔
      ∃ spelling, IsCodePoint spelling codePoint ∧ bytes = spelling ++ rest := by
  unfold escapedCodePoint
  rw [except_bind_eq_ok_iff]
  constructor
  · intro ⟨⟨first, behindFirst⟩, firstRead, read⟩
    obtain ⟨digits, isUnit, text⟩ := hexUnit_eq_ok_iff.mp firstRead
    simp only at read
    split at read
    next => cases read
    next noLow =>
      split at read
      next isHigh =>
        obtain ⟨⟨⟨⟩, behindBackslash⟩, backslash, read⟩ := except_bind_eq_ok_iff.mp read
        obtain ⟨⟨⟨⟩, behindLetter⟩, letter, read⟩ := except_bind_eq_ok_iff.mp read
        obtain ⟨⟨second, behindSecond⟩, secondRead, read⟩ := except_bind_eq_ok_iff.mp read
        obtain ⟨lowDigits, lowUnit, lowText⟩ := hexUnit_eq_ok_iff.mp secondRead
        simp only at read
        split at read
        next isLow =>
          simp only [pure, Except.pure, Except.ok.injEq, Prod.mk.injEq] at read
          obtain ⟨rfl, rfl⟩ := read
          have afterBackslash : behindBackslash = byte 'u' :: behindLetter :=
            expectByte_eq_ok_iff.mp letter
          have afterLetter : behindLetter = lowDigits ++ behindSecond := lowText
          refine ⟨_, .pair isUnit lowUnit isHigh isLow, ?_⟩
          rw [text, expectByte_eq_ok_iff.mp backslash, afterBackslash, afterLetter]
          simp
        next => cases read
      next noHigh =>
        cases read
        exact ⟨digits, .single isUnit (by omega), text⟩
  · intro ⟨spelling, isCodePoint, text⟩
    cases isCodePoint with
    | single isUnit noSurrogate =>
        refine ⟨(codePoint, rest), hexUnit_eq_ok_iff.mpr ⟨spelling, isUnit, text⟩, ?_⟩
        simp only
        rw [if_neg (by omega), if_neg (by omega)]
        rfl
    | @pair highDigits lowDigits high low highUnit lowUnit isHigh isLow =>
        refine ⟨(high, byte '\\' :: byte 'u' :: (lowDigits ++ rest)),
          hexUnit_eq_ok_iff.mpr ⟨highDigits, highUnit, by simp [text]⟩, ?_⟩
        simp only
        rw [if_neg (by omega), if_pos isHigh, except_bind_eq_ok_iff]
        refine ⟨((), byte 'u' :: (lowDigits ++ rest)), expectByte_eq_ok_iff.mpr rfl, ?_⟩
        simp only
        rw [except_bind_eq_ok_iff]
        refine ⟨((), lowDigits ++ rest), expectByte_eq_ok_iff.mpr rfl, ?_⟩
        simp only
        rw [except_bind_eq_ok_iff]
        refine ⟨(low, rest), hexUnit_eq_ok_iff.mpr ⟨lowDigits, lowUnit, rfl⟩, ?_⟩
        simp only
        rw [if_pos isLow]
        rfl

theorem escape_of_listed {letter b : UInt8} (listed : (letter, b) ∈ shortEscapes)
    (rest : List UInt8) : escape (letter :: rest) = .ok ([b], rest) := by
  simp only [shortEscapes, List.mem_cons, Prod.mk.injEq, List.not_mem_nil, or_false] at listed
  rcases listed with ⟨rfl, rfl⟩ | ⟨rfl, rfl⟩ | ⟨rfl, rfl⟩ | ⟨rfl, rfl⟩ | ⟨rfl, rfl⟩ | ⟨rfl, rfl⟩ |
    ⟨rfl, rfl⟩ | ⟨rfl, rfl⟩ <;> rfl

theorem escape_of_unlisted {letter : UInt8} (unlisted : letter ∉ shortEscapes.map Prod.fst)
    (rest : List UInt8) :
    escape (letter :: rest) =
      if letter = byte 'u' then do
        let (codePoint, rest) ← escapedCodePoint rest
        return (encoded codePoint, rest)
      else .error .malformed := by
  simp only [shortEscapes, List.map_cons, List.map_nil, List.mem_cons, List.not_mem_nil, or_false,
    not_or] at unlisted
  unfold escape
  simp only [unlisted, or_self, if_false]
  rfl

theorem escape_eq_ok_iff {decoded bytes rest : List UInt8} :
    escape bytes = .ok (decoded, rest) ↔
      ∃ spelling, IsEscape spelling decoded ∧ bytes = spelling ++ rest := by
  constructor
  · intro read
    cases bytes with
    | nil => cases read
    | cons letter behind =>
        by_cases listed : letter ∈ shortEscapes.map Prod.fst
        · obtain ⟨⟨_, b⟩, pair, rfl⟩ := List.mem_map.mp listed
          rw [escape_of_listed pair] at read
          cases read
          exact ⟨_, .short pair, rfl⟩
        · rw [escape_of_unlisted listed] at read
          split at read
          next isLetter =>
            obtain ⟨⟨codePoint, after⟩, codePointRead, read⟩ := except_bind_eq_ok_iff.mp read
            obtain ⟨spelling, isCodePoint, text⟩ := escapedCodePoint_eq_ok_iff.mp codePointRead
            cases read
            exact ⟨byte 'u' :: spelling, .codePoint isCodePoint, by rw [isLetter, text]; rfl⟩
          next => cases read
  · intro ⟨spelling, isEscape, text⟩
    cases isEscape with
    | short listed =>
        rw [text]
        exact escape_of_listed listed rest
    | @codePoint spelling value isCodePoint =>
        have unlisted : byte 'u' ∉ shortEscapes.map Prod.fst := by decide
        rw [text, List.cons_append, escape_of_unlisted unlisted, if_pos rfl, except_bind_eq_ok_iff]
        exact ⟨(value, rest), escapedCodePoint_eq_ok_iff.mpr ⟨spelling, isCodePoint, rfl⟩, rfl⟩

/-- The bytes of a string are read up to its closing quote, if the steps suffice. -/
theorem stringBytes_sound {count : Nat} {bytes decoded rest : List UInt8}
    (read : stringBytes count bytes = .ok (decoded, rest)) :
    ∃ text, Unescapes text decoded ∧ bytes = text ++ byte '"' :: rest := by
  induction count generalizing bytes decoded rest with
  | zero => cases bytes <;> cases read
  | succ count ih =>
      cases bytes with
      | nil => cases read
      | cons b behind =>
          unfold stringBytes at read
          split at read
          next quote =>
            cases read
            exact ⟨[], .nil, by rw [quote]; rfl⟩
          next noQuote =>
            split at read
            next backslash =>
              obtain ⟨⟨first, behindEscape⟩, escapeRead, read⟩ := except_bind_eq_ok_iff.mp read
              obtain ⟨⟨more, after⟩, moreRead, read⟩ := except_bind_eq_ok_iff.mp read
              obtain ⟨spelling, isEscape, spelled⟩ := escape_eq_ok_iff.mp escapeRead
              obtain ⟨text, unescapes, written⟩ := ih moreRead
              have behindWritten : behindEscape = text ++ byte '"' :: after := written
              cases read
              refine ⟨byte '\\' :: (spelling ++ text), .escape isEscape unescapes, ?_⟩
              rw [backslash, spelled, behindWritten]
              simp
            next noBackslash =>
              split at read
              next => cases read
              next printable =>
                obtain ⟨⟨more, after⟩, moreRead, read⟩ := except_bind_eq_ok_iff.mp read
                obtain ⟨text, unescapes, written⟩ := ih moreRead
                cases read
                exact ⟨b :: text, .plain noQuote noBackslash (UInt8.not_lt.mp printable) unescapes,
                  congrArg (b :: ·) written⟩

theorem stringBytes_complete {count : Nat} {text decoded : List UInt8}
    (unescapes : Unescapes text decoded) (rest : List UInt8) (enough : text.length < count) :
    stringBytes count (text ++ byte '"' :: rest) = .ok (decoded, rest) := by
  induction unescapes generalizing count with
  | nil =>
      cases count with
      | zero => cases enough
      | succ count => rfl
  | @plain b text bytes noQuote noBackslash printable _ ih =>
      cases count with
      | zero => cases enough
      | succ count =>
          unfold stringBytes
          rw [List.cons_append]
          simp only [noQuote, noBackslash, UInt8.not_lt.mpr printable, if_false]
          rw [except_bind_eq_ok_iff]
          exact ⟨(bytes, rest), ih (Nat.lt_of_succ_lt_succ enough), rfl⟩
  | @escape spelling first text bytes isEscape _ ih =>
      cases count with
      | zero => cases enough
      | succ count =>
          have noQuote : byte '\\' ≠ byte '"' := by decide
          have shorter : text.length < count := by
            rw [List.length_cons, List.length_append] at enough
            omega
          unfold stringBytes
          rw [List.cons_append, List.append_assoc]
          simp only [noQuote, if_false, if_true]
          rw [except_bind_eq_ok_iff]
          have read : escape (spelling ++ (text ++ byte '"' :: rest)) =
              .ok (first, text ++ byte '"' :: rest) :=
            escape_eq_ok_iff.mpr ⟨spelling, isEscape, rfl⟩
          refine ⟨(first, text ++ byte '"' :: rest), read, ?_⟩
          simp only
          rw [except_bind_eq_ok_iff]
          exact ⟨(bytes, rest), ih shorter, rfl⟩

theorem toList_loop_eq (bytes : ByteArray) (position : Nat) (before : List UInt8) :
    ByteArray.toList.loop bytes position before =
      before.reverse ++ bytes.data.toList.drop position := by
  unfold ByteArray.toList.loop
  split
  next inside =>
    have bound : position < bytes.data.toList.length := inside
    rw [toList_loop_eq bytes (position + 1), List.drop_eq_getElem_cons bound]
    have entry : bytes.get! position = bytes.data.toList[position] := by
      simp [ByteArray.get!, getElem!_pos bytes.data position inside]
    simp [entry]
  next outside =>
    have bound : bytes.data.toList.length ≤ position := Nat.le_of_not_lt outside
    rw [List.drop_eq_nil_of_le bound, List.append_nil]
termination_by bytes.size - position

theorem toList_eq_data (bytes : ByteArray) : bytes.toList = bytes.data.toList :=
  toList_loop_eq bytes 0 []

theorem fromUTF8?_eq_some_iff {bytes : List UInt8} {text : String} :
    String.fromUTF8? ⟨bytes.toArray⟩ = some text ↔ text.toUTF8.toList = bytes := by
  rw [toList_eq_data, String.toUTF8_eq_toByteArray]
  constructor
  · intro decoded
    unfold String.fromUTF8? at decoded
    split at decoded
    next valid =>
      cases decoded
      rfl
    next => cases decoded
  · intro same
    have bytesOf : (⟨bytes.toArray⟩ : ByteArray) = text.toByteArray := by
      rw [← same]
    unfold String.fromUTF8?
    rw [bytesOf, dif_pos text.isValidUTF8]
    rfl

/-- A string is read from what stands for its bytes and the closing quote. -/
theorem string_eq_ok_iff {text : String} {bytes rest : List UInt8} :
    string bytes = .ok (text, rest) ↔
      ∃ body, Unescapes body text.toUTF8.toList ∧ bytes = body ++ byte '"' :: rest := by
  unfold string
  rw [except_bind_eq_ok_iff]
  constructor
  · intro ⟨⟨decoded, behind⟩, read, checked⟩
    obtain ⟨body, unescapes, written⟩ := stringBytes_sound read
    simp only at checked
    split at checked
    next valid =>
      cases checked
      exact ⟨body, (fromUTF8?_eq_some_iff.mp valid).symm ▸ unescapes, written⟩
    next => cases checked
  · intro ⟨body, unescapes, written⟩
    refine ⟨(text.toUTF8.toList, rest), ?_, ?_⟩
    · rw [written]
      exact stringBytes_complete unescapes rest (by simp)
    · simp only
      rw [fromUTF8?_eq_some_iff.mpr rfl]
      rfl

end FrameLang.Config.Json
