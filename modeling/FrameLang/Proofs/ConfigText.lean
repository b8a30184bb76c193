import Mathlib.Data.List.Basic
import Mathlib.Tactic.IntervalCases
import Mathlib.Tactic.Tauto
import FrameLang.Proofs.JsonNumbers
import FrameLang.Proofs.JsonStrings

/-!
The texts that are read as a configuration. They are given here by what stands in them: whitespace,
brackets, the key with its escapes, and one whole number. A text is read as a configuration if and
only if it is such a text of that configuration, and the text written for a configuration is one.
-/

set_option autoImplicit false

namespace FrameLang.Config.Json

/-! ### The texts -/

/-- A text that is another one up to whitespace around it. -/
def Padded (text core : List UInt8) : Prop :=
  ∃ before after, Blanks before ∧ Blanks after ∧ text = before ++ (core ++ after)

/-- Between the brackets of an array: whitespace, or one number below `2 ^ 64`. -/
inductive IsElements : List UInt8 → Config → Prop
  | none {text : List UInt8} (blanks : Blanks text) : IsElements text {}
  | one {text digits : List UInt8} (padded : Padded text digits) (whole : IsWhole digits)
      (small : decimal digits < 2 ^ 64) :
      IsElements text { maxCallDepth := UInt64.ofNat (decimal digits) }

/-- Between the braces of an object: whitespace, or one member. -/
inductive IsMembers : List UInt8 → Config → Prop
  | none {text : List UInt8} (blanks : Blanks text) : IsMembers text {}
  | one {keyText name text digits : List UInt8}
      (paddedKey : Padded keyText (byte '"' :: (name ++ [byte '"'])))
      (field : Unescapes name fieldName.toUTF8.toList) (padded : Padded text digits)
      (whole : IsWhole digits) (small : decimal digits < 2 ^ 64) :
      IsMembers (keyText ++ byte ':' :: text) { maxCallDepth := UInt64.ofNat (decimal digits) }

/-- An array or an object. -/
inductive IsValue : List UInt8 → Config → Prop
  | array {text : List UInt8} {config : Config} (elements : IsElements text config) :
      IsValue (byte '[' :: (text ++ [byte ']'])) config
  | object {text : List UInt8} {config : Config} (members : IsMembers text config) :
      IsValue (byte '\x7b' :: (text ++ [byte '\x7d'])) config

/-- The texts of a configuration. -/
def IsText (text : List UInt8) (config : Config) : Prop :=
  ∃ core, Padded text core ∧ IsValue core config

/-! ### What is read -/

/-- A limit is a whole number below `2 ^ 64`, behind whitespace. -/
theorem limit_eq_ok_iff {value : UInt64} {bytes rest : List UInt8} :
    limit bytes = .ok (value, rest) ↔
      ∃ blanks digits, Blanks blanks ∧ IsWhole digits ∧ decimal digits < 2 ^ 64 ∧
        value = UInt64.ofNat (decimal digits) ∧ bytes = blanks ++ (digits ++ rest) ∧
        Stops rest := by
  unfold limit
  apply Iff.trans (behind_blanks_eq_ok_iff _)
  constructor
  · intro ⟨blanks, b, behind, isBlanks, _, text, read⟩
    split at read
    next =>
      obtain ⟨⟨whole?, after⟩, number, read⟩ := except_bind_eq_ok_iff.mp read
      cases whole? with
      | none => cases read
      | some found =>
          cases read
          obtain ⟨digits, whole, rfl, small, split, stops⟩ := number_eq_ok_iff.mp number
          exact ⟨blanks, digits, isBlanks, whole, small, rfl, split ▸ text, stops⟩
    next => split at read <;> cases read
  · intro ⟨blanks, digits, isBlanks, whole, small, same, text, stops⟩
    obtain ⟨first, more, rfl, digit⟩ := whole.exists_first
    refine ⟨blanks, first, more ++ rest, isBlanks, isBlank_digit digit, text, ?_⟩
    have read : number (first :: (more ++ rest)) = .ok (some (decimal (first :: more)), rest) :=
      number_eq_ok_iff.mpr ⟨first :: more, whole, rfl, small, rfl, stops⟩
    rw [if_pos (Or.inr digit), read, same]
    rfl

theorem arrayEnd_eq_ok_iff {bytes rest : List UInt8} :
    arrayEnd bytes = .ok ((), rest) ↔
      ∃ blanks, Blanks blanks ∧ bytes = blanks ++ byte ']' :: rest :=
  sign_eq_ok_iff (by decide)

theorem colon_eq_ok_iff {bytes rest : List UInt8} :
    colon bytes = .ok ((), rest) ↔
      ∃ blanks, Blanks blanks ∧ bytes = blanks ++ byte ':' :: rest :=
  sign_eq_ok_iff (by decide)

theorem key_eq_ok_iff {fresh : Bool} {bytes rest : List UInt8} :
    key fresh bytes = .ok ((), rest) ↔
      fresh = true ∧ ∃ name, Unescapes name fieldName.toUTF8.toList ∧
        bytes = name ++ byte '"' :: rest := by
  unfold key
  rw [except_bind_eq_ok_iff]
  constructor
  · intro ⟨⟨name, behind⟩, read, checked⟩
    simp only at checked
    split at checked
    next fits =>
      cases checked
      exact ⟨fits.2, fits.1 ▸ string_eq_ok_iff.mp read⟩
    next => cases checked
  · intro ⟨isFresh, written⟩
    refine ⟨(fieldName, rest), string_eq_ok_iff.mpr written, ?_⟩
    simp only
    rw [if_pos ⟨trivial, isFresh⟩]
    rfl

/-- No second member has a place. -/
theorem objectEnd_eq_ok_iff {bytes rest : List UInt8} :
    objectEnd bytes = .ok ((), rest) ↔
      ∃ blanks, Blanks blanks ∧ bytes = blanks ++ byte '\x7d' :: rest := by
  have noSecond : ∀ bytes, key false bytes ≠ .ok ((), rest) := by
    intro bytes read
    cases (key_eq_ok_iff.mp read).1
  constructor
  · intro read
    unfold objectEnd at read
    obtain ⟨blanks, b, behind, isBlanks, _, text, read⟩ := (behind_blanks_eq_ok_iff _).mp read
    split at read
    next brace =>
      cases read
      exact ⟨blanks, isBlanks, brace ▸ text⟩
    next =>
      split at read
      next =>
        split at read
        next => cases read
        next =>
          split at read
          next => exact absurd read (noSecond _)
          next => cases read
      next => cases read
  · intro ⟨blanks, isBlanks, text⟩
    unfold objectEnd
    have skipped : skipBlanks bytes = byte '\x7d' :: rest :=
      text ▸ skipBlanks_append isBlanks (by decide) rest
    rw [skipped]
    rfl

/-- Whitespace and brackets end a whole number. -/
theorem stops_of_end {blanks rest : List UInt8} (isBlanks : Blanks blanks) {bracket : UInt8}
    (isBracket : bracket = byte ']' ∨ bracket = byte '\x7d') :
    Stops (blanks ++ bracket :: rest) := by
  intro b first
  have cases' : b = byte ' ' ∨ b = byte '\n' ∨ b = byte '\t' ∨ b = byte '\r' ∨ b = byte ']' ∨
      b = byte '\x7d' := by
    cases blanks with
    | nil =>
        cases first
        tauto
    | cons blank blanks =>
        cases first
        have isBlank := isBlanks b List.mem_cons_self
        simp only [Json.isBlank, Bool.or_eq_true, beq_iff_eq] at isBlank
        tauto
  rcases cases' with rfl | rfl | rfl | rfl | rfl | rfl <;> decide

/-- A limit and the bracket behind it. -/
theorem limit_then_eq_ok_iff {finish : Reader Unit} {bracket : UInt8}
    (isBracket : bracket = byte ']' ∨ bracket = byte '\x7d')
    (finish_eq_ok_iff : ∀ {bytes rest : List UInt8}, finish bytes = .ok ((), rest) ↔
      ∃ blanks, Blanks blanks ∧ bytes = blanks ++ bracket :: rest)
    {bytes rest : List UInt8} {config : Config} :
    (do
      let (maxCallDepth, rest) ← limit bytes
      let ((), rest) ← finish rest
      return (({ maxCallDepth } : Config), rest)) = .ok (config, rest) ↔
    ∃ text digits, Padded text digits ∧ IsWhole digits ∧ decimal digits < 2 ^ 64 ∧
      config = { maxCallDepth := UInt64.ofNat (decimal digits) } ∧
      bytes = text ++ bracket :: rest := by
  rw [except_bind_eq_ok_iff]
  constructor
  · intro ⟨⟨value, behind⟩, read, finished⟩
    obtain ⟨⟨⟨⟩, after⟩, ended, same⟩ := except_bind_eq_ok_iff.mp finished
    obtain ⟨before, digits, isBefore, whole, small, rfl, text, _⟩ := limit_eq_ok_iff.mp read
    obtain ⟨blanks, isBlanks, closing⟩ := finish_eq_ok_iff.mp ended
    have closing' : behind = blanks ++ bracket :: after := closing
    cases same
    refine ⟨before ++ (digits ++ blanks), digits, ⟨before, blanks, isBefore, isBlanks, rfl⟩, whole,
      small, rfl, ?_⟩
    rw [text, closing']
    simp
  · intro ⟨text, digits, ⟨before, after, isBefore, isAfter, padded⟩, whole, small, same, written⟩
    refine ⟨(UInt64.ofNat (decimal digits), after ++ bracket :: rest),
      limit_eq_ok_iff.mpr ⟨before, digits, isBefore, whole, small, rfl, ?_,
        stops_of_end isAfter isBracket⟩, ?_⟩
    · rw [written, padded]
      simp
    · rw [except_bind_eq_ok_iff]
      exact ⟨((), rest), finish_eq_ok_iff.mpr ⟨after, isAfter, rfl⟩, by rw [same]; rfl⟩

/-- Whitespace in front of a number belongs to what stands around it. -/
theorem Padded.behind {text digits blanks : List UInt8} (padded : Padded text digits)
    (isBlanks : Blanks blanks) : Padded (blanks ++ text) digits := by
  obtain ⟨before, after, isBefore, isAfter, written⟩ := padded
  exact ⟨blanks ++ before, after, isBlanks.append isBefore, isAfter, by simp [written]⟩

theorem array_eq_ok_iff {config : Config} {bytes rest : List UInt8} :
    array bytes = .ok (config, rest) ↔
      ∃ text, IsElements text config ∧ bytes = text ++ byte ']' :: rest := by
  unfold array
  apply Iff.trans (behind_blanks_eq_ok_iff _)
  have isBracket : byte ']' = byte ']' ∨ byte ']' = byte '\x7d' := .inl rfl
  constructor
  · intro ⟨blanks, b, behind, isBlanks, _, written, read⟩
    split at read
    next bracket =>
      cases read
      exact ⟨blanks, .none isBlanks, bracket ▸ written⟩
    next =>
      obtain ⟨text, digits, padded, whole, small, rfl, inside⟩ :=
        (limit_then_eq_ok_iff isBracket arrayEnd_eq_ok_iff).mp read
      exact ⟨blanks ++ text, .one (padded.behind isBlanks) whole small, by simp [written, inside]⟩
  · intro ⟨text, elements, written⟩
    cases elements with
    | none blanks => exact ⟨text, byte ']', rest, blanks, by decide, written, if_pos rfl⟩
    | one padded whole small =>
        obtain ⟨before, after, isBefore, isAfter, padded⟩ := padded
        obtain ⟨first, more, rfl, digit⟩ := whole.exists_first
        have noBracket : first ≠ byte ']' := fun same => absurd (same ▸ digit) (by decide)
        refine ⟨before, first, more ++ (after ++ byte ']' :: rest), isBefore, isBlank_digit digit,
          by simp [written, padded], ?_⟩
        rw [if_neg noBracket]
        exact (limit_then_eq_ok_iff isBracket arrayEnd_eq_ok_iff).mpr
          ⟨(first :: more) ++ after, first :: more, ⟨[], after, .nil, isAfter, rfl⟩, whole, small,
            rfl, by simp⟩

theorem object_eq_ok_iff {config : Config} {bytes rest : List UInt8} :
    object bytes = .ok (config, rest) ↔
      ∃ text, IsMembers text config ∧ bytes = text ++ byte '\x7d' :: rest := by
  unfold object
  apply Iff.trans (behind_blanks_eq_ok_iff _)
  have isBracket : byte '\x7d' = byte ']' ∨ byte '\x7d' = byte '\x7d' := .inr rfl
  constructor
  · intro ⟨blanks, b, behind, isBlanks, _, written, read⟩
    split at read
    next brace =>
      cases read
      exact ⟨blanks, .none isBlanks, brace ▸ written⟩
    next =>
      split at read
      next quote =>
        obtain ⟨⟨⟨⟩, behindKey⟩, keyRead, read⟩ := except_bind_eq_ok_iff.mp read
        obtain ⟨⟨⟨⟩, behindColon⟩, colonRead, read⟩ := except_bind_eq_ok_iff.mp read
        obtain ⟨_, name, field, keyWritten⟩ := key_eq_ok_iff.mp keyRead
        obtain ⟨beforeColon, isBeforeColon, colonWritten⟩ := colon_eq_ok_iff.mp colonRead
        obtain ⟨text, digits, padded, whole, small, rfl, inside⟩ :=
          (limit_then_eq_ok_iff isBracket objectEnd_eq_ok_iff).mp read
        have behindKeyWritten : behindKey = beforeColon ++ byte ':' :: behindColon := colonWritten
        have behindColonWritten : behindColon = text ++ byte '\x7d' :: rest := inside
        have paddedKey : Padded (blanks ++ ((byte '"' :: (name ++ [byte '"'])) ++ beforeColon)) _ :=
          ⟨blanks, beforeColon, isBlanks, isBeforeColon, rfl⟩
        refine ⟨_, .one paddedKey field padded whole small, ?_⟩
        rw [written, quote, keyWritten, behindKeyWritten, behindColonWritten]
        simp
      next => cases read
  · intro ⟨text, members, written⟩
    cases members with
    | none blanks => exact ⟨text, byte '\x7d', rest, blanks, by decide, written, if_pos rfl⟩
    | @one keyText name text digits paddedKey field padded whole small =>
        obtain ⟨before, beforeColon, isBefore, isBeforeColon, rfl⟩ := paddedKey
        have noBrace : byte '"' ≠ byte '\x7d' := by decide
        refine ⟨before, byte '"', name ++ byte '"' :: (beforeColon ++ byte ':' ::
          (text ++ byte '\x7d' :: rest)), isBefore, by decide, by simp [written], ?_⟩
        rw [if_neg noBrace, if_pos rfl, except_bind_eq_ok_iff]
        refine ⟨((), _), key_eq_ok_iff.mpr ⟨rfl, name, field, rfl⟩, ?_⟩
        simp only
        rw [except_bind_eq_ok_iff]
        refine ⟨((), _), colon_eq_ok_iff.mpr ⟨beforeColon, isBeforeColon, rfl⟩, ?_⟩
        exact (limit_then_eq_ok_iff isBracket objectEnd_eq_ok_iff).mpr
          ⟨text, digits, padded, whole, small, rfl, rfl⟩

theorem document_eq_ok_iff {config : Config} {bytes rest : List UInt8} :
    document bytes = .ok (config, rest) ↔
      ∃ blanks text, Blanks blanks ∧ IsValue text config ∧ bytes = blanks ++ (text ++ rest) := by
  unfold document
  apply Iff.trans (behind_blanks_eq_ok_iff _)
  constructor
  · intro ⟨blanks, b, behind, isBlanks, _, written, read⟩
    split at read
    next bracket =>
      obtain ⟨text, elements, inside⟩ := array_eq_ok_iff.mp read
      exact ⟨blanks, _, isBlanks, .array elements, by simp [written, bracket, inside]⟩
    next =>
      split at read
      next brace =>
        obtain ⟨text, members, inside⟩ := object_eq_ok_iff.mp read
        exact ⟨blanks, _, isBlanks, .object members, by simp [written, brace, inside]⟩
      next => cases read
  · intro ⟨blanks, text, isBlanks, isValue, written⟩
    cases isValue with
    | @array text _ elements =>
        refine ⟨blanks, byte '[', text ++ byte ']' :: rest, isBlanks, by decide, by simp [written],
          ?_⟩
        exact (if_pos rfl).trans (array_eq_ok_iff.mpr ⟨text, elements, rfl⟩)
    | @object text _ members =>
        have noBracket : byte '\x7b' ≠ byte '[' := by decide
        refine ⟨blanks, byte '\x7b', text ++ byte '\x7d' :: rest, isBlanks, by decide,
          by simp [written], ?_⟩
        rw [if_neg noBracket, if_pos rfl]
        exact object_eq_ok_iff.mpr ⟨text, members, rfl⟩

theorem ofJson_eq_ok_iff {config : Config} {bytes : List UInt8} :
    ofJson bytes = .ok config ↔ IsText bytes config := by
  unfold ofJson
  rw [except_bind_eq_ok_iff]
  constructor
  · intro ⟨⟨found, rest⟩, read, finished⟩
    obtain ⟨blanks, text, isBlanks, isValue, written⟩ := document_eq_ok_iff.mp read
    simp only at finished
    split at finished
    next ended =>
      cases finished
      exact ⟨text, ⟨blanks, rest, isBlanks, skipBlanks_eq_nil_iff.mp ended, written⟩, isValue⟩
    next => cases finished
  · intro ⟨text, ⟨before, after, isBefore, isAfter, written⟩, isValue⟩
    refine ⟨(config, after), document_eq_ok_iff.mpr ⟨before, text, isBefore, isValue, written⟩, ?_⟩
    simp only
    rw [skipBlanks_blanks isAfter]
    rfl

/-! ### The text written for a configuration -/

theorem toUTF8_append (first second : String) :
    (first ++ second).toUTF8.toList = first.toUTF8.toList ++ second.toUTF8.toList := by
  simp only [toList_eq_data, String.toUTF8_eq_toByteArray, String.toByteArray_append,
    ByteArray.data_append, Array.toList_append]

theorem flatMap_utf8EncodeChar {text : List Char} (ascii : ∀ c ∈ text, c.toNat < 128) :
    text.flatMap String.utf8EncodeChar = text.map byte := by
  induction text with
  | nil => rfl
  | cons c text ih =>
      have small : c.val.toNat ≤ 127 := Nat.le_of_lt_succ (ascii c List.mem_cons_self)
      have single : String.utf8EncodeChar c = [byte c] := by
        simp only [String.utf8EncodeChar, small, if_true]
        rfl
      rw [List.flatMap_cons, single, ih fun c member => ascii c (List.mem_cons_of_mem _ member)]
      rfl

theorem toUTF8_of_ascii {text : String} (ascii : ∀ c ∈ text.toList, c.toNat < 128) :
    text.toUTF8.toList = text.toList.map byte := by
  rw [toList_eq_data, String.toUTF8_eq_toByteArray, ← String.utf8Encode_toList, List.utf8Encode,
    List.data_toByteArray, flatMap_utf8EncodeChar ascii]

/-- The digits of a number start with a zero only if the number is zero. -/
theorem head?_toDigits_ne_zero {value : Nat} (positive : 0 < value) :
    (Nat.toDigits 10 value).head? ≠ some '0' := by
  induction value using Nat.strong_induction_on with
  | _ value ih =>
      by_cases short : value < 10
      · rw [Nat.toDigits_of_lt_base short]
        interval_cases value <;> decide
      · have longer : 10 ≤ value := Nat.le_of_not_lt short
        rw [Nat.toDigits_of_base_le (by decide) longer,
          List.head?_append_of_ne_nil _ Nat.toDigits_ne_nil]
        exact ih (value / 10) (by omega) (by omega)

theorem toNat_byte {c : Char} (digit : c.isDigit = true) :
    (byte c).toNat = c.toNat ∧ 48 ≤ c.toNat ∧ c.toNat ≤ 57 := by
  obtain ⟨low, high⟩ := Char.isDigit_iff_toNat.mp digit
  have bounds : 48 ≤ c.toNat ∧ c.toNat ≤ 57 := ⟨low, high⟩
  have same : (byte c).toNat = c.toNat % 256 := rfl
  omega

theorem isDigit_byte {c : Char} (digit : c.isDigit = true) : isDigit (byte c) = true := by
  obtain ⟨same, low, high⟩ := toNat_byte digit
  simp only [isDigit, Bool.and_eq_true, decide_eq_true_eq, UInt8.le_iff_toNat_le, same]
  exact ⟨low, high⟩

theorem toNat_byte_sub {c : Char} (digit : c.isDigit = true) :
    (byte c - byte '0').toNat = c.toNat - '0'.toNat := by
  obtain ⟨same, low, _⟩ := toNat_byte digit
  have zero : byte '0' ≤ byte c := by
    rw [UInt8.le_iff_toNat_le, same]
    exact low
  rw [UInt8.toNat_sub_of_le _ _ zero, same]
  rfl

theorem decimalFrom_map_byte (value : Nat) {digits : List Char}
    (allDigits : ∀ c ∈ digits, c.isDigit = true) :
    decimalFrom value (digits.map byte) = Nat.ofDigitChars 10 digits value := by
  induction digits generalizing value with
  | nil => rfl
  | cons c digits ih =>
      rw [List.map_cons, decimalFrom_cons, toNat_byte_sub (allDigits c List.mem_cons_self)]
      exact ih _ fun c member => allDigits c (List.mem_cons_of_mem _ member)

theorem decimal_toDigits (value : Nat) : decimal ((Nat.toDigits 10 value).map byte) = value := by
  unfold decimal
  rw [decimalFrom_map_byte 0 fun _ member => Number.isDigit_of_mem_toDigits member]
  exact Number.digitsValue_toDigits value

/-- The digits that are written for a number are a whole number. -/
theorem isWhole_toDigits (value : Nat) : IsWhole ((Nat.toDigits 10 value).map byte) := by
  have allDigits : ∀ c ∈ Nat.toDigits 10 value, c.isDigit = true :=
    fun _ member => Number.isDigit_of_mem_toDigits member
  refine ⟨by simp [Nat.toDigits_ne_nil], ?_, ?_⟩
  · intro digit member
    obtain ⟨c, among, rfl⟩ := List.mem_map.mp member
    exact isDigit_byte (allDigits c among)
  · intro zero
    cases value with
    | zero => rfl
    | succ value =>
        rw [List.head?_map, Option.map_eq_some_iff] at zero
        obtain ⟨c, first, same⟩ := zero
        have isZero : c = '0' := by
          have digit := toNat_byte (allDigits c (List.mem_of_mem_head? first))
          apply Char.toNat_inj.mp
          rw [← digit.1, same]
          rfl
        exact absurd (isZero ▸ first) (head?_toDigits_ne_zero (Nat.succ_pos value))

theorem Unescapes.of_plain {text : List UInt8}
    (plain : ∀ b ∈ text, b ≠ byte '"' ∧ b ≠ byte '\\' ∧ 32 ≤ b) : Unescapes text text := by
  induction text with
  | nil => exact .nil
  | cons b text ih =>
      obtain ⟨noQuote, noBackslash, printable⟩ := plain b List.mem_cons_self
      have rest := ih fun b member => plain b (List.mem_cons_of_mem _ member)
      exact .plain noQuote noBackslash printable rest

theorem isText_toJson (config : Config) : IsText config.toJson.toUTF8.toList config := by
  have opening : "\x7b\"".toUTF8.toList = [byte '\x7b', byte '"'] :=
    toUTF8_of_ascii (by simp)
  have middle : "\":".toUTF8.toList = [byte '"', byte ':'] := toUTF8_of_ascii (by simp)
  have closing : "\x7d".toUTF8.toList = [byte '\x7d'] := toUTF8_of_ascii (by simp)
  have name : fieldName.toUTF8.toList = fieldName.toList.map byte :=
    toUTF8_of_ascii (by simp [fieldName])
  have number : (toString config.maxCallDepth.toNat).toUTF8.toList =
      (Nat.toDigits 10 config.maxCallDepth.toNat).map byte := by
    have written : (toString config.maxCallDepth.toNat).toList =
        Nat.toDigits 10 config.maxCallDepth.toNat := Nat.toList_repr
    rw [toUTF8_of_ascii, written]
    intro c member
    rw [written] at member
    have digit := toNat_byte (Number.isDigit_of_mem_toDigits member)
    omega
  have field : Unescapes (fieldName.toList.map byte) fieldName.toUTF8.toList := by
    rw [name]
    exact .of_plain (by decide +kernel)
  have limit : ({ maxCallDepth := UInt64.ofNat (decimal
      ((Nat.toDigits 10 config.maxCallDepth.toNat).map byte)) } : Config) = config := by
    rw [decimal_toDigits, UInt64.ofNat_toNat]
  have small : decimal ((Nat.toDigits 10 config.maxCallDepth.toNat).map byte) < 2 ^ 64 := by
    rw [decimal_toDigits]
    exact config.maxCallDepth.toNat_lt
  have members := IsMembers.one ⟨[], [], .nil, .nil, rfl⟩ field ⟨[], [], .nil, .nil, rfl⟩
    (isWhole_toDigits config.maxCallDepth.toNat) small
  rw [limit] at members
  refine ⟨_, ⟨[], [], .nil, .nil, ?_⟩, .object members⟩
  unfold toJson
  simp only [toUTF8_append, opening, middle, closing, number, name]
  simp

/-- Exactly the texts of a configuration are read as one, and a configuration that is written is
read back. -/
theorem ofJson_reads_exactly_texts :
    (∀ (bytes : List UInt8) (config : Config), ofJson bytes = .ok config ↔ IsText bytes config) ∧
      ∀ config : Config, ofJson config.toJson.toUTF8.toList = .ok config := by
  constructor
  · intro bytes config
    exact ofJson_eq_ok_iff
  · intro config
    exact ofJson_eq_ok_iff.mpr (isText_toJson config)

example : ofJson ("\x7b\"max_call_depth\": 8 \x7d".toList.map byte) =
    .ok { maxCallDepth := 8 } := by
  decide

example : ofJson ("[18446744073709551615]".toList.map byte) =
    .ok { maxCallDepth := 18446744073709551615 } := by
  decide

end FrameLang.Config.Json
