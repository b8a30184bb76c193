import Mathlib
import FrameLang.Number.Text
import FrameLang.Proofs.Lexing
import FrameLang.Proofs.Shortest

/-!
Texts of numbers. The text of a finite number without a sign is a numeral, which reads as that number,
bit for bit. That a number is determined by its bits, `Float.ofBits_toBits`, comes with the library as
a whole only, so there is no narrower import.
-/

set_option autoImplicit false

namespace FrameLang.Number

/-- One or more digits, and perhaps more behind a decimal point. -/
structure IsNumeral (whole fraction : List Char) : Prop where
  nonempty : whole ≠ []
  digits : ∀ c ∈ whole ++ fraction, c.isDigit = true

def numeral (whole fraction : List Char) : List Char :=
  if fraction.isEmpty then whole else whole ++ '.' :: fraction

theorem numeral_nil (whole : List Char) : numeral whole [] = whole := rfl

theorem numeral_cons (whole : List Char) (digit : Char) (fraction : List Char) :
    numeral whole (digit :: fraction) = whole ++ '.' :: digit :: fraction := rfl

theorem digitsValue_append (first second : List Char) :
    digitsValue (first ++ second) = 10 ^ second.length * digitsValue first + digitsValue second := by
  have behind : Nat.ofDigitChars 10 second (digitsValue first) =
      10 ^ second.length * digitsValue first + digitsValue second :=
    Nat.ofDigitChars_eq_ofDigitChars_zero
  exact (Nat.ofDigitChars_append 0).trans behind

theorem digitsValue_replicate_zero (count : Nat) : digitsValue (List.replicate count '0') = 0 :=
  Nat.ofDigitChars_replicate_zero

theorem isDigit_of_mem_replicate {count : Nat} {c : Char} (member : c ∈ List.replicate count '0') :
    c.isDigit = true := by
  rw [List.eq_of_mem_replicate member]
  rfl

theorem placePoint_numeral {digits : List Char} (allDigits : ∀ c ∈ digits, c.isDigit = true)
    (nonempty : digits ≠ []) {places : Nat} (some : 0 < places) :
    ∃ whole fraction, IsNumeral whole fraction ∧ placePoint digits places = numeral whole fraction ∧
      digitsValue (whole ++ fraction) = digitsValue digits ∧ fraction.length = places := by
  rw [placePoint]
  split
  next short =>
    let zeros := List.replicate (places - digits.length) '0'
    have length : (zeros ++ digits).length = places := by
      rw [List.length_append, List.length_replicate]
      omega
    have value : digitsValue ('0' :: (zeros ++ digits)) = digitsValue digits := by
      have zero : digitsValue ['0'] = 0 := rfl
      rw [← List.singleton_append, digitsValue_append, digitsValue_append, zero,
        digitsValue_replicate_zero]
      simp only [Nat.mul_zero, Nat.zero_add]
    refine ⟨['0'], zeros ++ digits, ⟨List.cons_ne_nil _ _, ?_⟩, ?_, value, length⟩
    · intro c member
      rw [List.mem_append, List.mem_singleton, List.mem_append] at member
      rcases member with rfl | member | member
      · rfl
      · exact isDigit_of_mem_replicate member
      · exact allDigits c member
    · rw [numeral, List.isEmpty_eq_false_iff.mpr (by simp [nonempty])]
      rfl
  next long =>
    have length : (digits.drop (digits.length - places)).length = places := by
      rw [List.length_drop]
      omega
    have whole := List.take_append_drop (digits.length - places) digits
    refine ⟨digits.take (digits.length - places), digits.drop (digits.length - places), ⟨?_, ?_⟩,
      ?_, ?_, length⟩
    · refine List.ne_nil_of_length_pos ?_
      rw [List.length_take]
      omega
    · rwa [whole]
    · have behind : digits.drop (digits.length - places) ≠ [] := by
        refine List.ne_nil_of_length_pos ?_
        rwa [length]
      rw [numeral, List.isEmpty_eq_false_iff.mpr behind]
      rfl
    · rw [whole]

/-- The text of a grid point is a numeral that stands for the point. -/
theorem GridPoint.chars_numeral (point : GridPoint) :
    ∃ whole fraction, IsNumeral whole fraction ∧ point.chars = numeral whole fraction ∧
      digitsValue (whole ++ fraction) * Nat.pow 10 exactPlaces =
        point.value * Nat.pow 10 fraction.length := by
  have allDigits : ∀ c ∈ Nat.toDigits 10 point.digits, c.isDigit = true :=
    fun _ member => isDigit_of_mem_toDigits member
  rw [chars, value]
  generalize exactPlaces = places
  split
  next coarse =>
    refine ⟨Nat.toDigits 10 point.digits ++ List.replicate (point.grid - places) '0', [],
      ⟨?_, ?_⟩, rfl, ?_⟩
    · simp [Nat.toDigits_ne_nil]
    · intro c member
      rw [List.append_nil] at member
      exact (List.mem_append.mp member).elim (allDigits c) isDigit_of_mem_replicate
    · have scale : 10 ^ point.grid = 10 ^ (point.grid - places) * 10 ^ places := by
        rw [← Nat.pow_add, Nat.sub_add_cancel coarse]
      rw [List.append_nil, digitsValue_append, digitsValue_toDigits, digitsValue_replicate_zero,
        List.length_replicate]
      change _ * 10 ^ places = point.digits * 10 ^ point.grid * 10 ^ 0
      rw [scale]
      ring
  next fine =>
    obtain ⟨whole, fraction, isNumeral, same, value, length⟩ :=
      placePoint_numeral allDigits Nat.toDigits_ne_nil (Nat.sub_pos_of_lt (Nat.lt_of_not_le fine))
    refine ⟨whole, fraction, isNumeral, same, ?_⟩
    have scale : 10 ^ places = 10 ^ point.grid * 10 ^ (places - point.grid) := by
      rw [← Nat.pow_add]
      congr 1
      omega
    rw [value, digitsValue_toDigits, length]
    change point.digits * 10 ^ places = point.digits * 10 ^ point.grid * 10 ^ (places - point.grid)
    rw [scale, Nat.mul_assoc]

theorem Magnitude.chars_numeral {pattern : Nat} (finite : pattern < infinity) :
    ∃ whole fraction, IsNumeral whole fraction ∧ chars pattern = numeral whole fraction ∧
      nearest (digitsValue (whole ++ fraction) * unitsPerOne) (Nat.pow 10 fraction.length) =
        pattern := by
  rw [chars]
  split
  next zero =>
    refine ⟨['0'], [], ⟨List.cons_ne_nil _ _, ?_⟩, rfl, ?_⟩
    · intro c member
      rw [List.mem_singleton.mp member]
      rfl
    · have read : nearest (digitsValue (['0'] ++ []) * unitsPerOne)
          (Nat.pow 10 ([] : List Char).length) = 0 := by decide +kernel
      exact read.trans zero.symm
  next nonzero =>
    obtain ⟨whole, fraction, isNumeral, same, value⟩ :=
      (Neighbourhood.ofPattern pattern).roundest.chars_numeral
    exact ⟨whole, fraction, isNumeral, same,
      nearest_roundest (Nat.pos_of_ne_zero nonzero) finite value⟩

/-- The text of a finite number with a clear sign bit is a numeral, and reads back as that very
number. -/
theorem text_numeral {number : Float} (finite : number.toBits.toNat < Magnitude.infinity) :
    ∃ whole fraction, IsNumeral whole fraction ∧
      text number = String.ofList (numeral whole fraction) ∧ ofDigits whole fraction = number := by
  have small : number.toBits.toNat < Magnitude.signBit :=
    Nat.lt_trans finite (by decide +kernel)
  obtain ⟨whole, fraction, isNumeral, same, nearest⟩ := Magnitude.chars_numeral finite
  refine ⟨whole, fraction, isNumeral, ?_, ?_⟩
  · rw [text, Nat.mod_eq_of_lt small, if_neg (Nat.lt_asymm finite), if_pos small,
      if_neg (Nat.ne_of_lt finite), String.empty_append, same]
  · rw [ofDigits, nearest, UInt64.ofNat_toNat, Float.ofBits_toBits]

/-- The text does not go on as a number. -/
def EndsNumber : List Char → Prop
  | [] => True
  | c :: _ => c.isDigit = false ∧ c ≠ '.'

theorem EndsNumber.takeWhile {rest : List Char} (ends : EndsNumber rest) :
    rest.takeWhile Char.isDigit = [] := by
  cases rest with
  | nil => rfl
  | cons c rest => rw [List.takeWhile_cons, ends.1, if_neg Bool.false_ne_true]

theorem EndsNumber.fraction {rest : List Char} (ends : EndsNumber rest) :
    Token.fraction rest = [] := by
  refine Token.fraction_of_ne_point ?_
  rintro more rfl
  exact ends.2 rfl

theorem numberDigits_numeral {whole fraction rest : List Char}
    (isNumeral : IsNumeral whole fraction) (ends : EndsNumber rest) :
    Token.numberDigits (numeral whole fraction ++ rest) = (whole, fraction) := by
  have wholeDigits : ∀ c ∈ whole, c.isDigit = true := fun c member =>
    isNumeral.digits c (List.mem_append_left _ member)
  have fractionDigits : ∀ c ∈ fraction, c.isDigit = true := fun c member =>
    isNumeral.digits c (List.mem_append_right _ member)
  rw [Token.numberDigits_eq]
  cases fraction with
  | nil =>
      rw [numeral_nil, List.takeWhile_append_of_pos wholeDigits, ends.takeWhile, List.append_nil,
        List.drop_left, ends.fraction]
  | cons digit fraction =>
      have point : ('.' :: digit :: (fraction ++ rest)).takeWhile Char.isDigit = [] := rfl
      have behind : (digit :: fraction ++ rest).takeWhile Char.isDigit = digit :: fraction := by
        rw [List.takeWhile_append_of_pos fractionDigits, ends.takeWhile, List.append_nil]
      rw [numeral_cons, List.append_assoc, List.cons_append, List.cons_append,
        List.takeWhile_append_of_pos wholeDigits, point, List.append_nil, List.drop_left,
        Token.fraction]
      exact congrArg (Prod.mk whole) behind

/-- A numeral is read as one token, as far as it goes. -/
theorem scan?_numeral {whole fraction rest : List Char} (isNumeral : IsNumeral whole fraction)
    (ends : EndsNumber rest) :
    Token.scan? (numeral whole fraction ++ rest) =
      some (.number (ofDigits whole fraction), (numeral whole fraction).length) := by
  have digits := numberDigits_numeral isNumeral ends
  have length : (numeral whole fraction).length = whole.length + Token.fractionLength fraction := by
    cases fraction with
    | nil => rfl
    | cons digit fraction =>
        rw [numeral_cons, List.length_append, List.length_cons, Token.fractionLength,
          Nat.add_comm (List.length _) 1]
        rfl
  obtain ⟨digit, more, rfl⟩ := List.exists_cons_of_ne_nil isNumeral.nonempty
  have isDigit : digit.isDigit = true := isNumeral.digits digit (.head _)
  obtain ⟨behind, starts⟩ : ∃ behind, numeral (digit :: more) fraction ++ rest = digit :: behind := by
    cases fraction with
    | nil => exact ⟨_, rfl⟩
    | cons => exact ⟨_, rfl⟩
  rw [starts] at digits ⊢
  rw [Token.scan?_of_digit isDigit, digits, length]

end FrameLang.Number
