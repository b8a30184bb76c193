import Mathlib.Algebra.Group.Nat.Defs
import Mathlib.Data.List.TakeWhile
import FrameLang.Config.Json

/-!
Whitespace and whole numbers in a JSON text. Whitespace is skipped as far as it goes, and a number
is taken as a whole one exactly if it is written without a sign, a fraction and an exponent, stays
below `2 ^ 64` and does not go on.
-/

set_option autoImplicit false

namespace FrameLang.Config.Json

/-! ### Whitespace -/

/-- Whitespace. -/
def Blanks (text : List UInt8) : Prop := ∀ b ∈ text, isBlank b = true

theorem Blanks.nil : Blanks [] := by
  intro b member
  cases member

theorem Blanks.append {first second : List UInt8} (isFirst : Blanks first)
    (isSecond : Blanks second) : Blanks (first ++ second) := by
  intro b member
  cases List.mem_append.mp member with
  | inl inFirst => exact isFirst b inFirst
  | inr inSecond => exact isSecond b inSecond

theorem skipBlanks_blanks {blanks : List UInt8} (isBlanks : Blanks blanks) :
    skipBlanks blanks = [] :=
  List.dropWhile_eq_nil_iff.mpr isBlanks

theorem skipBlanks_append {blanks : List UInt8} (isBlanks : Blanks blanks) {b : UInt8}
    (visible : isBlank b = false) (rest : List UInt8) :
    skipBlanks (blanks ++ b :: rest) = b :: rest := by
  unfold skipBlanks
  rw [List.dropWhile_append, List.dropWhile_eq_nil_iff.mpr isBlanks]
  simp [visible]

/-- What is skipped is whitespace. -/
theorem exists_blanks (bytes : List UInt8) :
    ∃ blanks, Blanks blanks ∧ bytes = blanks ++ skipBlanks bytes :=
  ⟨bytes.takeWhile isBlank, fun _ member => List.mem_takeWhile_imp member,
    List.takeWhile_append_dropWhile.symm⟩

theorem skipBlanks_eq_nil_iff {bytes : List UInt8} : skipBlanks bytes = [] ↔ Blanks bytes :=
  List.dropWhile_eq_nil_iff

theorem isBlank_of_skipBlanks {bytes rest : List UInt8} {b : UInt8}
    (skipped : skipBlanks bytes = b :: rest) : isBlank b = false := by
  have first := List.head?_dropWhile_not isBlank bytes
  unfold skipBlanks at skipped
  rw [skipped] at first
  exact first

/-- A reader that looks at the first byte behind whitespace. -/
theorem behind_blanks_eq_ok_iff {α : Type} (next : UInt8 → Reader α) {bytes : List UInt8}
    {result : α × List UInt8} :
    (match skipBlanks bytes with
      | [] => Except.error Fault.unfinished
      | b :: rest => next b rest) = .ok result ↔
    ∃ blanks b rest, Blanks blanks ∧ isBlank b = false ∧ bytes = blanks ++ b :: rest ∧
      next b rest = .ok result := by
  constructor
  · intro read
    obtain ⟨blanks, isBlanks, text⟩ := exists_blanks bytes
    cases skipped : skipBlanks bytes with
    | nil =>
        rw [skipped] at read
        cases read
    | cons b rest =>
        rw [skipped] at read text
        exact ⟨blanks, b, rest, isBlanks, isBlank_of_skipBlanks skipped, text, read⟩
  · intro ⟨blanks, b, rest, isBlanks, visible, text, read⟩
    rw [text, skipBlanks_append isBlanks visible]
    exact read

/-- A sign behind whitespace. -/
theorem sign_eq_ok_iff {sign : UInt8} (visible : isBlank sign = false) {fault : Fault}
    {bytes rest : List UInt8} :
    (match skipBlanks bytes with
      | [] => Except.error Fault.unfinished
      | b :: behind => if b = sign then .ok ((), behind) else .error fault) = .ok ((), rest) ↔
    ∃ blanks, Blanks blanks ∧ bytes = blanks ++ sign :: rest := by
  apply Iff.trans (behind_blanks_eq_ok_iff _)
  constructor
  · intro ⟨blanks, b, behind, isBlanks, _, text, read⟩
    split at read
    next same =>
      cases read
      exact ⟨blanks, isBlanks, same ▸ text⟩
    next => cases read
  · intro ⟨blanks, isBlanks, text⟩
    exact ⟨blanks, sign, rest, isBlanks, visible, text, if_pos rfl⟩

/-! ### Numbers -/

/-- A number with more decimal digits appended to it. -/
def decimalFrom (value : Nat) (digits : List UInt8) : Nat :=
  digits.foldl (fun value digit => 10 * value + (digit - byte '0').toNat) value

/-- The number that decimal digits are written for. -/
def decimal (digits : List UInt8) : Nat := decimalFrom 0 digits

/-- A whole number without a sign, a fraction and an exponent: decimal digits, of which the first
is a zero only if it stands alone. -/
structure IsWhole (digits : List UInt8) : Prop where
  nonempty : digits ≠ []
  allDigits : ∀ digit ∈ digits, isDigit digit = true
  unpadded : digits.head? = some (byte '0') → digits = [byte '0']

theorem decimalFrom_cons (value : Nat) (digit : UInt8) (digits : List UInt8) :
    decimalFrom value (digit :: digits) =
      decimalFrom (10 * value + (digit - byte '0').toNat) digits := rfl

theorem le_decimalFrom (value : Nat) (digits : List UInt8) : value ≤ decimalFrom value digits := by
  induction digits generalizing value with
  | nil => exact Nat.le_refl _
  | cons digit digits ih =>
      rw [decimalFrom_cons]
      have grown := ih (10 * value + (digit - byte '0').toNat)
      omega

theorem accumulate_count_le (significand : Nat) (digits : List UInt8) :
    (accumulate significand digits).2 ≤ digits.length := by
  induction digits generalizing significand with
  | nil => exact Nat.le_refl _
  | cons digit digits ih =>
      simp only [accumulate, List.length_cons]
      split
      · exact Nat.zero_le _
      · exact Nat.succ_le_succ (ih _)

/-- A significand takes all digits if and only if their number fits. -/
theorem accumulate_eq_iff {significand : Nat} (fits : significand < significandBound)
    (digits : List UInt8) (value : Nat) :
    accumulate significand digits = (value, digits.length) ↔
      decimalFrom significand digits = value ∧ value < significandBound := by
  induction digits generalizing significand with
  | nil =>
      simp only [accumulate, List.length_nil, Prod.mk.injEq, and_true, decimalFrom, List.foldl_nil]
      constructor
      · intro same
        exact ⟨same, same ▸ fits⟩
      · exact And.left
  | cons digit digits ih =>
      simp only [accumulate, List.length_cons, decimalFrom_cons]
      split
      next exceeds =>
        constructor
        · intro same
          cases congrArg Prod.snd same
        · intro ⟨total, below⟩
          have grown := le_decimalFrom (10 * significand + (digit - byte '0').toNat) digits
          omega
      next small =>
        rw [← ih (Nat.lt_of_not_le small)]
        simp [Prod.ext_iff]

theorem fractional_ne_whole {significand : Nat} {exponent : Int} {bytes rest : List UInt8}
    {value : Nat} : fractional significand exponent bytes ≠ .ok (some value, rest) := by
  unfold fractional
  split <;> simp

theorem exponentPart_ne_whole {significand : Nat} {exponent : Int} {bytes rest : List UInt8}
    {value : Nat} : exponentPart significand exponent bytes ≠ .ok (some value, rest) := by
  unfold exponentPart
  intro read
  split at read
  simp only at read
  split at read
  · cases read
  · cases read
  · split at read
    · split at read <;> cases read
    · exact fractional_ne_whole read

theorem fractionPart_ne_whole {significand : Nat} {exponent : Int} {bytes rest : List UInt8}
    {value : Nat} : fractionPart significand exponent bytes ≠ .ok (some value, rest) := by
  unfold fractionPart
  intro read
  simp only at read
  split at read
  · cases read
  · cases read
  · split at read
    · exact exponentPart_ne_whole read
    · exact fractional_ne_whole read
  · exact fractional_ne_whole read

/-- What follows a whole number does not make it go on. -/
def Stops (rest : List UInt8) : Prop :=
  ∀ b ∈ rest.head?, isDigit b = false ∧ b ≠ byte '.' ∧ startsExponent b = false

theorem numberTail_eq_ok_iff {positive : Bool} {significand dropped value : Nat}
    {bytes rest : List UInt8} (noDigit : ∀ b ∈ bytes.head?, isDigit b = false) :
    numberTail positive significand dropped bytes = .ok (some value, rest) ↔
      positive = true ∧ dropped = 0 ∧ significand = value ∧ bytes = rest ∧ Stops rest := by
  have ended : (if dropped = 0 then
        (.ok (if positive then some significand else none, bytes) :
          Except Fault (Option Nat × List UInt8))
      else fractional significand dropped bytes) = .ok (some value, rest) ↔
      positive = true ∧ dropped = 0 ∧ significand = value ∧ bytes = rest := by
    by_cases all : dropped = 0
    · cases positive <;> simp [all]
    · simp [all, fractional_ne_whole]
  cases bytes with
  | nil =>
      unfold numberTail
      rw [ended]
      constructor
      · intro ⟨sign, all, same, same'⟩
        exact ⟨sign, all, same, same', by simp [← same', Stops]⟩
      · intro ⟨sign, all, same, same', _⟩
        exact ⟨sign, all, same, same'⟩
  | cons b behind =>
      unfold numberTail
      have digit := noDigit b rfl
      constructor
      · intro read
        simp only at read
        split at read
        next => exact absurd read fractionPart_ne_whole
        next noPoint =>
          split at read
          next => exact absurd read exponentPart_ne_whole
          next noExponent =>
            obtain ⟨sign, all, same, same'⟩ := ended.mp read
            refine ⟨sign, all, same, same', ?_⟩
            intro c first
            cases same'
            cases first
            exact ⟨digit, noPoint, Bool.eq_false_iff.mpr noExponent⟩
      · intro ⟨sign, all, same, same', stops⟩
        cases same'
        have ⟨_, noPoint, noExponent⟩ := stops b rfl
        simp only [noPoint, noExponent, if_false, Bool.false_eq_true]
        exact ended.mpr ⟨sign, all, same, rfl⟩

/-- Leading digits are all taken, up to a byte that is none. -/
theorem split_digits {digits rest : List UInt8} (allDigits : ∀ digit ∈ digits, isDigit digit = true)
    (noDigit : ∀ b ∈ rest.head?, isDigit b = false) :
    (digits ++ rest).takeWhile isDigit = digits ∧ (digits ++ rest).dropWhile isDigit = rest := by
  rw [List.takeWhile_append_of_pos allDigits, List.dropWhile_append,
    List.dropWhile_eq_nil_iff.mpr allDigits]
  cases rest with
  | nil => simp
  | cons b rest => simp [noDigit b rfl]

theorem unsignedNumber_eq_ok_iff {positive : Bool} {value : Nat} {bytes rest : List UInt8} :
    unsignedNumber positive bytes = .ok (some value, rest) ↔
      positive = true ∧ ∃ digits, IsWhole digits ∧ decimal digits = value ∧ value < 2 ^ 64 ∧
        bytes = digits ++ rest ∧ Stops rest := by
  have zeroFits : 0 < significandBound := by decide
  constructor
  · intro read
    unfold unsignedNumber at read
    have parts : bytes = bytes.takeWhile isDigit ++ bytes.dropWhile isDigit :=
      List.takeWhile_append_dropWhile.symm
    have allDigits : ∀ digit ∈ bytes.takeWhile isDigit, isDigit digit = true :=
      fun _ member => List.mem_takeWhile_imp member
    have noDigit : ∀ b ∈ (bytes.dropWhile isDigit).head?, isDigit b = false := by
      intro b first
      have stopped := List.head?_dropWhile_not isDigit bytes
      rw [Option.mem_def.mp first] at stopped
      exact stopped
    generalize bytes.takeWhile isDigit = digits at read parts allDigits
    generalize bytes.dropWhile isDigit = behind at read parts noDigit
    simp only at read
    split at read
    next => cases read
    next => cases read
    next first more =>
      split at read
      next => cases read
      next unpadded =>
        obtain ⟨sign, all, same, same', stops⟩ := (numberTail_eq_ok_iff noDigit).mp read
        have count := accumulate_count_le 0 (first :: more)
        have taken : accumulate 0 (first :: more) = (value, (first :: more).length) :=
          Prod.ext same (by omega)
        obtain ⟨total, small⟩ := (accumulate_eq_iff zeroFits _ value).mp taken
        refine ⟨sign, first :: more, ⟨List.cons_ne_nil _ _, allDigits, ?_⟩, total, small,
          same' ▸ parts, stops⟩
        intro zero
        cases zero
        simpa using unpadded
  · intro ⟨sign, digits, whole, total, small, text, stops⟩
    have noDigit : ∀ b ∈ rest.head?, isDigit b = false := fun b first => (stops b first).1
    obtain ⟨takes, leaves⟩ := split_digits whole.allDigits noDigit
    rw [← text] at takes leaves
    have taken := (accumulate_eq_iff zeroFits digits value).mpr ⟨total, small⟩
    unfold unsignedNumber
    simp only [takes, leaves, taken, Nat.sub_self]
    cases digits with
    | nil => exact absurd rfl whole.nonempty
    | cons first more =>
        have unpadded : ¬ (first = byte '0' ∧ more ≠ []) := by
          intro ⟨zero, others⟩
          have single := whole.unpadded (congrArg some zero)
          exact others (List.cons.inj single).2
        simp only [unpadded, if_false]
        exact (numberTail_eq_ok_iff noDigit).mpr ⟨sign, rfl, rfl, rfl, stops⟩

/-- A whole number starts with a digit. -/
theorem IsWhole.exists_first {digits : List UInt8} (whole : IsWhole digits) :
    ∃ first more, digits = first :: more ∧ isDigit first = true := by
  cases digits with
  | nil => exact absurd rfl whole.nonempty
  | cons first more => exact ⟨first, more, rfl, whole.allDigits first List.mem_cons_self⟩

theorem not_isDigit_minus : isDigit (byte '-') = false := by decide

theorem isBlank_digit {b : UInt8} (digit : isDigit b = true) : isBlank b = false := by
  apply Bool.eq_false_iff.mpr
  intro blank
  simp only [isBlank, Bool.or_eq_true, beq_iff_eq, or_assoc] at blank
  rcases blank with rfl | rfl | rfl | rfl <;> exact absurd digit (by decide)

/-- A whole number is read from its digits, which have to end there. -/
theorem number_eq_ok_iff {value : Nat} {bytes rest : List UInt8} :
    number bytes = .ok (some value, rest) ↔
      ∃ digits, IsWhole digits ∧ decimal digits = value ∧ value < 2 ^ 64 ∧
        bytes = digits ++ rest ∧ Stops rest := by
  unfold number
  cases bytes with
  | nil =>
      constructor
      · intro read
        cases read
      · intro ⟨digits, whole, _, _, text, _⟩
        exact absurd (List.append_eq_nil_iff.mp text.symm).1 whole.nonempty
  | cons b behind =>
      simp only
      split
      next minus =>
        rw [unsignedNumber_eq_ok_iff]
        constructor
        · intro ⟨sign, _⟩
          cases sign
        · intro ⟨digits, whole, _, _, text, _⟩
          obtain ⟨first, more, rfl, digit⟩ := whole.exists_first
          rw [← (List.cons.inj text).1, minus, not_isDigit_minus] at digit
          cases digit
      next =>
        rw [unsignedNumber_eq_ok_iff]
        exact and_iff_right rfl

end FrameLang.Config.Json
