import FrameLang.Proofs.GrammarComplete
import FrameLang.Proofs.Lexing

/-!
Whole programs: what `parse` accepts are the texts whose lexemes make up declarations with separators
between them.
-/

set_option autoImplicit false

namespace FrameLang

theorem DerivesDeclaration.length_pos {source : List Char} {word : List Lexeme}
    {declaration : Declaration} (derives : DerivesDeclaration source word declaration) :
    0 < word.length := by
  cases derives with
  | function _ _ whole =>
      rw [whole]
      exact Nat.zero_lt_succ _
  | expression derives => exact derives.length_pos

namespace Parser

variable {source : List Char}

theorem declarationsWithin_derives {count : Nat} {lexemes : List Lexeme}
    {declarations : List Declaration} (enough : lexemes.length ≤ count)
    (read : declarationsWithin source count lexemes = .ok declarations) :
    DerivesProgram source lexemes declarations := by
  induction count generalizing lexemes declarations with
  | zero =>
      cases List.eq_nil_of_length_eq_zero (Nat.le_zero.mp enough)
      cases read
      exact .empty
  | succ count ih =>
      cases lexemes with
      | nil =>
          cases read
          exact .empty
      | cons lexeme lexemes =>
          obtain ⟨⟨first, rest⟩, readFirst, later⟩ := except_bind_eq_ok_iff.mp read
          obtain ⟨word, whole, derives⟩ := declaration_accepts readFirst
          dsimp only at later
          split at later
          · cases later
            rw [whole, List.append_nil]
            exact .last derives
          next semicolon behind =>
            obtain ⟨others, readOthers, same⟩ := except_bind_eq_ok_iff.mp later
            cases same
            have shorter : behind.length ≤ count := by
              have total := congrArg List.length whole
              simp only [List.length_append, List.length_cons] at total enough
              omega
            exact .next derives (ih shorter readOthers) whole
          · cases later

/-- A declaration is read up to the separator behind it. -/
theorem declaration_until_semicolon {word : List Lexeme} {value : Declaration}
    (derives : DerivesDeclaration source word value) (semicolon : Span) (rest : List Lexeme) :
    declaration source (word ++ Symbol.semicolon.lexeme semicolon :: rest) =
      .ok (value, Symbol.semicolon.lexeme semicolon :: rest) := by
  refine declaration_reads derives (.symbol .semicolon trivial semicolon rest) ?_
  rintro inWord more same
  cases same

theorem declarationsWithin_next {word : List Lexeme} {value : Declaration}
    (derives : DerivesDeclaration source word value) (count : Nat) (semicolon : Span)
    (rest : List Lexeme) :
    declarationsWithin source (count + 1) (word ++ Symbol.semicolon.lexeme semicolon :: rest) =
      (declarationsWithin source count rest).map (value :: ·) := by
  obtain ⟨lexeme, more, rfl⟩ := List.exists_cons_of_length_pos derives.length_pos
  rw [List.cons_append, declarationsWithin, ← List.cons_append,
    declaration_until_semicolon derives semicolon rest, except_ok_bind]
  dsimp only [Symbol.lexeme]
  cases declarationsWithin source count rest <;> rfl

theorem declarationsWithin_of_derives {count : Nat} {lexemes : List Lexeme}
    {declarations : List Declaration} (derives : DerivesProgram source lexemes declarations)
    (enough : lexemes.length ≤ count) :
    declarationsWithin source count lexemes = .ok declarations := by
  induction derives generalizing count with
  | empty => cases count <;> rfl
  | @last word value derives =>
      have pos := derives.length_pos
      obtain ⟨lexeme, more, rfl⟩ := List.exists_cons_of_length_pos pos
      cases count with
      | zero => cases enough
      | succ count =>
          rw [declarationsWithin, reads_of_derives derives, except_ok_bind]
          rfl
  | @next word first value semicolon rest others derives _ whole ih =>
      subst whole
      simp only [List.length_append, List.length_cons] at enough
      cases count with
      | zero => omega
      | succ count =>
          rw [declarationsWithin_next derives, ih (by omega)]
          rfl

theorem declarations_eq_ok_iff {lexemes : List Lexeme} {read : List Declaration} :
    declarations source lexemes = .ok read ↔ DerivesProgram source lexemes read :=
  ⟨declarationsWithin_derives (Nat.le_refl _),
    fun derives => declarationsWithin_of_derives derives (Nat.le_refl _)⟩

end Parser

theorem parse_eq_ok_iff {source : String} {declarations : List Declaration} :
    parse source = .ok declarations ↔
      ∃ lexemes, Lexes 0 source.toList lexemes ∧
        DerivesProgram source.toList lexemes declarations := by
  rw [parse, except_bind_eq_ok_iff]
  simp only [Lexeme.ofSource, Lexeme.ofCharsFrom_eq_ok_iff, Parser.declarations_eq_ok_iff]

end FrameLang
