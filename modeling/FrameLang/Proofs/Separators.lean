import FrameLang.Proofs.Programs

/-!
Separators between declarations. A program is a row of declarations with a separator between each
two of them, and one more separator may stand at the end. Each declaration is a word that the parser
takes as a whole when it stands alone, so what follows a separator has no influence on what is read
before it. A separator without any declaration is no program, though the rule program :=
(declaration (';' declaration)*)? ';'? has room for it.
-/

set_option autoImplicit false

namespace FrameLang

variable {source : List Char}

/-- The word is made of words that each are taken as one declaration, with a separator between each
two of them. -/
inductive Separated (source : List Char) : List Lexeme → List Declaration → Prop where
  | single {word value} :
      Parser.declaration source word = .ok (value, []) → Separated source word [value]
  | cons {first value semicolon rest others} :
      Parser.declaration source first = .ok (value, []) → Separated source rest others →
      Separated source (first ++ Symbol.semicolon.lexeme semicolon :: rest) (value :: others)

/-- The rule for programs: declarations with separators between them, or none at all, and then
perhaps one more separator. -/
inductive ProgramRule (source : List Char) (lexemes : List Lexeme)
    (declarations : List Declaration) : Prop where
  | intro {body trailing} :
      lexemes = body ++ trailing →
      Separated source body declarations ∨ (body = [] ∧ declarations = []) →
      trailing = [] ∨ (∃ semicolon, trailing = [Symbol.semicolon.lexeme semicolon]) →
      ProgramRule source lexemes declarations

theorem Separated.length_pos {body : List Lexeme} {declarations : List Declaration}
    (separated : Separated source body declarations) : 0 < body.length := by
  cases separated with
  | single accepted => exact (Parser.derives_of_reads accepted).length_pos
  | cons accepted _ =>
      have first := (Parser.derives_of_reads accepted).length_pos
      rw [List.length_append]
      exact Nat.add_pos_left first _

theorem Separated.derivesProgram {body trailing : List Lexeme} {declarations : List Declaration}
    (separated : Separated source body declarations)
    (ends : trailing = [] ∨ ∃ semicolon, trailing = [Symbol.semicolon.lexeme semicolon]) :
    DerivesProgram source (body ++ trailing) declarations := by
  induction separated with
  | single accepted =>
      have derives := Parser.derives_of_reads accepted
      rcases ends with rfl | ⟨semicolon, rfl⟩
      · rw [List.append_nil]
        exact .last derives
      · exact .next derives .empty rfl
  | cons accepted _ ih =>
      rw [List.append_assoc]
      exact .next (Parser.derives_of_reads accepted) ih rfl

/-- A declaration is missing in front of the separator. -/
theorem Parser.declarations_semicolon (semicolon : Span) (rest : List Lexeme) :
    declarations source (Symbol.semicolon.lexeme semicolon :: rest) =
      .error ⟨.unexpected .expression (some semicolon.text), semicolon⟩ := rfl

theorem DerivesProgram.ne_semicolon {lexemes : List Lexeme} {declarations : List Declaration}
    (derives : DerivesProgram source lexemes declarations) (semicolon : Span) :
    lexemes ≠ [Symbol.semicolon.lexeme semicolon] := by
  rintro rfl
  have accepted := Parser.declarations_eq_ok_iff.mpr derives
  rw [Parser.declarations_semicolon] at accepted
  cases accepted

theorem DerivesProgram.programRule {lexemes : List Lexeme} {declarations : List Declaration}
    (derives : DerivesProgram source lexemes declarations) :
    ProgramRule source lexemes declarations := by
  induction derives with
  | empty => exact .intro (List.append_nil []).symm (.inr ⟨rfl, rfl⟩) (.inl rfl)
  | last derives =>
      have accepted := Parser.reads_of_derives derives
      exact .intro (List.append_nil _).symm (.inl (.single accepted)) (.inl rfl)
  | @next word first value semicolon rest others derives later whole ih =>
      have accepted := Parser.reads_of_derives derives
      cases ih with
      | @intro body trailing split parts ends =>
        subst split
        rcases parts with separated | ⟨rfl, rfl⟩
        · have joined :
              word = (first ++ Symbol.semicolon.lexeme semicolon :: body) ++ trailing := by
            rw [whole, List.append_assoc, List.cons_append]
          exact .intro joined (.inl (.cons accepted separated)) ends
        · -- Nothing is left behind the separator, for a second one would stand alone there.
          rcases ends with rfl | ⟨another, rfl⟩
          · exact .intro whole (.inl (.single accepted)) (.inr ⟨semicolon, rfl⟩)
          · exact absurd rfl (later.ne_semicolon another)

/-- A row of lexemes is read as a program exactly if it is made of words that are each taken as one
declaration, with a separator between each two of them and perhaps one at the end, and these
declarations are returned in order. The only row that the rule allows and that is refused is a
separator without a declaration. -/
theorem programs_are_separated_declarations (source : List Char) :
    (∀ lexemes declarations,
      Parser.declarations source lexemes = .ok declarations ↔
        ProgramRule source lexemes declarations ∧
          ∀ semicolon, lexemes ≠ [Symbol.semicolon.lexeme semicolon]) ∧
    ∀ semicolon,
      Parser.declarations source [Symbol.semicolon.lexeme semicolon] =
        .error ⟨.unexpected .expression (some semicolon.text), semicolon⟩ := by
  constructor
  · intro lexemes declarations
    rw [Parser.declarations_eq_ok_iff]
    constructor
    · intro derives
      exact ⟨derives.programRule, derives.ne_semicolon⟩
    · rintro ⟨⟨split, separated | ⟨rfl, rfl⟩, ends⟩, notAlone⟩
      · exact split ▸ separated.derivesProgram ends
      · rcases ends with rfl | ⟨semicolon, rfl⟩
        · exact split ▸ .empty
        · exact absurd split (notAlone semicolon)
  · intro semicolon
    exact Parser.declarations_semicolon semicolon []

/-- The rule allows a separator without a declaration, and the parser does not. -/
theorem lone_separator_is_no_program :
    ¬ ∀ (source : List Char) (lexemes : List Lexeme) (declarations : List Declaration),
        Parser.declarations source lexemes = .ok declarations ↔
          ProgramRule source lexemes declarations := by
  intro decides
  have allowed : ProgramRule [';'] [Symbol.semicolon.lexeme ⟨0, 1, ";"⟩] [] :=
    .intro (List.nil_append _).symm (.inr ⟨rfl, rfl⟩) (.inr ⟨_, rfl⟩)
  have accepted := (decides _ _ _).mpr allowed
  cases accepted

end FrameLang
