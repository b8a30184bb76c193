import FrameLang.Proofs.GrammarSound
import FrameLang.Proofs.RoundTrip

/-!
The grammar over tokens alone. Whether a rule derives a word depends on the tokens of the word and
not on where they stand: a phrase is a row of tokens of which every word is derived, and phrases are
put together by the same rules as words. A row of tokens is viable if symbols and the name `x` can
make a phrase of it.
-/

set_option autoImplicit false

namespace FrameLang

@[simp] theorem Symbol.lexeme_token (symbol : Symbol) (span : Span) :
    (symbol.lexeme span).token = .symbol symbol := rfl

@[simp] theorem Name.lexeme_token (name : Name) : name.lexeme.token = .identifier name.text := rfl

theorem identifier_of_tokens {word : List Lexeme} {text : String} {tokens : List Token}
    (spelled : word.map Lexeme.token = .identifier text :: tokens) :
    ∃ (name : Name) (rest : List Lexeme), word = name.lexeme :: rest ∧
      rest.map Lexeme.token = tokens := by
  obtain ⟨⟨_, span⟩, rest, rfl, rfl, spelledRest⟩ := List.map_eq_cons_iff.mp spelled
  exact ⟨⟨text, span⟩, rest, rfl, spelledRest⟩

/-- Tokens of which every word is derived, in whatever source and at whatever places it stands. -/
def Phrase {α : Type} (derives : List Char → List Lexeme → α → Prop) (tokens : List Token) : Prop :=
  ∀ (source : List Char) (word : List Lexeme), word.map Lexeme.token = tokens →
    ∃ value, derives source word value

namespace Phrase

variable {first second third : List Token}

/-! ### Phrases from phrases -/

theorem number (number : Float) : Phrase DerivesAtom [.number number] := by
  intro source word spelled
  obtain ⟨⟨_, span⟩, rest, rfl, rfl, none⟩ := List.map_eq_cons_iff.mp spelled
  cases List.map_eq_nil_iff.mp none
  exact ⟨_, .number ⟨number, span⟩⟩

theorem name (text : String) : Phrase DerivesAtom [.identifier text] := by
  intro source word spelled
  obtain ⟨read, rest, rfl, none⟩ := identifier_of_tokens spelled
  cases List.map_eq_nil_iff.mp none
  exact ⟨_, .name read⟩

theorem parens (inside : Phrase DerivesExpr first) :
    Phrase DerivesAtom (.symbol .leftParen :: (first ++ [.symbol .rightParen])) := by
  intro source word spelled
  obtain ⟨left, more, rfl, spelledMore⟩ := symbol_of_tokens spelled
  obtain ⟨inner, right, rest, rfl, spelledInner, none⟩ := parts_of_tokens spelledMore
  cases List.map_eq_nil_iff.mp none
  obtain ⟨expr, derives⟩ := inside source inner spelledInner
  exact ⟨expr, .parens derives⟩

theorem noAtoms : Phrase DerivesAtoms [] := by
  intro source word spelled
  cases List.map_eq_nil_iff.mp spelled
  exact ⟨[], .nil⟩

theorem atoms (isAtom : Phrase DerivesAtom first) (areAtoms : Phrase DerivesAtoms second) :
    Phrase DerivesAtoms (first ++ second) := by
  intro source word spelled
  obtain ⟨atomWord, row, rfl, spelledAtom, spelledRow⟩ := List.map_eq_append_iff.mp spelled
  obtain ⟨expr, derivesAtom⟩ := isAtom source atomWord spelledAtom
  obtain ⟨others, derivesOthers⟩ := areAtoms source row spelledRow
  exact ⟨_, .cons derivesAtom derivesOthers⟩

theorem atom (isAtom : Phrase DerivesAtom first) : Phrase DerivesApplication first := by
  intro source word spelled
  obtain ⟨expr, derives⟩ := isAtom source word spelled
  exact ⟨expr, .atom derives⟩

theorem callEmpty (text : String) : Phrase DerivesApplication
    [.identifier text, .symbol .leftParen, .symbol .rightParen] := by
  intro source word spelled
  obtain ⟨name, more, rfl, spelledMore⟩ := identifier_of_tokens spelled
  obtain ⟨left, last, rfl, spelledLast⟩ := symbol_of_tokens spelledMore
  obtain ⟨right, rest, rfl, none⟩ := symbol_of_tokens spelledLast
  cases List.map_eq_nil_iff.mp none
  exact ⟨_, .callEmpty rfl⟩

/-- A name in front of atoms: a call, or a variable if there is no atom. -/
theorem named (text : String) (areAtoms : Phrase DerivesAtoms first) :
    Phrase DerivesApplication (.identifier text :: first) := by
  intro source word spelled
  obtain ⟨name, row, rfl, spelledRow⟩ := identifier_of_tokens spelled
  obtain ⟨arguments, derives⟩ := areAtoms source row spelledRow
  cases arguments with
  | nil =>
      cases derives
      exact ⟨.var name, .atom (.name name)⟩
  | cons argument others =>
      exact ⟨_, .call derives (List.cons_ne_nil argument others) rfl⟩

theorem operand (isApplication : Phrase DerivesApplication first) :
    Phrase DerivesAdditive first := by
  intro source word spelled
  obtain ⟨expr, derives⟩ := isApplication source word spelled
  exact ⟨expr, .operand derives⟩

theorem operation (op : AdditiveOp) (isSum : Phrase DerivesAdditive first)
    (isApplication : Phrase DerivesApplication second) :
    Phrase DerivesAdditive (first ++ .symbol op.symbol :: second) := by
  intro source word spelled
  obtain ⟨before, sign, after, rfl, spelledBefore, spelledAfter⟩ := parts_of_tokens spelled
  obtain ⟨left, derivesLeft⟩ := isSum source before spelledBefore
  obtain ⟨right, derivesRight⟩ := isApplication source after spelledAfter
  exact ⟨_, .operation derivesLeft derivesRight rfl⟩

theorem truthy (isSum : Phrase DerivesAdditive first) : Phrase DerivesCondition first := by
  intro source word spelled
  obtain ⟨operand, derives⟩ := isSum source word spelled
  exact ⟨_, .truthy derives⟩

theorem comparison (op : Comparison) (isLeft : Phrase DerivesAdditive first)
    (isRight : Phrase DerivesAdditive second) :
    Phrase DerivesCondition (first ++ .symbol op.symbol :: second) := by
  intro source word spelled
  obtain ⟨before, sign, after, rfl, spelledBefore, spelledAfter⟩ := parts_of_tokens spelled
  obtain ⟨left, derivesLeft⟩ := isLeft source before spelledBefore
  obtain ⟨right, derivesRight⟩ := isRight source after spelledAfter
  exact ⟨_, .comparison derivesLeft derivesRight rfl⟩

theorem additive (isSum : Phrase DerivesAdditive first) : Phrase DerivesExpr first := by
  intro source word spelled
  obtain ⟨expr, derives⟩ := isSum source word spelled
  exact ⟨expr, .additive derives⟩

theorem ifThenElse (isCondition : Phrase DerivesCondition first)
    (whenTrue : Phrase DerivesExpr second) (whenFalse : Phrase DerivesExpr third) :
    Phrase DerivesExpr (.symbol .ifWord :: (first ++ .symbol .thenWord ::
      (second ++ .symbol .elseWord :: third))) := by
  intro source word spelled
  obtain ⟨ifWord, more, rfl, spelledMore⟩ := symbol_of_tokens spelled
  obtain ⟨conditionWord, thenWord, branches, rfl, spelledCondition, spelledBranches⟩ :=
    parts_of_tokens spelledMore
  obtain ⟨trueWord, elseWord, falseWord, rfl, spelledTrue, spelledFalse⟩ :=
    parts_of_tokens spelledBranches
  obtain ⟨condition, derivesCondition⟩ := isCondition source conditionWord spelledCondition
  obtain ⟨trueExpr, derivesTrue⟩ := whenTrue source trueWord spelledTrue
  obtain ⟨falseExpr, derivesFalse⟩ := whenFalse source falseWord spelledFalse
  have whole : Symbol.ifWord.lexeme ifWord :: (conditionWord ++ Symbol.thenWord.lexeme thenWord ::
        (trueWord ++ Symbol.elseWord.lexeme elseWord :: falseWord)) =
      Symbol.ifWord.lexeme ifWord :: conditionWord ++ Symbol.thenWord.lexeme thenWord ::
        trueWord ++ Symbol.elseWord.lexeme elseWord :: falseWord := by
    simp only [List.cons_append, List.append_assoc]
  exact ⟨_, .ifThenElse derivesCondition derivesTrue derivesFalse whole⟩

theorem header (text : String) (isRow : Phrase (fun _ => DerivesRow) first)
    (isValue : Phrase DerivesExpr second) :
    Phrase DerivesHeader (.symbol .letWord :: .identifier text ::
      (first ++ .symbol .assign :: second)) := by
  intro source word spelled
  obtain ⟨letWord, more, rfl, spelledMore⟩ := symbol_of_tokens spelled
  obtain ⟨name, behind, rfl, spelledBehind⟩ := identifier_of_tokens spelledMore
  obtain ⟨row, assign, valueWord, rfl, spelledRow, spelledValue⟩ := parts_of_tokens spelledBehind
  obtain ⟨declared, derivesRow⟩ := isRow source row spelledRow
  obtain ⟨value, derivesValue⟩ := isValue source valueWord spelledValue
  exact ⟨_, .binding derivesRow derivesValue rfl⟩

theorem binding (isHeader : Phrase DerivesHeader first) (isBody : Phrase DerivesExpr second) :
    Phrase DerivesExpr (first ++ .symbol .inWord :: second) := by
  intro source word spelled
  obtain ⟨headerWord, inWord, bodyWord, rfl, spelledHeader, spelledBody⟩ := parts_of_tokens spelled
  obtain ⟨_, derives⟩ := isHeader source headerWord spelledHeader
  obtain ⟨body, derivesBody⟩ := isBody source bodyWord spelledBody
  cases derives with
  | @binding _ _ declared _ _ _ _ derivesRow derivesValue whole =>
      cases declared with
      | none =>
          cases derivesRow
          exact ⟨_, .letIn derivesValue derivesBody whole rfl⟩
      | some parameters => exact ⟨_, .lambda derivesRow derivesValue derivesBody whole rfl⟩

theorem function (text : String) (isRow : Phrase (fun _ => DerivesParameters) first)
    (isValue : Phrase DerivesExpr second) :
    Phrase DerivesDeclaration (.symbol .letWord :: .identifier text ::
      (first ++ .symbol .assign :: second)) := by
  intro source word spelled
  obtain ⟨letWord, more, rfl, spelledMore⟩ := symbol_of_tokens spelled
  obtain ⟨name, behind, rfl, spelledBehind⟩ := identifier_of_tokens spelledMore
  obtain ⟨row, assign, valueWord, rfl, spelledRow, spelledValue⟩ := parts_of_tokens spelledBehind
  obtain ⟨parameters, derivesRow⟩ := isRow source row spelledRow
  obtain ⟨value, derivesValue⟩ := isValue source valueWord spelledValue
  exact ⟨_, .function derivesRow derivesValue rfl⟩

theorem expression (isExpr : Phrase DerivesExpr first) : Phrase DerivesDeclaration first := by
  intro source word spelled
  obtain ⟨expr, derives⟩ := isExpr source word spelled
  exact ⟨_, .expression derives⟩

theorem empty : Phrase DerivesProgram [] := by
  intro source word spelled
  cases List.map_eq_nil_iff.mp spelled
  exact ⟨[], .empty⟩

theorem last (isDeclaration : Phrase DerivesDeclaration first) : Phrase DerivesProgram first := by
  intro source word spelled
  obtain ⟨declaration, derives⟩ := isDeclaration source word spelled
  exact ⟨_, .last derives⟩

theorem next (isDeclaration : Phrase DerivesDeclaration first)
    (isProgram : Phrase DerivesProgram second) :
    Phrase DerivesProgram (first ++ .symbol .semicolon :: second) := by
  intro source word spelled
  obtain ⟨front, semicolon, rest, rfl, spelledFront, spelledRest⟩ := parts_of_tokens spelled
  obtain ⟨declaration, derives⟩ := isDeclaration source front spelledFront
  obtain ⟨others, derivesOthers⟩ := isProgram source rest spelledRest
  exact ⟨_, .next derives derivesOthers rfl⟩

end Phrase

/-!
### Words are phrases

What is derived at one place is derived at every place. There is one case for each rule, and the
rule for phrases puts the parts together again.
-/

theorem DerivesParameters.phrase {word : List Lexeme} {parameters : List Name}
    (derives : DerivesParameters word parameters) :
    Phrase (fun _ => DerivesParameters) (word.map Lexeme.token) := by
  intro source other spelled
  cases derives with
  | empty =>
      obtain ⟨left, last, rfl, spelledLast⟩ := symbol_of_tokens spelled
      obtain ⟨right, rest, rfl, none⟩ := symbol_of_tokens spelledLast
      cases List.map_eq_nil_iff.mp none
      exact ⟨[], .empty⟩
  | names nonempty =>
      have tokens : (parameters.map Name.lexeme).map Lexeme.token =
          parameters.map fun name => .identifier name.text := List.map_map
      obtain ⟨read, rfl, same⟩ := names_of_tokens (spelled.trans tokens)
      have some : read ≠ [] := by
        intro none
        cases none
        exact nonempty (List.map_eq_nil_iff.mp same.symm)
      exact ⟨read, .names some⟩

theorem DerivesRow.phrase {row : List Lexeme} {declared : Option (List Name)}
    (derives : DerivesRow row declared) : Phrase (fun _ => DerivesRow) (row.map Lexeme.token) := by
  intro source other spelled
  cases declared with
  | none =>
      cases derives
      exact ⟨none, List.map_eq_nil_iff.mp spelled⟩
  | some parameters =>
      obtain ⟨read, derivesOther⟩ := DerivesParameters.phrase derives source other spelled
      exact ⟨some read, derivesOther⟩

mutual

theorem DerivesAtom.phrase {source : List Char} {word : List Lexeme} {expr : Expr}
    (derives : DerivesAtom source word expr) : Phrase DerivesAtom (word.map Lexeme.token) := by
  match derives with
  | .number value => exact .number value.number
  | .name name => exact .name name.text
  | .parens derives =>
      have inside := DerivesExpr.phrase derives
      rw [List.cons_append, List.map_cons, List.map_append]
      exact inside.parens

theorem DerivesAtoms.phrase {source : List Char} {word : List Lexeme} {arguments : List Expr}
    (derives : DerivesAtoms source word arguments) :
    Phrase DerivesAtoms (word.map Lexeme.token) := by
  match derives with
  | .nil => exact .noAtoms
  | .cons derives others =>
      have first := DerivesAtom.phrase derives
      have rest := DerivesAtoms.phrase others
      rw [List.map_append]
      exact first.atoms rest

theorem DerivesApplication.phrase {source : List Char} {word : List Lexeme} {expr : Expr}
    (derives : DerivesApplication source word expr) :
    Phrase DerivesApplication (word.map Lexeme.token) := by
  match derives with
  | @DerivesApplication.callEmpty _ _ _ _ name whole =>
      rw [whole]
      exact .callEmpty name.text
  | @DerivesApplication.call _ _ _ _ name derives _ whole =>
      have row := DerivesAtoms.phrase derives
      rw [whole]
      exact .named name.text row
  | .atom derives => exact .atom (DerivesAtom.phrase derives)

theorem DerivesAdditive.phrase {source : List Char} {word : List Lexeme} {expr : Expr}
    (derives : DerivesAdditive source word expr) :
    Phrase DerivesAdditive (word.map Lexeme.token) := by
  match derives with
  | .operand derives => exact .operand (DerivesApplication.phrase derives)
  | @DerivesAdditive.operation _ _ _ _ _ _ _ op left right whole =>
      have before := DerivesAdditive.phrase left
      have after := DerivesApplication.phrase right
      rw [whole, List.map_append, List.map_cons]
      exact .operation op before after

theorem DerivesCondition.phrase {source : List Char} {word : List Lexeme} {condition : Condition}
    (derives : DerivesCondition source word condition) :
    Phrase DerivesCondition (word.map Lexeme.token) := by
  match derives with
  | .truthy derives => exact .truthy (DerivesAdditive.phrase derives)
  | @DerivesCondition.comparison _ _ _ _ _ _ _ op left right whole =>
      have before := DerivesAdditive.phrase left
      have after := DerivesAdditive.phrase right
      rw [whole, List.map_append, List.map_cons]
      exact .comparison op before after

theorem DerivesExpr.phrase {source : List Char} {word : List Lexeme} {expr : Expr}
    (derives : DerivesExpr source word expr) : Phrase DerivesExpr (word.map Lexeme.token) := by
  match derives with
  | @DerivesExpr.letIn _ _ _ _ _ _ _ _ _ _ name value body header whole =>
      have noRow : DerivesRow [] none := rfl
      have valuePhrase := DerivesExpr.phrase value
      have bodyPhrase := DerivesExpr.phrase body
      rw [whole, header, List.map_append, List.map_cons]
      exact .binding (.header name.text noRow.phrase valuePhrase) bodyPhrase
  | @DerivesExpr.lambda _ _ _ _ row parameters _ _ _ _ _ _ name derivesRow value body header
      whole =>
      have isRow : DerivesRow row (some parameters) := derivesRow
      have valuePhrase := DerivesExpr.phrase value
      have bodyPhrase := DerivesExpr.phrase body
      rw [whole, header, List.map_append, List.map_cons, List.map_append]
      exact .binding (.header name.text isRow.phrase valuePhrase) bodyPhrase
  | .ifThenElse condition whenTrue whenFalse whole =>
      have conditionPhrase := DerivesCondition.phrase condition
      have truePhrase := DerivesExpr.phrase whenTrue
      have falsePhrase := DerivesExpr.phrase whenFalse
      simp only [whole, List.map_append, List.map_cons, List.cons_append, List.append_assoc]
      exact .ifThenElse conditionPhrase truePhrase falsePhrase
  | .additive derives => exact .additive (DerivesAdditive.phrase derives)

end

theorem DerivesHeader.phrase {source : List Char} {word : List Lexeme} {header : Parser.Header}
    (derives : DerivesHeader source word header) :
    Phrase DerivesHeader (word.map Lexeme.token) := by
  cases derives with
  | @binding _ _ _ _ _ _ name derivesRow derivesValue whole =>
      rw [whole, List.map_append, List.map_cons]
      exact .header name.text derivesRow.phrase derivesValue.phrase

theorem DerivesDeclaration.phrase {source : List Char} {word : List Lexeme}
    {declaration : Declaration} (derives : DerivesDeclaration source word declaration) :
    Phrase DerivesDeclaration (word.map Lexeme.token) := by
  cases derives with
  | @function _ _ _ _ _ _ name derivesRow derivesValue whole =>
      rw [whole, List.map_append, List.map_cons]
      exact .function name.text derivesRow.phrase derivesValue.phrase
  | expression derives => exact .expression derives.phrase

/-!
### Rows that can be completed
-/

/-- The tokens that complete rows: symbols and one name. -/
inductive Filler : Token → Prop where
  | symbol (symbol : Symbol) : Filler (.symbol symbol)
  | name : Filler (.identifier "x")

attribute [simp] Filler.symbol Filler.name

/-- Tokens that fillers make a phrase of. -/
def Viable {α : Type} (derives : List Char → List Lexeme → α → Prop) (tokens : List Token) : Prop :=
  ∃ more : List Token, (∀ token ∈ more, Filler token) ∧ Phrase derives (tokens ++ more)

theorem Phrase.viable {α : Type} {derives : List Char → List Lexeme → α → Prop}
    {tokens : List Token} (phrase : Phrase derives tokens) : Viable derives tokens := by
  refine ⟨[], ?_, ?_⟩
  · intro token member
    cases member
  · rw [List.append_nil]
    exact phrase

/-- What completes a phrase and then closes what is open around it. -/
theorem Viable.enclosed {α β : Type} {inner : List Char → List Lexeme → α → Prop}
    {outer : List Char → List Lexeme → β → Prop} {before tokens closing : List Token}
    (viable : Viable inner tokens) (fillers : ∀ token ∈ closing, Filler token)
    (closes : ∀ phrase, Phrase inner phrase → Phrase outer (before ++ (phrase ++ closing))) :
    Viable outer (before ++ tokens) := by
  obtain ⟨more, areFillers, phrase⟩ := viable
  refine ⟨more ++ closing, ?_, ?_⟩
  · intro token member
    cases List.mem_append.mp member with
    | inl inMore => exact areFillers token inMore
    | inr inClosing => exact fillers token inClosing
  · have closed := closes _ phrase
    rw [List.append_assoc] at closed ⊢
    exact closed

end FrameLang
