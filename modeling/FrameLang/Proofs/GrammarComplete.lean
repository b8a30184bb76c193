import FrameLang.Proofs.GrammarSound

/-!
Every word of the grammar is read. A loop of the parser takes as much as it can, so a word is read
as a whole only if nothing that could continue it comes behind; in the grammar nothing ever does.
As the parser yields one result, a word stands for one tree.
-/

set_option autoImplicit false

namespace FrameLang

open FrameLang.Parser

/-- Neither an atom nor the sign of a sum comes next, so a sum ends here. -/
structure EndsExpr (rest : List Lexeme) : Prop where
  noAtom : startsAtom rest = false
  noSign : additiveOp? rest = none

theorem EndsExpr.nil : EndsExpr [] := ⟨rfl, rfl⟩

/-- The symbols in front of which an expression ends. -/
def Symbol.Closes : Symbol → Prop
  | leftParen | plus | minus => False
  | _ => True

theorem EndsExpr.symbol (symbol : Symbol) (closes : symbol.Closes) (span : Span)
    (more : List Lexeme) : EndsExpr (symbol.lexeme span :: more) := by
  cases symbol <;> first | exact closes.elim | exact ⟨rfl, rfl⟩

theorem Comparison.closes (op : Comparison) : op.symbol.Closes := by
  cases op <;> trivial

/-!
## First lexemes
-/

section First

variable {source : List Char} {word : List Lexeme} {expr : Expr}

theorem DerivesAtom.startsAtom (derives : DerivesAtom source word expr) (rest : List Lexeme) :
    startsAtom (word ++ rest) = true := by
  cases derives <;> rfl

theorem DerivesApplication.startsAtom (derives : DerivesApplication source word expr)
    (rest : List Lexeme) : Parser.startsAtom (word ++ rest) = true := by
  cases derives with
  | callEmpty whole | call _ _ whole => subst whole; rfl
  | atom derives => exact derives.startsAtom rest

theorem ne_nil_of_startsAtom (starts : Parser.startsAtom (word ++ []) = true) : word ≠ [] := by
  rintro rfl
  cases starts

theorem DerivesAtom.length_pos (derives : DerivesAtom source word expr) : 0 < word.length :=
  List.length_pos_iff.mpr (ne_nil_of_startsAtom (derives.startsAtom []))

end First

theorem DerivesAdditive.startsAtom {source : List Char} {word : List Lexeme} {expr : Expr}
    (derives : DerivesAdditive source word expr) (rest : List Lexeme) :
    Parser.startsAtom (word ++ rest) = true := by
  match derives with
  | .operand derives => exact derives.startsAtom rest
  | .operation before _ whole =>
      rw [whole, List.append_assoc]
      exact before.startsAtom _

/-- No expression starts with a closing parenthesis, so `( )` is never the start of an atom. -/
theorem DerivesExpr.ne_closing {source : List Char} {word : List Lexeme} {expr : Expr}
    (derives : DerivesExpr source word expr) (rest : List Lexeme) (right : Span)
    (more : List Lexeme) : word ++ rest ≠ Symbol.rightParen.lexeme right :: more := by
  intro same
  cases derives with
  | letIn _ _ _ whole | lambda _ _ _ _ whole | ifThenElse _ _ _ whole =>
      subst_vars
      cases same
  | additive derives =>
      have starts := derives.startsAtom rest
      rw [same] at starts
      cases starts

theorem DerivesExpr.length_pos {source : List Char} {word : List Lexeme} {expr : Expr}
    (derives : DerivesExpr source word expr) : 0 < word.length := by
  cases derives with
  | letIn _ _ header whole | lambda _ _ _ header whole =>
      rw [whole, header]
      exact Nat.zero_lt_succ _
  | ifThenElse _ _ _ whole =>
      rw [whole]
      exact Nat.zero_lt_succ _
  | additive derives =>
      exact List.length_pos_iff.mpr (ne_nil_of_startsAtom (derives.startsAtom []))

namespace Parser

/-!
## Steps of the parser
-/

section Steps

variable {source : List Char} {nested : Parser Expr}

theorem expect_lexeme (symbol : Symbol) (wanted : Expectation) (span : Span)
    (rest : List Lexeme) :
    expect source symbol wanted (symbol.lexeme span :: rest) = .ok ((), rest) :=
  if_pos rfl

theorem identifier_lexeme (name : Name) (rest : List Lexeme) :
    identifier source (name.lexeme :: rest) = .ok (name, rest) := rfl

theorem identifiers_map {rest : List Lexeme} (noAtom : startsAtom rest = false)
    (names : List Name) : identifiers (names.map Name.lexeme ++ rest) = (names, rest) := by
  induction names with
  | nil =>
      rw [List.map_nil, List.nil_append, identifiers]
      rintro name span more rfl
      cases noAtom
  | cons name names ih =>
      rw [List.map_cons, List.cons_append, Name.lexeme, identifiers, ih]

theorem parameters_row {row : List Lexeme} {declared : Option (List Name)}
    (derives : DerivesRow row declared) (assign : Span) (more : List Lexeme) :
    parameters (row ++ Symbol.assign.lexeme assign :: more) =
      (declared, Symbol.assign.lexeme assign :: more) := by
  cases declared with
  | none =>
      cases derives
      rfl
  | some names =>
      cases derives with
      | empty => rfl
      | names some =>
          obtain ⟨first, others, rfl⟩ := List.exists_cons_of_ne_nil some
          have row : identifiers
              ((first :: others).map Name.lexeme ++ Symbol.assign.lexeme assign :: more) =
              (first :: others, Symbol.assign.lexeme assign :: more) := identifiers_map rfl _
          rw [parameters, row]
          intro left right rest same
          cases same

end Steps

/-!
## Words of one layer

A layer of the grammar is read as a whole when the parser for nested expressions reads the words of
the expressions nested in it. Those are at least one lexeme shorter than the layer.
-/

/-- The parser reads every expression of at most `bound` lexemes. -/
def Reads (source : List Char) (bound : Nat) (parser : Parser Expr) : Prop :=
  ∀ word expr rest, DerivesExpr source word expr → word.length ≤ bound → EndsExpr rest →
    parser (word ++ rest) = .ok (expr, rest)

section Layer

variable {source : List Char} {bound : Nat} {nested : Parser Expr}

theorem atom_reads (reads : Reads source bound nested) {word : List Lexeme} {expr : Expr}
    (derives : DerivesAtom source word expr) (short : word.length ≤ bound + 1)
    (rest : List Lexeme) : atom source nested (word ++ rest) = .ok (expr, rest) := by
  cases derives with
  | number value => rfl
  | name name => rfl
  | @parens left inner _ right derives =>
      have within : inner.length ≤ bound := by
        simp only [List.length_append, List.length_cons, List.length_nil] at short
        omega
      have behind := reads inner expr (Symbol.rightParen.lexeme right :: rest) derives within
        (.symbol .rightParen trivial right rest)
      have split : Symbol.leftParen.lexeme left :: inner ++ [Symbol.rightParen.lexeme right] ++
          rest = Symbol.leftParen.lexeme left ::
            (inner ++ Symbol.rightParen.lexeme right :: rest) := by
        simp only [List.cons_append, List.nil_append, List.append_assoc]
      rw [split, Symbol.lexeme, atom, behind, except_ok_bind]
      rfl

theorem atoms_read (reads : Reads source bound nested) {row : List Lexeme} {arguments : List Expr}
    (derives : DerivesAtoms source row arguments) (short : row.length ≤ bound + 1) {count : Nat}
    (enough : row.length ≤ count) {rest : List Lexeme} (noAtom : startsAtom rest = false) :
    atoms source nested count (row ++ rest) = .ok (arguments, rest) := by
  induction count generalizing row arguments with
  | zero =>
      cases derives with
      | nil => rfl
      | cons derivesFirst _ =>
          have pos := derivesFirst.length_pos
          rw [List.length_append] at enough
          omega
  | succ count ih =>
      cases derives with
      | nil => rw [List.nil_append, atoms, noAtom]; rfl
      | @cons word first more others derivesFirst derivesOthers =>
          have pos := derivesFirst.length_pos
          rw [List.length_append] at short enough
          have head := atom_reads reads derivesFirst (by omega) (more ++ rest)
          have tail : atoms source nested count (more ++ rest) = .ok (others, rest) :=
            ih derivesOthers (by omega) (by omega)
          rw [List.append_assoc, atoms, if_pos (derivesFirst.startsAtom _), head, except_ok_bind]
          dsimp only
          rw [tail]
          rfl

/-- A row of atoms never starts with empty parentheses. -/
theorem atoms_ne_parens {row : List Lexeme} {arguments : List Expr}
    (derives : DerivesAtoms source row arguments) {rest : List Lexeme}
    (noAtom : startsAtom rest = false) (left right : Span) (more : List Lexeme) :
    row ++ rest ≠ Symbol.leftParen.lexeme left :: Symbol.rightParen.lexeme right :: more := by
  intro same
  cases derives with
  | nil =>
      rw [List.nil_append] at same
      subst same
      cases noAtom
  | cons derives others =>
      cases derives with
      | number | name => cases same
      | parens derives =>
          simp only [List.cons_append, List.append_assoc, List.cons.injEq] at same
          exact derives.ne_closing _ _ _ same.2

theorem application_name (reads : Reads source bound nested) (name : Name) {row : List Lexeme}
    {arguments : List Expr} (derives : DerivesAtoms source row arguments)
    (short : row.length ≤ bound + 1) {rest : List Lexeme} (noAtom : startsAtom rest = false) :
    application source nested (name.lexeme :: row ++ rest) =
      .ok (match arguments with
        | [] => .var name
        | arguments => .call name arguments (extent source (name.lexeme :: row)), rest) := by
  have enough : row.length ≤ (row ++ rest).length := by
    rw [List.length_append]
    exact Nat.le_add_right ..
  rw [← between_append source (name.lexeme :: row) rest, List.cons_append, Name.lexeme, application]
  · rw [identifier, except_ok_bind]
    dsimp only
    rw [atoms_read reads derives short enough noAtom, except_ok_bind]
    cases arguments <;> rfl
  · exact atoms_ne_parens derives noAtom

theorem application_reads (reads : Reads source bound nested) {word : List Lexeme} {expr : Expr}
    (derives : DerivesApplication source word expr) (short : word.length ≤ bound + 1)
    {rest : List Lexeme} (noAtom : startsAtom rest = false) :
    application source nested (word ++ rest) = .ok (expr, rest) := by
  cases derives with
  | callEmpty whole =>
      rw [← between_append source word rest, whole]
      rfl
  | @call _ row arguments name derives some whole =>
      subst whole
      rw [application_name reads name derives (Nat.le_of_succ_le short) noAtom]
      cases arguments with
      | nil => exact absurd rfl some
      | cons => rfl
  | atom derives =>
      cases derives with
      | number value => exact atom_reads reads (.number value) short rest
      | parens derives => exact atom_reads reads (.parens derives) short rest
      | name name => exact application_name reads name .nil (Nat.zero_le _) noAtom

theorem additiveOp?_symbol (op : AdditiveOp) (sign : Span) (rest : List Lexeme) :
    additiveOp? (op.symbol.lexeme sign :: rest) = some (op, rest) := by
  cases op <;> rfl

theorem comparison?_symbol (op : Comparison) (sign : Span) (rest : List Lexeme) :
    comparison? (op.symbol.lexeme sign :: rest) = some (op, rest) := by
  cases op <;> rfl

theorem additiveRest_of_noSign {rest : List Lexeme} (noSign : additiveOp? rest = none)
    (lexemes : List Lexeme) (count : Nat) (left : Expr) :
    additiveRest source nested lexemes count left rest = .ok (left, rest) := by
  cases count with
  | zero => rfl
  | succ count => rw [additiveRest, noSign]

end Layer

/-- Reading a sum comes to the end of every word that the whole sum starts with, and may go on from
there as long as there are lexemes. -/
theorem additive_reaches {source : List Char} {bound : Nat} {nested : Parser Expr}
    (reads : Reads source bound nested) {word : List Lexeme} {expr : Expr}
    (derives : DerivesAdditive source word expr) (short : word.length ≤ bound + 1)
    {rest : List Lexeme} (noAtom : startsAtom rest = false) :
    ∃ count, rest.length ≤ count ∧ additive source nested (word ++ rest) =
      additiveRest source nested (word ++ rest) count expr rest := by
  -- The operand in front of the last sign is a shorter word.
  induction size : word.length using Nat.strongRecOn generalizing word expr rest with
  | ind size ih =>
      subst size
      cases derives with
      | operand derives =>
          refine ⟨rest.length, Nat.le_refl _, ?_⟩
          rw [additive, application_reads reads derives short noAtom]
          rfl
      | @operation _ before left after right sign op derivesLeft derivesRight whole =>
          subst whole
          rw [List.length_append, List.length_cons] at short
          have signNoAtom : startsAtom (op.symbol.lexeme sign :: (after ++ rest)) = false := by
            cases op <;> rfl
          have shorter : before.length < (before ++ op.symbol.lexeme sign :: after).length := by
            rw [List.length_append, List.length_cons]
            omega
          obtain ⟨count, room, reached⟩ := ih _ shorter derivesLeft (by omega) signNoAtom rfl
          rw [List.length_cons, List.length_append] at room
          have split : before ++ op.symbol.lexeme sign :: after ++ rest =
              before ++ op.symbol.lexeme sign :: (after ++ rest) := by
            simp only [List.cons_append, List.append_assoc]
          cases count with
          | zero => omega
          | succ count =>
              have operand := application_reads reads derivesRight (by omega) noAtom
              refine ⟨count, by omega, ?_⟩
              rw [← between_append source _ rest, split, reached, additiveRest, additiveOp?_symbol]
              dsimp only
              rw [operand, except_ok_bind]

section Layer

variable {source : List Char} {bound : Nat} {nested : Parser Expr}

theorem additive_reads (reads : Reads source bound nested) {word : List Lexeme} {expr : Expr}
    (derives : DerivesAdditive source word expr) (short : word.length ≤ bound + 1)
    {rest : List Lexeme} (ends : EndsExpr rest) :
    additive source nested (word ++ rest) = .ok (expr, rest) := by
  obtain ⟨count, -, reached⟩ := additive_reaches reads derives short ends.noAtom
  rw [reached, additiveRest_of_noSign ends.noSign]

theorem condition_reads (reads : Reads source bound nested) {word : List Lexeme}
    {tested : Condition} (derives : DerivesCondition source word tested)
    (short : word.length ≤ bound + 1) {rest : List Lexeme} (ends : EndsExpr rest)
    (noComparison : comparison? rest = none) :
    condition source nested (word ++ rest) = .ok (tested, rest) := by
  cases derives with
  | truthy derives =>
      rw [condition, additive_reads reads derives short ends, except_ok_bind]
      dsimp only
      rw [noComparison, between_append]
      rfl
  | @comparison _ before left after right sign op derivesLeft derivesRight whole =>
      subst whole
      rw [List.length_append, List.length_cons] at short
      have split : before ++ op.symbol.lexeme sign :: after ++ rest =
          before ++ op.symbol.lexeme sign :: (after ++ rest) := by
        simp only [List.cons_append, List.append_assoc]
      have readLeft := additive_reads reads derivesLeft (by omega)
        (.symbol op.symbol op.closes sign (after ++ rest))
      have readRight := additive_reads reads derivesRight (by omega) ends
      rw [← between_append source _ rest, split, condition, readLeft, except_ok_bind]
      dsimp only
      rw [comparison?_symbol]
      dsimp only
      rw [readRight]
      rfl

/-- The expression that a header and a body make up. -/
def Header.close (header : Header) (body : Expr) (span : Span) : Expr :=
  match header.parameters with
  | none => .letIn header.name header.value body span
  | some parameters => .lambda ⟨header.name, parameters, header.value, true, header.span⟩ body span

theorem header_reads (reads : Reads source bound nested) {word : List Lexeme} {read : Header}
    (derives : DerivesHeader source word read) (short : word.length ≤ bound + 1)
    {rest : List Lexeme} (ends : EndsExpr rest) :
    header source nested (word ++ rest) = .ok (read, rest) := by
  cases derives with
  | @binding letWord row declared assign valueWord value name derivesRow derivesValue whole =>
    subst whole
    have within : valueWord.length ≤ bound := by
      simp only [List.cons_append, List.length_cons, List.length_append] at short
      omega
    have split : Symbol.letWord.lexeme letWord :: name.lexeme :: row ++
          Symbol.assign.lexeme assign :: valueWord ++ rest =
        Symbol.letWord.lexeme letWord :: name.lexeme ::
          (row ++ Symbol.assign.lexeme assign :: (valueWord ++ rest)) := by
      simp only [List.cons_append, List.append_assoc]
    have readValue := reads valueWord value rest derivesValue within ends
    rw [← between_append source _ rest, split, header]
    simp only [expect_lexeme, identifier_lexeme, parameters_row derivesRow, readValue,
      except_ok_bind]
    rfl

theorem bindingBody_reads (reads : Reads source bound nested) (lexemes : List Lexeme)
    (header : Header) (inWord : Span) {word : List Lexeme} {body : Expr}
    (derives : DerivesExpr source word body) (short : word.length ≤ bound) {rest : List Lexeme}
    (ends : EndsExpr rest) :
    bindingBody source nested lexemes header (Symbol.inWord.lexeme inWord :: (word ++ rest)) =
      .ok (header.close body (between source lexemes rest), rest) := by
  rw [bindingBody, expect_lexeme, except_ok_bind]
  dsimp only
  rw [reads word body rest derives short ends, except_ok_bind, Header.close]
  cases header.parameters <;> rfl

theorem binding_reads (reads : Reads source bound nested) {word headerWord bodyWord : List Lexeme}
    {header : Header} {inWord : Span} {body : Expr}
    (derivesHeader : DerivesHeader source headerWord header)
    (derivesBody : DerivesExpr source bodyWord body)
    (whole : word = headerWord ++ Symbol.inWord.lexeme inWord :: bodyWord)
    (short : word.length ≤ bound + 1) {rest : List Lexeme} (ends : EndsExpr rest) :
    binding source nested (word ++ rest) = .ok (header.close body (extent source word), rest) := by
  have lengths : word.length = headerWord.length + (bodyWord.length + 1) := by
    rw [whole, List.length_append, List.length_cons]
  have split : word ++ rest =
      headerWord ++ Symbol.inWord.lexeme inWord :: (bodyWord ++ rest) := by
    rw [whole, List.append_assoc, List.cons_append]
  have within : bodyWord.length ≤ bound := by
    cases derivesHeader with
    | binding _ _ same =>
        rw [same] at lengths
        simp only [List.cons_append, List.length_cons] at lengths
        omega
  have readHeader : Parser.header source nested (word ++ rest) =
      .ok (header, Symbol.inWord.lexeme inWord :: (bodyWord ++ rest)) := by
    rw [split]
    exact header_reads reads derivesHeader (by omega) (.symbol .inWord trivial inWord _)
  rw [binding, readHeader, except_ok_bind]
  dsimp only
  rw [bindingBody_reads reads _ header inWord derivesBody within ends, between_append]

theorem choice_reads (reads : Reads source bound nested)
    {word conditionWord trueWord falseWord : List Lexeme} {ifWord thenWord elseWord : Span}
    {tested : Condition} {whenTrue whenFalse : Expr}
    (derivesCondition : DerivesCondition source conditionWord tested)
    (derivesTrue : DerivesExpr source trueWord whenTrue)
    (derivesFalse : DerivesExpr source falseWord whenFalse)
    (whole : word = Symbol.ifWord.lexeme ifWord :: conditionWord ++
      Symbol.thenWord.lexeme thenWord :: trueWord ++ Symbol.elseWord.lexeme elseWord :: falseWord)
    (short : word.length ≤ bound + 1) {rest : List Lexeme} (ends : EndsExpr rest) :
    choice source nested (word ++ rest) =
      .ok (.ifThenElse tested whenTrue whenFalse (extent source word), rest) := by
  have lengths : word.length = conditionWord.length + (trueWord.length + 1) +
      (falseWord.length + 1) + 1 := by
    simp only [whole, List.cons_append, List.length_cons, List.length_append]
  have split : word ++ rest = Symbol.ifWord.lexeme ifWord :: (conditionWord ++
      Symbol.thenWord.lexeme thenWord :: (trueWord ++
        Symbol.elseWord.lexeme elseWord :: (falseWord ++ rest))) := by
    simp only [whole, List.cons_append, List.append_assoc]
  have readCondition {afterThen} := condition_reads reads derivesCondition (by omega)
    (.symbol .thenWord trivial thenWord afterThen) rfl
  have readTrue {afterElse} := reads trueWord whenTrue _ derivesTrue (by omega)
    (.symbol .elseWord trivial elseWord afterElse)
  have readFalse := reads falseWord whenFalse rest derivesFalse (by omega) ends
  rw [← between_append source word rest, split, choice]
  simp only [expect_lexeme, readCondition, readTrue, readFalse, except_ok_bind]
  rfl

theorem expressionWith_of_startsAtom {lexemes : List Lexeme}
    (starts : startsAtom lexemes = true) :
    expressionWith source nested lexemes = additive source nested lexemes := by
  unfold expressionWith
  split
  · cases starts
  · cases starts
  · rfl

theorem expressionWith_reads (reads : Reads source bound nested) :
    Reads source (bound + 1) (expressionWith source nested) := by
  intro word expr rest derives short ends
  cases derives with
  | letIn derivesValue derivesBody header whole =>
      have read := binding_reads reads (.plain derivesValue header) derivesBody whole short ends
      rw [whole, header] at read ⊢
      exact read
  | lambda derivesRow derivesValue derivesBody header whole =>
      have read := binding_reads reads (.declaring derivesRow derivesValue header) derivesBody whole
        short ends
      rw [whole, header] at read ⊢
      exact read
  | ifThenElse derivesCondition derivesTrue derivesFalse whole =>
      have read := choice_reads reads derivesCondition derivesTrue derivesFalse whole short ends
      rw [whole] at read ⊢
      exact read
  | additive derives =>
      rw [expressionWith_of_startsAtom (derives.startsAtom rest)]
      exact additive_reads reads derives short ends

end Layer

theorem expressionWithin_reads (source : List Char) (depth : Nat) :
    Reads source depth (expressionWithin source depth) := by
  induction depth with
  | zero =>
      intro word expr rest derives short
      have pos := derives.length_pos
      omega
  | succ depth ih => exact expressionWith_reads ih

theorem expression_reads (source : List Char) (bound : Nat) :
    Reads source bound (expression source) := by
  intro word expr rest derives _ ends
  refine expressionWithin_reads source _ word expr rest derives ?_ ends
  rw [List.length_append]
  exact Nat.le_add_right ..

/-!
## Declarations
-/

/-- A binding with a body is a header and what the body makes of it. Any other expression starts with
another lexeme. -/
theorem binding_or_ne_let {source : List Char} {word : List Lexeme} {expr : Expr}
    (derives : DerivesExpr source word expr) :
    (∃ headerWord header inWord bodyWord body, DerivesHeader source headerWord header ∧
      DerivesExpr source bodyWord body ∧
      word = headerWord ++ Symbol.inWord.lexeme inWord :: bodyWord ∧
      expr = header.close body (extent source word)) ∨
    ∀ letWord rest more, word ++ rest ≠ Symbol.letWord.lexeme letWord :: more := by
  cases derives with
  | letIn derivesValue derivesBody header whole =>
      exact .inl ⟨_, _, _, _, _, .plain derivesValue header, derivesBody, whole, rfl⟩
  | lambda derivesRow derivesValue derivesBody header whole =>
      exact .inl ⟨_, _, _, _, _, .declaring derivesRow derivesValue header, derivesBody, whole, rfl⟩
  | ifThenElse _ _ _ whole =>
      right
      rintro letWord rest more same
      rw [whole] at same
      cases same
  | additive derives =>
      right
      rintro letWord rest more same
      have starts := derives.startsAtom rest
      rw [same] at starts
      cases starts

theorem header_starts {source : List Char} {word : List Lexeme} {read : Header}
    (derives : DerivesHeader source word read) (rest : List Lexeme) :
    ∃ letWord more, word ++ rest = Symbol.letWord.lexeme letWord :: more := by
  obtain ⟨_, _, whole⟩ := derives
  exact ⟨_, _, congrArg (· ++ rest) whole⟩

theorem declaration_of_body {source : List Char} {lexemes more : List Lexeme} {read : Header}
    {inWord : Span} (starts : ∃ letWord more, lexemes = Symbol.letWord.lexeme letWord :: more)
    (found : header source (expression source) lexemes =
      .ok (read, Symbol.inWord.lexeme inWord :: more)) :
    declaration source lexemes = (do
      let (expr, rest) ← bindingBody source (expression source) lexemes read
        (Symbol.inWord.lexeme inWord :: more)
      return (.expression expr, rest)) := by
  obtain ⟨letWord, more, rfl⟩ := starts
  simp only [Symbol.lexeme] at found ⊢
  rw [declaration, found]
  rfl

theorem declaration_of_noBody {source : List Char} {lexemes rest : List Lexeme} {read : Header}
    (starts : ∃ letWord more, lexemes = Symbol.letWord.lexeme letWord :: more)
    (found : header source (expression source) lexemes = .ok (read, rest))
    (noBody : ∀ inWord more, rest ≠ Symbol.inWord.lexeme inWord :: more) :
    declaration source lexemes = (match read.parameters with
      | some parameters =>
        .ok (.function ⟨read.name, parameters, read.value, false, read.span⟩, rest)
      | none => .error ⟨.bindingWithoutBody read.name.text, read.span⟩) := by
  obtain ⟨letWord, more, rfl⟩ := starts
  simp only [Symbol.lexeme] at found ⊢
  rw [declaration, found, except_ok_bind]
  dsimp only
  split
  · exact absurd rfl (noBody _ _)
  · rfl

theorem declaration_of_ne_let {source : List Char} {lexemes : List Lexeme}
    (noLet : ∀ letWord more, lexemes ≠ Symbol.letWord.lexeme letWord :: more) :
    declaration source lexemes = (do
      let (expr, rest) ← expression source lexemes
      return (.expression expr, rest)) := by
  unfold declaration
  split
  · exact absurd rfl (noLet _ _)
  · rfl

/-- A complete header without a body is a function, or declares nothing. -/
theorem declaration_header {source : List Char} {word : List Lexeme} {read : Header}
    (derives : DerivesHeader source word read) {rest : List Lexeme} (ends : EndsExpr rest)
    (noBody : ∀ inWord more, rest ≠ Symbol.inWord.lexeme inWord :: more) :
    declaration source (word ++ rest) = (match read.parameters with
      | some parameters =>
        .ok (.function ⟨read.name, parameters, read.value, false, read.span⟩, rest)
      | none => .error ⟨.bindingWithoutBody read.name.text, read.span⟩) := by
  have found := header_reads (expression_reads source word.length) derives (Nat.le_succ _) ends
  exact declaration_of_noBody (header_starts derives rest) found noBody

theorem declaration_reads {source : List Char} {word : List Lexeme} {value : Declaration}
    (derives : DerivesDeclaration source word value) {rest : List Lexeme} (ends : EndsExpr rest)
    (noBody : ∀ inWord more, rest ≠ Symbol.inWord.lexeme inWord :: more) :
    declaration source (word ++ rest) = .ok (value, rest) := by
  cases derives with
  | function derivesRow derives whole =>
      exact declaration_header (.declaring derivesRow derives whole) ends noBody
  | expression derives =>
      rcases binding_or_ne_let derives with
        ⟨headerWord, read, inWord, bodyWord, body, derivesHeader, derivesBody, whole, rfl⟩ | noLet
      · have split : word ++ rest =
            headerWord ++ Symbol.inWord.lexeme inWord :: (bodyWord ++ rest) := by
          rw [whole, List.append_assoc, List.cons_append]
        have found := header_reads (expression_reads source headerWord.length) derivesHeader
          (Nat.le_succ _) (.symbol .inWord trivial inWord (bodyWord ++ rest))
        have starts := header_starts derivesHeader (Symbol.inWord.lexeme inWord :: (bodyWord ++ rest))
        have close := bindingBody_reads (expression_reads source bodyWord.length) (word ++ rest)
          read inWord derivesBody (Nat.le_refl _) ends
        rw [between_append] at close
        rw [← split] at found starts
        rw [declaration_of_body starts found, close]
        rfl
      · have read := expression_reads source word.length word _ rest derives (Nat.le_refl _) ends
        rw [declaration_of_ne_let fun letWord => noLet letWord rest, read]
        rfl

theorem derives_of_reads {source : List Char} {word : List Lexeme} {value : Declaration}
    (accepted : declaration source word = .ok (value, [])) :
    DerivesDeclaration source word value := by
  obtain ⟨taken, whole, derives⟩ := declaration_accepts accepted
  rw [List.append_nil] at whole
  rwa [whole]

theorem reads_of_derives {source : List Char} {word : List Lexeme} {value : Declaration}
    (derives : DerivesDeclaration source word value) :
    declaration source word = .ok (value, []) := by
  have read := declaration_reads derives .nil fun _ more => (List.cons_ne_nil _ more).symm
  rwa [List.append_nil] at read

theorem derives_unique {source : List Char} {word : List Lexeme} {first second : Declaration}
    (derivesFirst : DerivesDeclaration source word first)
    (derivesSecond : DerivesDeclaration source word second) : first = second := by
  have same := (reads_of_derives derivesFirst).symm.trans (reads_of_derives derivesSecond)
  cases same
  rfl

theorem Complaint.kind {source : List Char} {lexemes : List Lexeme} {error : Error}
    (complaint : Complaint source lexemes error) : error.kind = .syntaxError := by
  obtain ⟨wanted, rest, -, rfl⟩ := complaint
  cases rest <;> rfl

theorem DeclaresNothing.kind {source : List Char} {lexemes : List Lexeme} {error : Error}
    (nothing : DeclaresNothing source lexemes error) : error.kind = .malformedProgram := by
  cases nothing
  rfl

/-- The parser of declarations decides the grammar: it reads a row of lexemes to its end exactly if
the row is a word of the grammar, and returns the one tree that the word stands for. Of the rows that
it refuses, those with an error other than a complaint start with a header that declares nothing; and
such a header is refused whenever it cannot be read on. -/
theorem declaration_decides_grammar (source : List Char) (word : List Lexeme) :
    (∀ value, declaration source word = .ok (value, []) ↔ DerivesDeclaration source word value) ∧
    (∀ first second, DerivesDeclaration source word first →
      DerivesDeclaration source word second → first = second) ∧
    (∀ error, declaration source word = .error error →
      error.kind = .malformedProgram ∧ DeclaresNothing source word error ∨
      error.kind = .syntaxError ∧ Complaint source word error) ∧
    ∀ header rest read, word = header ++ rest → DerivesHeader source header read →
      read.parameters = none → EndsExpr rest →
      (∀ inWord more, rest ≠ Symbol.inWord.lexeme inWord :: more) →
      declaration source word = .error ⟨.bindingWithoutBody read.name.text, extent source header⟩ := by
  refine ⟨fun value => ⟨derives_of_reads, reads_of_derives⟩, fun _ _ => derives_unique, ?_, ?_⟩
  · intro error refused
    rcases declaration_refuses refused with complaint | nothing
    · exact .inr ⟨complaint.kind, complaint⟩
    · exact .inl ⟨nothing.kind, nothing⟩
  · intro header rest read whole derives plain ends noBody
    rw [whole, declaration_header derives ends noBody, plain]
    cases derives
    rfl

end Parser

end FrameLang
