import FrameLang.Proofs.Placement
import FrameLang.Proofs.Printing
import FrameLang.Proofs.Spans

/-!
Printing and reading. A tree is derived by every word that has its tokens, up to the places in it, so
a printed program reads as the trees it was printed from.
-/

set_option autoImplicit false

namespace FrameLang

section Reading

variable {source : List Char} {word : List Lexeme} {tokens : List Token}

theorem symbol_of_tokens {symbol : Symbol}
    (spelled : word.map Lexeme.token = .symbol symbol :: tokens) :
    ∃ span rest, word = symbol.lexeme span :: rest ∧ rest.map Lexeme.token = tokens := by
  obtain ⟨⟨token, span⟩, rest, rfl, rfl, spelledRest⟩ := List.map_eq_cons_iff.mp spelled
  exact ⟨span, rest, rfl, spelledRest⟩

/-- The lexemes up to a symbol, the symbol, and the lexemes behind it. -/
theorem parts_of_tokens {symbol : Symbol} {front : List Token}
    (spelled : word.map Lexeme.token = front ++ .symbol symbol :: tokens) :
    ∃ part span rest, word = part ++ symbol.lexeme span :: rest ∧
      part.map Lexeme.token = front ∧ rest.map Lexeme.token = tokens := by
  obtain ⟨part, more, rfl, spelledPart, spelledMore⟩ := List.map_eq_append_iff.mp spelled
  obtain ⟨span, rest, rfl, spelledRest⟩ := symbol_of_tokens spelledMore
  exact ⟨part, span, rest, rfl, spelledPart, spelledRest⟩

theorem name_of_tokens {name : Name}
    (spelled : word.map Lexeme.token = .identifier name.text :: tokens) :
    ∃ read : Name, ∃ rest, word = read.lexeme :: rest ∧
      read.mapSpan Span.erase = name.mapSpan Span.erase ∧ rest.map Lexeme.token = tokens := by
  obtain ⟨⟨token, span⟩, rest, rfl, rfl, spelledRest⟩ := List.map_eq_cons_iff.mp spelled
  exact ⟨⟨name.text, span⟩, rest, rfl, rfl, spelledRest⟩

theorem DerivesAtom.derivesExpr {expr : Expr} (derives : DerivesAtom source word expr) :
    DerivesExpr source word expr :=
  .additive (.operand (.atom derives))

/-- Parentheses make an atom of an expression and leave no trace in the tree. -/
theorem derives_parenthesized {expr : Expr}
    (inside : ∀ inner : List Lexeme, inner.map Lexeme.token = tokens →
      ∃ read, DerivesExpr source inner read ∧ read.mapSpans Span.erase = expr.mapSpans Span.erase)
    (spelled : word.map Lexeme.token = parenthesized tokens) :
    ∃ read, DerivesAtom source word read ∧
      read.mapSpans Span.erase = expr.mapSpans Span.erase := by
  obtain ⟨left, more, rfl, spelledMore⟩ := symbol_of_tokens spelled
  obtain ⟨inner, right, rest, rfl, spelledInner, none⟩ := parts_of_tokens spelledMore
  cases List.map_eq_nil_iff.mp none
  obtain ⟨read, derives, same⟩ := inside inner spelledInner
  exact ⟨read, .parens derives, same⟩

theorem names_of_tokens {names : List Name}
    (spelled : word.map Lexeme.token = names.map fun name => .identifier name.text) :
    ∃ read : List Name, word = read.map Name.lexeme ∧
      read.map (Name.mapSpan Span.erase) = names.map (Name.mapSpan Span.erase) := by
  induction names generalizing word with
  | nil => exact ⟨[], List.map_eq_nil_iff.mp spelled, rfl⟩
  | cons name names ih =>
      obtain ⟨read, rest, rfl, same, spelledRest⟩ := name_of_tokens spelled
      obtain ⟨others, rfl, sameOthers⟩ := ih spelledRest
      exact ⟨read :: others, rfl, congrArg₂ List.cons same sameOthers⟩

theorem derives_parameters {parameters : List Name}
    (spelled : word.map Lexeme.token = parametersTokens parameters) :
    ∃ read, DerivesParameters word read ∧
      read.map (Name.mapSpan Span.erase) = parameters.map (Name.mapSpan Span.erase) := by
  cases parameters with
  | nil =>
      obtain ⟨left, last, rfl, spelledLast⟩ := symbol_of_tokens spelled
      obtain ⟨right, rest, rfl, none⟩ := symbol_of_tokens spelledLast
      cases List.map_eq_nil_iff.mp none
      exact ⟨[], .empty, rfl⟩
  | cons name names =>
      obtain ⟨read, rfl, same⟩ := names_of_tokens spelled
      refine ⟨read, .names ?_, same⟩
      rintro rfl
      cases same

end Reading

/-!
A tree reads back if every word with its tokens derives it, up to spans. There is one lemma for each
kind of node; the parentheses around the node are `derives_parenthesized`.
-/

def Expr.ReadsBack (source : List Char) (expr : Expr) : Prop :=
  ∀ word : List Lexeme, word.map Lexeme.token = expr.tokens →
    ∃ read, DerivesAtom source word read ∧ read.mapSpans Span.erase = expr.mapSpans Span.erase

def Condition.ReadsBack (source : List Char) (condition : Condition) : Prop :=
  ∀ word : List Lexeme, word.map Lexeme.token = condition.tokens →
    ∃ read, DerivesCondition source word read ∧
      read.mapSpans Span.erase = condition.mapSpans Span.erase

/-- A function reads as the parts of a definition; what encloses them decides on the flag. -/
def Function.ReadsBack (source : List Char) (function : Function) : Prop :=
  ∀ word : List Lexeme, word.map Lexeme.token = function.tokens →
    ∃ (name : Name) (parameters : List Name) (value : Expr) (letWord : Span) (row : List Lexeme)
      (assign : Span) (valueWord : List Lexeme),
      DerivesParameters row parameters ∧ DerivesExpr source valueWord value ∧
        word = Symbol.letWord.lexeme letWord :: name.lexeme :: row ++
          Symbol.assign.lexeme assign :: valueWord ∧
        ∀ span, Function.mapSpans Span.erase
          ⟨name, parameters, value, function.isLambda, span⟩ = function.mapSpans Span.erase

def ArgumentsReadBack (source : List Char) (arguments : List Expr) : Prop :=
  ∀ word : List Lexeme, word.map Lexeme.token = argumentsTokens arguments →
    ∃ read, DerivesAtoms source word read ∧
      argumentsMapSpans Span.erase read = argumentsMapSpans Span.erase arguments

section Nodes

variable {source : List Char} {span : Span}

theorem literal_readsBack (value : Value) : (Expr.literal value).ReadsBack source := by
  intro word spelled
  obtain ⟨⟨token, place⟩, rest, rfl, rfl, none⟩ := List.map_eq_cons_iff.mp spelled
  cases List.map_eq_nil_iff.mp none
  exact ⟨.literal ⟨value.number, place⟩, .number ⟨value.number, place⟩, rfl⟩

theorem var_readsBack (name : Name) : (Expr.var name).ReadsBack source := by
  intro word spelled
  obtain ⟨read, rest, rfl, same, none⟩ := name_of_tokens spelled
  cases List.map_eq_nil_iff.mp none
  exact ⟨.var read, .name read, congrArg Expr.var same⟩

theorem additive_readsBack (op : AdditiveOp) {left right : Expr}
    (leftBack : left.ReadsBack source) (rightBack : right.ReadsBack source) :
    (Expr.additive op left right span).ReadsBack source := by
  intro word spelled
  refine derives_parenthesized (fun inner spelledInner => ?_) spelled
  obtain ⟨before, sign, after, rfl, spelledLeft, spelledRight⟩ := parts_of_tokens spelledInner
  obtain ⟨readLeft, derivesLeft, sameLeft⟩ := leftBack before spelledLeft
  obtain ⟨readRight, derivesRight, sameRight⟩ := rightBack after spelledRight
  refine ⟨_, .additive (.operation (.operand (.atom derivesLeft)) (.atom derivesRight) rfl), ?_⟩
  rw [Expr.mapSpans, Expr.mapSpans, sameLeft, sameRight]
  rfl

theorem letIn_readsBack (name : Name) {value body : Expr} (valueBack : value.ReadsBack source)
    (bodyBack : body.ReadsBack source) : (Expr.letIn name value body span).ReadsBack source := by
  intro word spelled
  refine derives_parenthesized (fun inner spelledInner => ?_) spelled
  obtain ⟨letWord, atName, rfl, spelledName⟩ := symbol_of_tokens spelledInner
  obtain ⟨readName, atAssign, rfl, sameName, spelledAssign⟩ := name_of_tokens spelledName
  obtain ⟨assign, behind, rfl, spelledBehind⟩ := symbol_of_tokens spelledAssign
  obtain ⟨valueWord, inWord, bodyWord, rfl, spelledValue, spelledBody⟩ :=
    parts_of_tokens spelledBehind
  obtain ⟨readValue, derivesValue, sameValue⟩ := valueBack valueWord spelledValue
  obtain ⟨readBody, derivesBody, sameBody⟩ := bodyBack bodyWord spelledBody
  refine ⟨_, .letIn derivesValue.derivesExpr derivesBody.derivesExpr rfl rfl, ?_⟩
  rw [Expr.mapSpans, Expr.mapSpans, sameName, sameValue, sameBody]
  rfl

theorem lambda_readsBack {function : Function} {usage : Expr} (flagged : function.isLambda = true)
    (functionBack : function.ReadsBack source) (usageBack : usage.ReadsBack source) :
    (Expr.lambda function usage span).ReadsBack source := by
  intro word spelled
  refine derives_parenthesized (fun inner spelledInner => ?_) spelled
  obtain ⟨header, inWord, bodyWord, rfl, spelledHeader, spelledUsage⟩ :=
    parts_of_tokens spelledInner
  obtain ⟨name, parameters, value, letWord, row, assign, valueWord, derivesParameters,
    derivesValue, whole, same⟩ := functionBack header spelledHeader
  obtain ⟨readUsage, derivesUsage, sameUsage⟩ := usageBack bodyWord spelledUsage
  refine ⟨_, .lambda derivesParameters derivesValue derivesUsage.derivesExpr whole rfl, ?_⟩
  rw [Expr.mapSpans, Expr.mapSpans, ← flagged, same, sameUsage]
  rfl

theorem call_readsBack (name : Name) {arguments : List Expr}
    (argumentsBack : ArgumentsReadBack source arguments) :
    (Expr.call name arguments span).ReadsBack source := by
  intro word spelled
  cases arguments with
  | nil =>
      refine derives_parenthesized (fun inner spelledInner => ?_) spelled
      obtain ⟨readName, atLeft, rfl, sameName, spelledLeft⟩ := name_of_tokens spelledInner
      obtain ⟨left, atRight, rfl, spelledRight⟩ := symbol_of_tokens spelledLeft
      obtain ⟨right, rest, rfl, none⟩ := symbol_of_tokens spelledRight
      cases List.map_eq_nil_iff.mp none
      refine ⟨_, .additive (.operand (.callEmpty rfl)), ?_⟩
      rw [Expr.mapSpans, Expr.mapSpans, sameName]
      rfl
  | cons first others =>
      refine derives_parenthesized (fun inner spelledInner => ?_) spelled
      obtain ⟨readName, row, rfl, sameName, spelledRow⟩ := name_of_tokens spelledInner
      obtain ⟨read, derives, same⟩ := argumentsBack row spelledRow
      have nonempty : read ≠ [] := by
        rintro rfl
        cases same
      refine ⟨_, .additive (.operand (.call derives nonempty rfl)), ?_⟩
      rw [Expr.mapSpans, Expr.mapSpans, sameName, same]
      rfl

theorem ifThenElse_readsBack {condition : Condition} {whenTrue whenFalse : Expr}
    (conditionBack : condition.ReadsBack source) (trueBack : whenTrue.ReadsBack source)
    (falseBack : whenFalse.ReadsBack source) :
    (Expr.ifThenElse condition whenTrue whenFalse span).ReadsBack source := by
  intro word spelled
  refine derives_parenthesized (fun inner spelledInner => ?_) spelled
  obtain ⟨ifWord, behindIf, rfl, spelledBehindIf⟩ := symbol_of_tokens spelledInner
  obtain ⟨conditionWord, thenWord, behindThen, rfl, spelledCondition, spelledBehindThen⟩ :=
    parts_of_tokens spelledBehindIf
  obtain ⟨trueWord, elseWord, falseWord, rfl, spelledTrue, spelledFalse⟩ :=
    parts_of_tokens spelledBehindThen
  obtain ⟨readCondition, derivesCondition, sameCondition⟩ :=
    conditionBack conditionWord spelledCondition
  obtain ⟨readTrue, derivesTrue, sameTrue⟩ := trueBack trueWord spelledTrue
  obtain ⟨readFalse, derivesFalse, sameFalse⟩ := falseBack falseWord spelledFalse
  have whole : Symbol.ifWord.lexeme ifWord :: (conditionWord ++
        Symbol.thenWord.lexeme thenWord :: (trueWord ++
          Symbol.elseWord.lexeme elseWord :: falseWord)) =
      Symbol.ifWord.lexeme ifWord :: conditionWord ++ Symbol.thenWord.lexeme thenWord ::
        trueWord ++ Symbol.elseWord.lexeme elseWord :: falseWord := by
    simp only [List.append_assoc, List.cons_append]
  refine ⟨_, .ifThenElse derivesCondition derivesTrue.derivesExpr derivesFalse.derivesExpr whole,
    ?_⟩
  rw [Expr.mapSpans, Expr.mapSpans, sameCondition, sameTrue, sameFalse]
  rfl

theorem truthy_readsBack {operand : Expr} (operandBack : operand.ReadsBack source) :
    (Condition.truthy operand span).ReadsBack source := by
  intro word spelled
  obtain ⟨read, derives, same⟩ := operandBack word spelled
  refine ⟨_, .truthy (.operand (.atom derives)), ?_⟩
  rw [Condition.mapSpans, Condition.mapSpans, same]
  rfl

theorem comparison_readsBack (op : Comparison) {left right : Expr}
    (leftBack : left.ReadsBack source) (rightBack : right.ReadsBack source) :
    (Condition.comparison op left right span).ReadsBack source := by
  intro word spelled
  obtain ⟨before, sign, after, rfl, spelledLeft, spelledRight⟩ := parts_of_tokens spelled
  obtain ⟨readLeft, derivesLeft, sameLeft⟩ := leftBack before spelledLeft
  obtain ⟨readRight, derivesRight, sameRight⟩ := rightBack after spelledRight
  refine ⟨_, .comparison (.operand (.atom derivesLeft)) (.operand (.atom derivesRight)) rfl, ?_⟩
  rw [Condition.mapSpans, Condition.mapSpans, sameLeft, sameRight]
  rfl

theorem function_readsBack (name : Name) (parameters : List Name) {body : Expr} (isLambda : Bool)
    (bodyBack : body.ReadsBack source) :
    Function.ReadsBack source ⟨name, parameters, body, isLambda, span⟩ := by
  intro word spelled
  obtain ⟨letWord, atName, rfl, spelledName⟩ := symbol_of_tokens spelled
  obtain ⟨readName, behind, rfl, sameName, spelledBehind⟩ := name_of_tokens spelledName
  obtain ⟨row, assign, valueWord, rfl, spelledRow, spelledBody⟩ := parts_of_tokens spelledBehind
  obtain ⟨readParameters, derivesParameters, sameParameters⟩ := derives_parameters spelledRow
  obtain ⟨readBody, derivesBody, sameBody⟩ := bodyBack valueWord spelledBody
  refine ⟨readName, readParameters, readBody, letWord, row, assign, valueWord, derivesParameters,
    derivesBody.derivesExpr, rfl, fun place => ?_⟩
  rw [Function.mapSpans, Function.mapSpans, sameName, sameParameters, sameBody]
  rfl

theorem arguments_cons_readBack {argument : Expr} {others : List Expr}
    (argumentBack : argument.ReadsBack source) (othersBack : ArgumentsReadBack source others) :
    ArgumentsReadBack source (argument :: others) := by
  intro word spelled
  obtain ⟨first, rest, rfl, spelledFirst, spelledRest⟩ := List.map_eq_append_iff.mp spelled
  have inside : ∀ inner : List Lexeme, inner.map Lexeme.token = argument.tokens →
      ∃ read, DerivesExpr source inner read ∧
        read.mapSpans Span.erase = argument.mapSpans Span.erase := by
    intro inner spelledInner
    obtain ⟨read, derives, same⟩ := argumentBack inner spelledInner
    exact ⟨read, derives.derivesExpr, same⟩
  obtain ⟨read, derives, same⟩ := derives_parenthesized inside spelledFirst
  obtain ⟨readOthers, derivesOthers, sameOthers⟩ := othersBack rest spelledRest
  exact ⟨read :: readOthers, .cons derives derivesOthers, congrArg₂ List.cons same sameOthers⟩

end Nodes

mutual

theorem Expr.readsBack (source : List Char) {expr : Expr} (writable : expr.Writable) :
    expr.ReadsBack source := by
  match expr with
  | .literal value => exact literal_readsBack value
  | .var name => exact var_readsBack name
  | .additive op left right span =>
      obtain ⟨writesLeft, writesRight⟩ := writable
      exact additive_readsBack op (left.readsBack source writesLeft)
        (right.readsBack source writesRight)
  | .letIn name value body span =>
      obtain ⟨-, writesValue, writesBody⟩ := writable
      exact letIn_readsBack name (value.readsBack source writesValue)
        (body.readsBack source writesBody)
  | .lambda function usage span =>
      obtain ⟨writesFunction, writesUsage⟩ := writable
      obtain ⟨flagged, functionBack⟩ := function.readsBack source writesFunction
      exact lambda_readsBack flagged functionBack (usage.readsBack source writesUsage)
  | .call name arguments span =>
      exact call_readsBack name (arguments_readBack source writable.2)
  | .ifThenElse condition whenTrue whenFalse span =>
      obtain ⟨writesCondition, writesTrue, writesFalse⟩ := writable
      exact ifThenElse_readsBack (condition.readsBack source writesCondition)
        (whenTrue.readsBack source writesTrue) (whenFalse.readsBack source writesFalse)

theorem Condition.readsBack (source : List Char) {condition : Condition}
    (writable : condition.Writable) : condition.ReadsBack source := by
  match condition with
  | .truthy operand span => exact truthy_readsBack (operand.readsBack source writable)
  | .comparison op left right span =>
      obtain ⟨writesLeft, writesRight⟩ := writable
      exact comparison_readsBack op (left.readsBack source writesLeft)
        (right.readsBack source writesRight)

theorem Function.readsBack (source : List Char) {function : Function} {asLambda : Bool}
    (writable : function.Writable asLambda) :
    function.isLambda = asLambda ∧ function.ReadsBack source := by
  match function with
  | ⟨name, parameters, body, isLambda, span⟩ =>
      obtain ⟨flagged, -, -, writesBody⟩ := writable
      exact ⟨flagged,
        function_readsBack name parameters isLambda (body.readsBack source writesBody)⟩

theorem arguments_readBack (source : List Char) {arguments : List Expr}
    (writable : argumentsWritable arguments) : ArgumentsReadBack source arguments := by
  match arguments with
  | [] =>
      intro word spelled
      cases List.map_eq_nil_iff.mp spelled
      exact ⟨[], .nil, rfl⟩
  | argument :: others =>
      obtain ⟨writesFirst, writesOthers⟩ := writable
      exact arguments_cons_readBack (argument.readsBack source writesFirst)
        (arguments_readBack source writesOthers)

end

section Programs

variable {source : List Char} {word : List Lexeme}

theorem Declaration.reads_back {declaration : Declaration} (writable : declaration.Writable)
    (spelled : word.map Lexeme.token = declaration.tokens) :
    ∃ read, DerivesDeclaration source word read ∧
      read.mapSpans Span.erase = declaration.mapSpans Span.erase := by
  cases declaration with
  | function definition =>
      obtain ⟨flagged, back⟩ := definition.readsBack source writable
      obtain ⟨name, parameters, value, letWord, row, assign, valueWord, derivesParameters,
        derivesValue, whole, same⟩ := back word spelled
      rw [flagged] at same
      exact ⟨_, .function derivesParameters derivesValue whole,
        congrArg Declaration.function (same (extent source word))⟩
  | expression expr =>
      obtain ⟨read, derives, same⟩ := expr.readsBack source writable word spelled
      exact ⟨_, .expression derives.derivesExpr, congrArg Declaration.expression same⟩

theorem program_reads_back {declarations : List Declaration}
    (writable : ∀ declaration ∈ declarations, declaration.Writable) {word : List Lexeme}
    (spelled : word.map Lexeme.token = programTokens declarations) :
    ∃ read, DerivesProgram source word read ∧
      read.map (Declaration.mapSpans Span.erase) =
        declarations.map (Declaration.mapSpans Span.erase) := by
  match declarations with
  | [] =>
      cases List.map_eq_nil_iff.mp spelled
      exact ⟨[], .empty, rfl⟩
  | [declaration] =>
      have writes := writable declaration List.mem_cons_self
      obtain ⟨read, derives, same⟩ := declaration.reads_back writes spelled
      exact ⟨[read], .last derives, congrArg (fun only => [only]) same⟩
  | declaration :: next :: others =>
      have writes := writable declaration List.mem_cons_self
      have writesOthers : ∀ other ∈ next :: others, other.Writable := fun other member =>
        writable other (List.mem_cons_of_mem declaration member)
      obtain ⟨first, semicolon, rest, rfl, spelledFirst, spelledRest⟩ := parts_of_tokens spelled
      obtain ⟨read, derives, same⟩ := declaration.reads_back writes spelledFirst
      obtain ⟨readOthers, derivesOthers, sameOthers⟩ :=
        program_reads_back writesOthers spelledRest
      exact ⟨read :: readOthers, .next derives derivesOthers rfl,
        congrArg₂ List.cons same sameOthers⟩

end Programs

/-- A printed program reads as the declarations it was printed from. -/
theorem parse_printProgram {declarations : List Declaration}
    (writable : ∀ declaration ∈ declarations, declaration.Writable) :
    ∃ read, parse (printProgram declarations) = .ok read ∧
      read.map (Declaration.mapSpans Span.erase) =
        declarations.map (Declaration.mapSpans Span.erase) := by
  have tokenizes := tokenizes_printProgram writable
  obtain ⟨lexemes, spelled, lexes⟩ := tokenizes.lexes 0
  obtain ⟨read, derives, same⟩ :
      ∃ read, DerivesProgram (printProgram declarations).toList lexemes read ∧
        read.map (Declaration.mapSpans Span.erase) =
          declarations.map (Declaration.mapSpans Span.erase) :=
    program_reads_back writable spelled
  exact ⟨read, parse_eq_ok_iff.mpr ⟨lexemes, lexes, derives⟩, same⟩

/-- A function that counts down to zero, and a lambda that starts it. -/
def countdown : List Declaration :=
  let n := Expr.var (.bare "n")
  let one := Expr.literal (.ofNumber (Float.ofBits 0x3ff0000000000000))
  let next := Expr.call (.bare "f") [.additive .sub n one Span.empty] Span.empty
  let body := Expr.ifThenElse (.truthy n Span.empty) next n Span.empty
  let start := Expr.call (.bare "f") [one] Span.empty
  [.function ⟨.bare "f", [.bare "n"], body, false, Span.empty⟩,
    .expression (.lambda ⟨.bare "g", [], start, true, Span.empty⟩
      (.call (.bare "g") [] Span.empty) Span.empty)]

example : printProgram countdown =
    "let f n = (if n then (f ((n - 1))) else n);\n(let g () = (f (1)) in (g ()))" := by
  decide +kernel

theorem countdown_reads_back :
    (∀ declaration ∈ countdown, declaration.Writable) ∧
      ∃ read, parse (printProgram countdown) = .ok read ∧
        read.map (Declaration.mapSpans Span.erase) =
          countdown.map (Declaration.mapSpans Span.erase) := by
  have writesF : (Name.bare "f").Writable := ⟨⟨'f', [], rfl, rfl, List.forall_mem_nil _⟩,
    by decide +kernel⟩
  have writesG : (Name.bare "g").Writable := ⟨⟨'g', [], rfl, rfl, List.forall_mem_nil _⟩,
    by decide +kernel⟩
  have writesN : (Name.bare "n").Writable := ⟨⟨'n', [], rfl, rfl, List.forall_mem_nil _⟩,
    by decide +kernel⟩
  have writesOne : (Value.ofNumber (Float.ofBits 0x3ff0000000000000)).Writable := by
    rw [Value.Writable]
    decide +kernel
  have writable : ∀ declaration ∈ countdown, declaration.Writable := by
    intro declaration member
    simp only [countdown, List.mem_cons, List.not_mem_nil, or_false] at member
    rcases member with rfl | rfl
    · simp [Declaration.Writable, Function.Writable, Expr.Writable, Condition.Writable,
        argumentsWritable, writesF, writesN, writesOne]
    · simp [Declaration.Writable, Function.Writable, Expr.Writable, argumentsWritable, writesF,
        writesG, writesOne]
  exact ⟨writable, parse_printProgram writable⟩

/-!
## Values
-/

/-- The literal that the text of a value consists of, from its first character to its last. -/
def Value.literal (value : Value) : Expr :=
  .literal ⟨value.number, ⟨0, value.text.utf8ByteSize, value.text⟩⟩

/-- The text of a finite number with a clear sign bit is a program that consists of one literal. It
covers the whole text and denotes the same number, bit for bit. -/
theorem printed_value_reads_back {value : Value} (writable : value.Writable) :
    parse value.text = .ok [.expression value.literal] := by
  obtain ⟨whole, fraction, isNumeral, text, reads⟩ := Number.text_numeral writable
  have chars : value.text.toList = Number.numeral whole fraction := by
    rw [Value.text, text, String.toList_ofList]
  have ends : Number.EndsNumber [] := trivial
  have found := Number.scan?_numeral isNumeral ends
  rw [reads, ← chars] at found
  have stop : value.text.utf8ByteSize = 0 + Source.byteLength value.text.toList := by
    rw [Source.byteLength_toList, Nat.zero_add]
  let read : Value := ⟨value.number, ⟨0, value.text.utf8ByteSize, value.text⟩⟩
  have lexes : Lexes 0 value.text.toList [read.lexeme] := by
    have nothing : Lexes value.text.utf8ByteSize [] [] := .done (.whole .nil)
    have alone := Lexes.token .nil found nothing rfl stop (List.append_nil _).symm
    rwa [String.ofList_toList] at alone
  have derives : DerivesExpr value.text.toList [read.lexeme] value.literal :=
    .additive (.operand (.atom (.number read)))
  exact parse_eq_ok_iff.mpr ⟨_, lexes, .last (.expression derives)⟩

/-- The smallest positive number, which needs the longest row of zeros. -/
def leastValue : Value := .ofNumber (Float.ofBits 1)

theorem least_value_reads_back :
    leastValue.text = String.ofList ('0' :: '.' :: (List.replicate 323 '0' ++ ['5'])) ∧
      leastValue.Writable ∧ parse leastValue.text = .ok [.expression leastValue.literal] := by
  have text : leastValue.text =
      String.ofList ('0' :: '.' :: (List.replicate 323 '0' ++ ['5'])) := by decide +kernel
  have writable : leastValue.Writable := by
    rw [Value.Writable]
    decide +kernel
  exact ⟨text, writable, printed_value_reads_back writable⟩

end FrameLang
