import FrameLang.Declaration
import FrameLang.Proofs.Grammar
import FrameLang.Proofs.NumberText

/-!
Programs as texts. Every compound expression is written in parentheses, and so is every argument of a
call. The lexer takes such a text apart into the tokens that were written.
-/

set_option autoImplicit false

namespace FrameLang

/-- Parameters as a declaration writes them. -/
def parametersText : List Name → String
  | [] => "()"
  | names => " ".intercalate (names.map Name.text)

mutual

def Expr.print : Expr → String
  | .literal value => value.text
  | .var name => name.text
  | .additive op left right _ =>
    "(" ++ left.print ++ " " ++ op.symbol.spelling ++ " " ++ right.print ++ ")"
  | .letIn name value body _ =>
    "(let " ++ name.text ++ " = " ++ value.print ++ " in " ++ body.print ++ ")"
  | .lambda function usage _ => "(" ++ function.print ++ " in " ++ usage.print ++ ")"
  | .call name [] _ => "(" ++ name.text ++ " ())"
  | .call name arguments _ => "(" ++ name.text ++ argumentsPrint arguments ++ ")"
  | .ifThenElse condition whenTrue whenFalse _ =>
    "(if " ++ condition.print ++ " then " ++ whenTrue.print ++ " else " ++ whenFalse.print ++ ")"

def Condition.print : Condition → String
  | .truthy operand _ => operand.print
  | .comparison op left right _ => left.print ++ " " ++ op.symbol.spelling ++ " " ++ right.print

def Function.print : Function → String
  | ⟨name, parameters, body, _, _⟩ =>
    "let " ++ name.text ++ " " ++ parametersText parameters ++ " = " ++ body.print

def argumentsPrint : List Expr → String
  | [] => ""
  | argument :: rest => " (" ++ argument.print ++ ")" ++ argumentsPrint rest

end

def Declaration.print : Declaration → String
  | function definition => definition.print
  | expression expr => expr.print

/-- Declarations with a separator and a new line between them. -/
def printProgram (declarations : List Declaration) : String :=
  ";\n".intercalate (declarations.map Declaration.print)

/-- An identifier that is not reserved. -/
structure Name.Writable (name : Name) : Prop where
  spelled : ∃ first rest, name.text.toList = first :: rest ∧ Token.startsWord first = true ∧
    ∀ c ∈ rest, Token.continuesWord c = true
  notReserved : ∀ symbol ∈ Symbol.words, symbol.spelling ≠ name.text

/-- A finite number with a clear sign bit. -/
def Value.Writable (value : Value) : Prop :=
  value.number.toBits.toNat < Number.Magnitude.infinity

mutual

/-- All names and numbers of the tree can be written, and lambdas are flagged as such. -/
def Expr.Writable : Expr → Prop
  | .literal value => value.Writable
  | .var name => name.Writable
  | .additive _ left right _ => left.Writable ∧ right.Writable
  | .letIn name value body _ => name.Writable ∧ value.Writable ∧ body.Writable
  | .lambda function usage _ => function.Writable true ∧ usage.Writable
  | .call name arguments _ => name.Writable ∧ argumentsWritable arguments
  | .ifThenElse condition whenTrue whenFalse _ =>
    condition.Writable ∧ whenTrue.Writable ∧ whenFalse.Writable

def Condition.Writable : Condition → Prop
  | .truthy operand _ => operand.Writable
  | .comparison _ left right _ => left.Writable ∧ right.Writable

def Function.Writable : Function → Bool → Prop
  | ⟨name, parameters, body, isLambda, _⟩, asLambda =>
    isLambda = asLambda ∧ name.Writable ∧ (∀ parameter ∈ parameters, parameter.Writable) ∧
      body.Writable

def argumentsWritable : List Expr → Prop
  | [] => True
  | argument :: rest => argument.Writable ∧ argumentsWritable rest

end

def Declaration.Writable : Declaration → Prop
  | function definition => definition.Writable false
  | expression expr => expr.Writable

/-!
## Tokens of a printed tree
-/

def parametersTokens : List Name → List Token
  | [] => [.symbol .leftParen, .symbol .rightParen]
  | names => names.map fun name => .identifier name.text

def parenthesized (tokens : List Token) : List Token :=
  .symbol .leftParen :: (tokens ++ [.symbol .rightParen])

mutual

def Expr.tokens : Expr → List Token
  | .literal value => [.number value.number]
  | .var name => [.identifier name.text]
  | .additive op left right _ =>
    parenthesized (left.tokens ++ .symbol op.symbol :: right.tokens)
  | .letIn name value body _ =>
    parenthesized (.symbol .letWord :: .identifier name.text :: .symbol .assign ::
      (value.tokens ++ .symbol .inWord :: body.tokens))
  | .lambda function usage _ =>
    parenthesized (function.tokens ++ .symbol .inWord :: usage.tokens)
  | .call name [] _ =>
    parenthesized [.identifier name.text, .symbol .leftParen, .symbol .rightParen]
  | .call name arguments _ => parenthesized (.identifier name.text :: argumentsTokens arguments)
  | .ifThenElse condition whenTrue whenFalse _ =>
    parenthesized (.symbol .ifWord :: (condition.tokens ++ .symbol .thenWord ::
      (whenTrue.tokens ++ .symbol .elseWord :: whenFalse.tokens)))

def Condition.tokens : Condition → List Token
  | .truthy operand _ => operand.tokens
  | .comparison op left right _ => left.tokens ++ .symbol op.symbol :: right.tokens

def Function.tokens : Function → List Token
  | ⟨name, parameters, body, _, _⟩ =>
    .symbol .letWord :: .identifier name.text :: (parametersTokens parameters ++
      .symbol .assign :: body.tokens)

def argumentsTokens : List Expr → List Token
  | [] => []
  | argument :: rest => parenthesized argument.tokens ++ argumentsTokens rest

end

def Declaration.tokens : Declaration → List Token
  | function definition => definition.tokens
  | expression expr => expr.tokens

def programTokens : List Declaration → List Token
  | [] => []
  | [declaration] => declaration.tokens
  | declaration :: others => declaration.tokens ++ .symbol .semicolon :: programTokens others

/-!
## The tokens of a printed text
-/

/-- The text cannot go on as a word or as a number. -/
def Delimited : List Char → Prop
  | [] => True
  | c :: _ => Token.continuesWord c = false ∧ c ≠ '.'

theorem Delimited.endsNumber {rest : List Char} (delimited : Delimited rest) :
    Number.EndsNumber rest := by
  cases rest with
  | nil => trivial
  | cons c rest =>
      obtain ⟨noWord, noPoint⟩ := delimited
      rw [Token.continuesWord, Char.isAlphanum] at noWord
      simp only [Bool.or_eq_false_iff] at noWord
      exact ⟨noWord.1.1.2, noPoint⟩

theorem Delimited.takeWhile {rest : List Char} (delimited : Delimited rest) :
    rest.takeWhile Token.continuesWord = [] := by
  cases rest with
  | nil => rfl
  | cons c rest => rw [List.takeWhile_cons, delimited.1, if_neg Bool.false_ne_true]

theorem delimited_space (rest : List Char) : Delimited (' ' :: rest) := ⟨rfl, by decide⟩

theorem delimited_rightParen (rest : List Char) : Delimited (')' :: rest) := ⟨rfl, by decide⟩

theorem delimited_semicolon (rest : List Char) : Delimited (';' :: rest) := ⟨rfl, by decide⟩

theorem isDigit_of_startsWord {c : Char} (starts : Token.startsWord c = true) :
    c.isDigit = false := by
  rw [Bool.eq_false_iff]
  intro digit
  simp only [Token.startsWord, Char.isAlpha, Char.isUpper, Char.isLower, Char.isDigit,
    Bool.or_eq_true, Bool.and_eq_true, decide_eq_true_eq, beq_iff_eq,
    UInt32.le_iff_toNat_le] at starts digit
  rcases starts with (upper | lower) | rfl
  · grind
  · grind
  · grind

theorem Name.Writable.scan? {name : Name} (writable : name.Writable) {rest : List Char}
    (delimited : Delimited rest) :
    Token.scan? (name.text.toList ++ rest) =
      some (.identifier name.text, name.text.toList.length) := by
  obtain ⟨⟨first, more, spelled, starts, continues⟩, notReserved⟩ := writable
  have word : (more ++ rest).takeWhile Token.continuesWord = more := by
    rw [List.takeWhile_append_of_pos continues, delimited.takeWhile, List.append_nil]
  have identifier : Token.ofWord name.text = .identifier name.text := by
    have free : Symbol.words.find? (fun symbol => symbol.spelling == name.text) = none := by
      rw [List.find?_eq_none]
      intro symbol member same
      exact notReserved symbol member (beq_iff_eq.mp same)
    rw [Token.ofWord, free]
  rw [spelled, List.cons_append, Token.scan?_of_word (isDigit_of_startsWord starts) starts, word,
    ← spelled, String.ofList_toList, identifier, spelled, List.length_cons]

namespace Tokenizes

variable {rest : List Char} {tokens : List Token}

theorem nothing : Tokenizes [] [] := .done (.whole .nil)

theorem space (behind : Tokenizes rest tokens) : Tokenizes (' ' :: rest) tokens :=
  behind.behind_layout (.space rfl .nil)

theorem newline (behind : Tokenizes rest tokens) : Tokenizes ('\n' :: rest) tokens :=
  behind.behind_layout (.space rfl .nil)

theorem scanned {text : List Char} {token : Token}
    (found : Token.scan? (text ++ rest) = some (token, text.length))
    (behind : Tokenizes rest tokens) : Tokenizes (text ++ rest) (token :: tokens) :=
  .token .nil found behind rfl

theorem leftParen (behind : Tokenizes rest tokens) :
    Tokenizes ('(' :: rest) (.symbol .leftParen :: tokens) :=
  .token .nil (show Token.scan? (['('] ++ rest) = _ from rfl) behind rfl

theorem rightParen (behind : Tokenizes rest tokens) :
    Tokenizes (')' :: rest) (.symbol .rightParen :: tokens) :=
  .token .nil (show Token.scan? ([')'] ++ rest) = _ from rfl) behind rfl

theorem semicolon (behind : Tokenizes rest tokens) :
    Tokenizes (';' :: rest) (.symbol .semicolon :: tokens) :=
  .token .nil (show Token.scan? ([';'] ++ rest) = _ from rfl) behind rfl

/-- Every symbol may be written with a space behind it. -/
theorem symbol (symbol : Symbol) (behind : Tokenizes rest tokens) :
    Tokenizes (symbol.spelling.toList ++ ' ' :: rest) (.symbol symbol :: tokens) := by
  have found : Token.scan? (symbol.spelling.toList ++ ' ' :: rest) =
      some (.symbol symbol, symbol.spelling.toList.length) := by
    cases symbol <;> rfl
  exact scanned found behind.space

theorem name {name : Name} (writable : name.Writable) (delimited : Delimited rest)
    (behind : Tokenizes rest tokens) :
    Tokenizes (name.text.toList ++ rest) (.identifier name.text :: tokens) :=
  scanned (writable.scan? delimited) behind

theorem value {value : Value} (writable : value.Writable) (delimited : Delimited rest)
    (behind : Tokenizes rest tokens) :
    Tokenizes (value.text.toList ++ rest) (.number value.number :: tokens) := by
  obtain ⟨whole, fraction, isNumeral, text, reads⟩ := Number.text_numeral writable
  have found := Number.scan?_numeral isNumeral delimited.endsNumber
  rw [reads] at found
  rw [Value.text, text, String.toList_ofList]
  exact scanned found behind

end Tokenizes

theorem tokenizes_names {first : Name} {others : List Name} {rest : List Char}
    {tokens : List Token} (writable : ∀ name ∈ first :: others, name.Writable)
    (delimited : Delimited rest) (behind : Tokenizes rest tokens) :
    Tokenizes ((" ".intercalate ((first :: others).map Name.text)).toList ++ rest)
      ((first :: others).map (fun name => .identifier name.text) ++ tokens) := by
  have writesFirst := writable first List.mem_cons_self
  induction others generalizing first with
  | nil => exact behind.name writesFirst delimited
  | cons second others ih =>
      have writes : ∀ name ∈ second :: others, name.Writable := fun name member =>
        writable name (List.mem_cons_of_mem first member)
      have atSecond := ih writes (writes second List.mem_cons_self)
      have split : (" ".intercalate ((first :: second :: others).map Name.text)).toList =
          first.text.toList ++
            ' ' :: (" ".intercalate ((second :: others).map Name.text)).toList := by simp
      rw [split, List.append_assoc, List.cons_append]
      exact atSecond.space.name writesFirst (delimited_space _)

theorem tokenizes_parameters {parameters : List Name} {rest : List Char} {tokens : List Token}
    (writable : ∀ parameter ∈ parameters, parameter.Writable) (delimited : Delimited rest)
    (behind : Tokenizes rest tokens) :
    Tokenizes ((parametersText parameters).toList ++ rest)
      (parametersTokens parameters ++ tokens) := by
  cases parameters with
  | nil => exact behind.rightParen.leftParen
  | cons first others => exact tokenizes_names writable delimited behind

mutual

theorem Expr.tokenizes_print {expr : Expr} (writable : expr.Writable) {rest : List Char}
    {tokens : List Token} (delimited : Delimited rest) (behind : Tokenizes rest tokens) :
    Tokenizes (expr.print.toList ++ rest) (expr.tokens ++ tokens) := by
  match expr with
  | .literal value => exact behind.value writable delimited
  | .var name => exact behind.name writable delimited
  | .additive op left right span =>
      obtain ⟨writesLeft, writesRight⟩ := writable
      have atRight := right.tokenizes_print writesRight (delimited_rightParen _) behind.rightParen
      have atSign := (atRight.symbol op.symbol).space
      have atLeft := left.tokenizes_print writesLeft (delimited_space _) atSign
      simp only [Expr.print, Expr.tokens, parenthesized, String.toList_append, List.append_assoc,
        List.cons_append, List.nil_append]
      exact atLeft.leftParen
  | .letIn name value body span =>
      obtain ⟨writesName, writesValue, writesBody⟩ := writable
      have atBody := body.tokenizes_print writesBody (delimited_rightParen _) behind.rightParen
      have atIn := (atBody.symbol .inWord).space
      have atValue := value.tokenizes_print writesValue (delimited_space _) atIn
      have atAssign := (atValue.symbol .assign).space
      have atName := atAssign.name writesName (delimited_space _)
      simp only [Expr.print, Expr.tokens, parenthesized, String.toList_append, List.append_assoc,
        List.cons_append, List.nil_append]
      exact (atName.symbol .letWord).leftParen
  | .lambda function usage span =>
      obtain ⟨writesFunction, writesUsage⟩ := writable
      have atUsage := usage.tokenizes_print writesUsage (delimited_rightParen _) behind.rightParen
      have atIn := (atUsage.symbol .inWord).space
      have atFunction := function.tokenizes_print writesFunction (delimited_space _) atIn
      simp only [Expr.print, Expr.tokens, parenthesized, String.toList_append, List.append_assoc,
        List.cons_append, List.nil_append]
      exact atFunction.leftParen
  | .call name [] span =>
      have atParens := behind.rightParen.rightParen.leftParen.space
      have atName := atParens.name writable.1 (delimited_space _)
      simp only [Expr.print, Expr.tokens, parenthesized, String.toList_append, List.append_assoc,
        List.cons_append, List.nil_append]
      exact atName.leftParen
  | .call name (first :: others) span =>
      obtain ⟨writesName, writesArguments⟩ := writable
      have atArguments := argumentsTokenize_print writesArguments behind.rightParen
      have separated : Delimited ((argumentsPrint (first :: others)).toList ++ ')' :: rest) := by
        simp only [argumentsPrint, String.toList_append, List.append_assoc]
        exact delimited_space _
      have atName := atArguments.name writesName separated
      simp only [Expr.print, Expr.tokens, parenthesized, String.toList_append, List.append_assoc,
        List.cons_append, List.nil_append]
      exact atName.leftParen
  | .ifThenElse condition whenTrue whenFalse span =>
      obtain ⟨writesCondition, writesTrue, writesFalse⟩ := writable
      have atFalse := whenFalse.tokenizes_print writesFalse (delimited_rightParen _)
        behind.rightParen
      have atElse := (atFalse.symbol .elseWord).space
      have atTrue := whenTrue.tokenizes_print writesTrue (delimited_space _) atElse
      have atThen := (atTrue.symbol .thenWord).space
      have atCondition := condition.tokenizes_print writesCondition (delimited_space _) atThen
      simp only [Expr.print, Expr.tokens, parenthesized, String.toList_append, List.append_assoc,
        List.cons_append, List.nil_append]
      exact (atCondition.symbol .ifWord).leftParen

theorem Condition.tokenizes_print {condition : Condition} (writable : condition.Writable)
    {rest : List Char} {tokens : List Token} (delimited : Delimited rest)
    (behind : Tokenizes rest tokens) :
    Tokenizes (condition.print.toList ++ rest) (condition.tokens ++ tokens) := by
  match condition with
  | .truthy operand span => exact operand.tokenizes_print writable delimited behind
  | .comparison op left right span =>
      obtain ⟨writesLeft, writesRight⟩ := writable
      have atRight := right.tokenizes_print writesRight delimited behind
      have atSign := (atRight.symbol op.symbol).space
      have atLeft := left.tokenizes_print writesLeft (delimited_space _) atSign
      simp only [Condition.print, Condition.tokens, String.toList_append, List.append_assoc,
        List.cons_append]
      exact atLeft

theorem Function.tokenizes_print {function : Function} {asLambda : Bool}
    (writable : function.Writable asLambda) {rest : List Char} {tokens : List Token}
    (delimited : Delimited rest) (behind : Tokenizes rest tokens) :
    Tokenizes (function.print.toList ++ rest) (function.tokens ++ tokens) := by
  match function with
  | ⟨name, parameters, body, isLambda, span⟩ =>
      obtain ⟨-, writesName, writesParameters, writesBody⟩ := writable
      have atBody := body.tokenizes_print writesBody delimited behind
      have atAssign := (atBody.symbol .assign).space
      have atParameters := tokenizes_parameters writesParameters (delimited_space _) atAssign
      have atName := atParameters.space.name writesName (delimited_space _)
      simp only [Function.print, Function.tokens, String.toList_append, List.append_assoc,
        List.cons_append]
      exact atName.symbol .letWord

theorem argumentsTokenize_print {arguments : List Expr} (writable : argumentsWritable arguments)
    {rest : List Char} {tokens : List Token} (behind : Tokenizes rest tokens) :
    Tokenizes ((argumentsPrint arguments).toList ++ rest) (argumentsTokens arguments ++ tokens) := by
  match arguments with
  | [] => exact behind
  | argument :: others =>
      obtain ⟨writesFirst, writesOthers⟩ := writable
      have atOthers := argumentsTokenize_print writesOthers behind
      have atFirst := argument.tokenizes_print writesFirst (delimited_rightParen _)
        atOthers.rightParen
      simp only [argumentsPrint, argumentsTokens, parenthesized, String.toList_append, List.append_assoc,
        List.cons_append]
      exact atFirst.leftParen.space

end

theorem Declaration.tokenizes_print {declaration : Declaration} (writable : declaration.Writable)
    {rest : List Char} {tokens : List Token} (delimited : Delimited rest)
    (behind : Tokenizes rest tokens) :
    Tokenizes (declaration.print.toList ++ rest) (declaration.tokens ++ tokens) := by
  cases declaration with
  | function definition => exact definition.tokenizes_print writable delimited behind
  | expression expr => exact expr.tokenizes_print writable delimited behind

theorem tokenizes_printProgram {declarations : List Declaration}
    (writable : ∀ declaration ∈ declarations, declaration.Writable) :
    Tokenizes (printProgram declarations).toList (programTokens declarations) := by
  match declarations with
  | [] => exact .nothing
  | [declaration] =>
      have writes := writable declaration List.mem_cons_self
      have delimited : Delimited [] := trivial
      have read := declaration.tokenizes_print writes delimited .nothing
      rw [List.append_nil, List.append_nil] at read
      exact read
  | declaration :: next :: others =>
      have writes := writable declaration List.mem_cons_self
      have writesOthers : ∀ other ∈ next :: others, other.Writable := fun other member =>
        writable other (List.mem_cons_of_mem declaration member)
      have atOthers := tokenizes_printProgram writesOthers
      have read := declaration.tokenizes_print writes (delimited_semicolon _)
        atOthers.newline.semicolon
      have split : (printProgram (declaration :: next :: others)).toList =
          declaration.print.toList ++
            ';' :: '\n' :: (printProgram (next :: others)).toList := by simp [printProgram]
      rw [split]
      exact read

end FrameLang
