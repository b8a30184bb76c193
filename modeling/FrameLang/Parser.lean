import FrameLang.Declaration
import FrameLang.Lexeme

/-!
Reading declarations from lexemes.

A parser takes lexemes from the front and returns what it read together with the lexemes behind it.
Each layer of the grammar is written over a parser for the expressions nested inside it. Iterating
the outermost layer as often as there are lexemes reads every expression, since a nested expression
has at least one lexeme less than the one around it.
-/

set_option autoImplicit false

namespace FrameLang

def Parser (α : Type) : Type := List Lexeme → Except Error (α × List Lexeme)

namespace Parser

/-- The source text from the first lexeme up to the last one that was read. Parentheses count as part
of the node that holds the expression inside them, and not of that expression. -/
def between (source : List Char) (lexemes rest : List Lexeme) : Span :=
  match lexemes.take (lexemes.length - rest.length) with
  | [] => Span.empty
  | first :: more => Source.slice source first.span.start (more.getLastD first).span.stop

/-- The complaint about the first lexeme, or about the end of the source. -/
def unexpected (source : List Char) (wanted : Expectation) : List Lexeme → Error
  | lexeme :: _ => ⟨.unexpected wanted (some lexeme.span.text), lexeme.span⟩
  | [] => ⟨.unexpected wanted none, Source.endSpan source⟩

def expect (source : List Char) (symbol : Symbol) (wanted : Expectation) : Parser Unit
  | lexeme :: rest =>
    if lexeme.token = .symbol symbol then .ok ((), rest)
    else .error (unexpected source wanted (lexeme :: rest))
  | [] => .error (unexpected source wanted [])

def identifier (source : List Char) : Parser Name
  | ⟨.identifier name, span⟩ :: rest => .ok (⟨name, span⟩, rest)
  | lexemes => .error (unexpected source .identifier lexemes)

/-- All identifiers up to the first other lexeme. -/
def identifiers : List Lexeme → List Name × List Lexeme
  | ⟨.identifier name, span⟩ :: rest =>
    let (names, rest) := identifiers rest
    (⟨name, span⟩ :: names, rest)
  | lexemes => ([], lexemes)

/-- Empty parentheses declare no parameters and a row of identifiers declares those. Anything else
declares no function at all. -/
def parameters : List Lexeme → Option (List Name) × List Lexeme
  | ⟨.symbol .leftParen, _⟩ :: ⟨.symbol .rightParen, _⟩ :: rest => (some [], rest)
  | lexemes =>
    match identifiers lexemes with
    | ([], rest) => (none, rest)
    | (names, rest) => (some names, rest)

/-- The part of a binding up to and including its value. -/
structure Header where
  name : Name
  parameters : Option (List Name)
  value : Expr
  span : Span

def header (source : List Char) (expression : Parser Expr) : Parser Header := fun lexemes => do
  let ((), rest) ← expect source .letWord .letWord lexemes
  let (name, rest) ← identifier source rest
  let (parameters, rest) := parameters rest
  let ((), rest) ← expect source .assign .assign rest
  let (value, rest) ← expression rest
  return ({ name, parameters, value, span := between source lexemes rest }, rest)

/-- The rest of a binding behind its header, where the whole binding starts with `lexemes`. -/
def bindingBody (source : List Char) (expression : Parser Expr) (lexemes : List Lexeme)
    (header : Header) : Parser Expr := fun rest => do
  let ((), rest) ← expect source .inWord .inWord rest
  let (body, rest) ← expression rest
  let span := between source lexemes rest
  match header.parameters with
  | none => return (.letIn header.name header.value body span, rest)
  | some parameters =>
    let function : Function :=
      { name := header.name, parameters, body := header.value, isLambda := true,
        span := header.span }
    return (.lambda function body span, rest)

def binding (source : List Char) (expression : Parser Expr) : Parser Expr := fun lexemes => do
  let (header, rest) ← header source expression lexemes
  bindingBody source expression lexemes header rest

/-- A number, a name or an expression in parentheses. -/
def atom (source : List Char) (expression : Parser Expr) : Parser Expr
  | ⟨.number number, span⟩ :: rest => .ok (.literal ⟨number, span⟩, rest)
  | ⟨.identifier name, span⟩ :: rest => .ok (.var ⟨name, span⟩, rest)
  | ⟨.symbol .leftParen, _⟩ :: rest => do
    let (inner, rest) ← expression rest
    let ((), rest) ← expect source .rightParen .closing rest
    return (inner, rest)
  | lexemes => .error (unexpected source .expression lexemes)

def startsAtom : List Lexeme → Bool
  | ⟨.number _, _⟩ :: _ | ⟨.identifier _, _⟩ :: _ | ⟨.symbol .leftParen, _⟩ :: _ => true
  | _ => false

/-- All atoms up to the first lexeme that starts none, but at most `count`. -/
def atoms (source : List Char) (expression : Parser Expr) : Nat → Parser (List Expr)
  | 0, lexemes => .ok ([], lexemes)
  | count + 1, lexemes =>
    if startsAtom lexemes then do
      let (first, rest) ← atom source expression lexemes
      let (more, rest) ← atoms source expression count rest
      return (first :: more, rest)
    else .ok ([], lexemes)

/-- A name followed by empty parentheses or by atoms is a call, and alone a variable. -/
def application (source : List Char) (expression : Parser Expr) : Parser Expr := fun lexemes =>
  match lexemes with
  | ⟨.identifier _, _⟩ :: ⟨.symbol .leftParen, _⟩ :: ⟨.symbol .rightParen, _⟩ :: rest => do
    let (name, _) ← identifier source lexemes
    return (.call name [] (between source lexemes rest), rest)
  | ⟨.identifier _, _⟩ :: _ => do
    let (name, rest) ← identifier source lexemes
    match ← atoms source expression rest.length rest with
    | ([], rest) => return (.var name, rest)
    | (arguments, rest) => return (.call name arguments (between source lexemes rest), rest)
  | _ => atom source expression lexemes

def additiveOp? : List Lexeme → Option (AdditiveOp × List Lexeme)
  | ⟨.symbol symbol, _⟩ :: rest => symbol.additive?.map (·, rest)
  | _ => none

/-- Takes further operands onto `left`, associating to the left, but at most `count`. The whole sum
starts with `lexemes`. -/
def additiveRest (source : List Char) (expression : Parser Expr) (lexemes : List Lexeme) :
    Nat → Expr → Parser Expr
  | 0, left, rest => .ok (left, rest)
  | count + 1, left, rest =>
    match additiveOp? rest with
    | none => .ok (left, rest)
    | some (op, rest) => do
      let (right, rest) ← application source expression rest
      additiveRest source expression lexemes count
        (.additive op left right (between source lexemes rest)) rest

def additive (source : List Char) (expression : Parser Expr) : Parser Expr := fun lexemes => do
  let (left, rest) ← application source expression lexemes
  additiveRest source expression lexemes rest.length left rest

def comparison? : List Lexeme → Option (Comparison × List Lexeme)
  | ⟨.symbol symbol, _⟩ :: rest => symbol.comparison?.map (·, rest)
  | _ => none

/-- One sum, or two around a comparison. -/
def condition (source : List Char) (expression : Parser Expr) : Parser Condition :=
  fun lexemes => do
    let (left, rest) ← additive source expression lexemes
    match comparison? rest with
    | none => return (.truthy left (between source lexemes rest), rest)
    | some (op, rest) => do
      let (right, rest) ← additive source expression rest
      return (.comparison op left right (between source lexemes rest), rest)

def choice (source : List Char) (expression : Parser Expr) : Parser Expr := fun lexemes => do
  let ((), rest) ← expect source .ifWord .ifWord lexemes
  let (condition, rest) ← condition source expression rest
  let ((), rest) ← expect source .thenWord .thenWord rest
  let (whenTrue, rest) ← expression rest
  let ((), rest) ← expect source .elseWord .elseWord rest
  let (whenFalse, rest) ← expression rest
  return (.ifThenElse condition whenTrue whenFalse (between source lexemes rest), rest)

/-- One layer of the grammar of expressions, over a parser for nested ones. -/
def expressionWith (source : List Char) (nested : Parser Expr) : Parser Expr := fun lexemes =>
  match lexemes with
  | ⟨.symbol .letWord, _⟩ :: _ => binding source nested lexemes
  | ⟨.symbol .ifWord, _⟩ :: _ => choice source nested lexemes
  | _ => additive source nested lexemes

/-- Reads expressions that nest at most `depth` deep. -/
def expressionWithin (source : List Char) : Nat → Parser Expr
  | 0 => fun lexemes => .error (unexpected source .expression lexemes)
  | depth + 1 => expressionWith source (expressionWithin source depth)

def expression (source : List Char) : Parser Expr := fun lexemes =>
  expressionWithin source lexemes.length lexemes

/-- A binding without a body declares a function, and must have parameters. -/
def declaration (source : List Char) : Parser Declaration := fun lexemes =>
  match lexemes with
  | ⟨.symbol .letWord, _⟩ :: _ => do
    let (header, rest) ← header source (expression source) lexemes
    match rest with
    | ⟨.symbol .inWord, _⟩ :: _ =>
      let (expr, rest) ← bindingBody source (expression source) lexemes header rest
      return (.expression expr, rest)
    | _ =>
      match header.parameters with
      | some parameters =>
        let definition : Function :=
          { name := header.name, parameters, body := header.value, isLambda := false,
            span := header.span }
        return (.function definition, rest)
      | none => .error ⟨.bindingWithoutBody header.name.text, header.span⟩
  | _ => do
    let (expr, rest) ← expression source lexemes
    return (.expression expr, rest)

/-- Declarations with separators between them, but at most `count`. A last separator may follow. -/
def declarationsWithin (source : List Char) : Nat → List Lexeme → Except Error (List Declaration)
  | _, [] => .ok []
  | 0, _ :: _ => .ok []
  | count + 1, lexeme :: lexemes => do
    let (first, rest) ← declaration source (lexeme :: lexemes)
    match rest with
    | [] => return [first]
    | ⟨.symbol .semicolon, _⟩ :: rest =>
      let more ← declarationsWithin source count rest
      return first :: more
    | rest => .error (unexpected source .separator rest)

/-- All declarations that the lexemes of a source text make up. -/
def declarations (source : List Char) (lexemes : List Lexeme) :
    Except Error (List Declaration) :=
  declarationsWithin source lexemes.length lexemes

end Parser

/-- The declarations of a source text. A character that starts no token is reported before anything
else that is wrong with the text. -/
def parse (source : String) : Except Error (List Declaration) := do
  let lexemes ← Lexeme.ofSource source.toList
  Parser.declarations source.toList lexemes

end FrameLang
