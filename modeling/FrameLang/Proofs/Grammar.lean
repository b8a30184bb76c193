import FrameLang.Declaration
import FrameLang.Lexeme

/-!
The grammar of the language. A rule relates a word, a row of lexemes, to the tree that the word
stands for:

    program     := (declaration (';' declaration)* ';'?)?
    declaration := 'let' IDENT params '=' expr | expr
    params      := '(' ')' | IDENT+
    expr        := 'let' IDENT '=' expr 'in' expr
                 | 'let' IDENT params '=' expr 'in' expr
                 | 'if' condition 'then' expr 'else' expr
                 | additive
    condition   := additive (comparison additive)?
    additive    := application (('+' | '-') application)*
    application := IDENT '(' ')' | IDENT atom+ | atom
    atom        := NUMBER | IDENT | '(' expr ')'

The rules say nothing about how a word is found. The span of a node is the extent of the word that
the rule of the node puts together, so parentheses around an operand belong to the sum and not to
the operand.
-/

set_option autoImplicit false

namespace FrameLang

def Symbol.lexeme (symbol : Symbol) (span : Span) : Lexeme := ⟨.symbol symbol, span⟩

def Name.lexeme (name : Name) : Lexeme := ⟨.identifier name.text, name.span⟩

def Value.lexeme (value : Value) : Lexeme := ⟨.number value.number, value.span⟩

def AdditiveOp.symbol : AdditiveOp → Symbol
  | add => .plus
  | sub => .minus

def Comparison.symbol : Comparison → Symbol
  | greater => .greater
  | greaterEqual => .greaterEqual
  | less => .less
  | lessEqual => .lessEqual
  | equal => .equal
  | notEqual => .notEqual

/-- The part of the source from the first lexeme of a word up to its last. -/
def extent (source : List Char) : List Lexeme → Span
  | [] => Span.empty
  | first :: more => Source.slice source first.span.start (more.getLastD first).span.stop

inductive DerivesParameters : List Lexeme → List Name → Prop where
  | empty {left right} :
      DerivesParameters [Symbol.leftParen.lexeme left, Symbol.rightParen.lexeme right] []
  | names {names : List Name} : names ≠ [] → DerivesParameters (names.map Name.lexeme) names

mutual

inductive DerivesAtom (source : List Char) : List Lexeme → Expr → Prop where
  | number (value : Value) : DerivesAtom source [value.lexeme] (.literal value)
  | name (name : Name) : DerivesAtom source [name.lexeme] (.var name)
  | parens {left word expr right} :
      DerivesExpr source word expr →
      DerivesAtom source
        (Symbol.leftParen.lexeme left :: word ++ [Symbol.rightParen.lexeme right]) expr

/-- A row of atoms, possibly empty. -/
inductive DerivesAtoms (source : List Char) : List Lexeme → List Expr → Prop where
  | nil : DerivesAtoms source [] []
  | cons {word expr rest others} :
      DerivesAtom source word expr → DerivesAtoms source rest others →
      DerivesAtoms source (word ++ rest) (expr :: others)

inductive DerivesApplication (source : List Char) : List Lexeme → Expr → Prop where
  | callEmpty {word left right} {name : Name} :
      word = [name.lexeme, Symbol.leftParen.lexeme left, Symbol.rightParen.lexeme right] →
      DerivesApplication source word (.call name [] (extent source word))
  | call {word row arguments} {name : Name} :
      DerivesAtoms source row arguments → arguments ≠ [] → word = name.lexeme :: row →
      DerivesApplication source word (.call name arguments (extent source word))
  | atom {word expr} : DerivesAtom source word expr → DerivesApplication source word expr

/-- A sum associates to the left: what stands before the last sign is its left operand. -/
inductive DerivesAdditive (source : List Char) : List Lexeme → Expr → Prop where
  | operand {word expr} : DerivesApplication source word expr → DerivesAdditive source word expr
  | operation {word before left after right sign} {op : AdditiveOp} :
      DerivesAdditive source before left → DerivesApplication source after right →
      word = before ++ op.symbol.lexeme sign :: after →
      DerivesAdditive source word (.additive op left right (extent source word))

inductive DerivesCondition (source : List Char) : List Lexeme → Condition → Prop where
  | truthy {word operand} :
      DerivesAdditive source word operand →
      DerivesCondition source word (.truthy operand (extent source word))
  | comparison {word before left after right sign} {op : Comparison} :
      DerivesAdditive source before left → DerivesAdditive source after right →
      word = before ++ op.symbol.lexeme sign :: after →
      DerivesCondition source word (.comparison op left right (extent source word))

inductive DerivesExpr (source : List Char) : List Lexeme → Expr → Prop where
  | letIn {word header letWord assign inWord valueWord value bodyWord body} {name : Name} :
      DerivesExpr source valueWord value → DerivesExpr source bodyWord body →
      header = Symbol.letWord.lexeme letWord :: name.lexeme :: Symbol.assign.lexeme assign ::
        valueWord →
      word = header ++ Symbol.inWord.lexeme inWord :: bodyWord →
      DerivesExpr source word (.letIn name value body (extent source word))
  | lambda {word header letWord row parameters assign inWord valueWord value bodyWord body}
      {name : Name} :
      DerivesParameters row parameters →
      DerivesExpr source valueWord value → DerivesExpr source bodyWord body →
      header = Symbol.letWord.lexeme letWord :: name.lexeme :: row ++
        Symbol.assign.lexeme assign :: valueWord →
      word = header ++ Symbol.inWord.lexeme inWord :: bodyWord →
      DerivesExpr source word
        (.lambda ⟨name, parameters, value, true, extent source header⟩ body (extent source word))
  | ifThenElse {word ifWord conditionWord condition thenWord trueWord whenTrue elseWord falseWord
      whenFalse} :
      DerivesCondition source conditionWord condition →
      DerivesExpr source trueWord whenTrue → DerivesExpr source falseWord whenFalse →
      word = Symbol.ifWord.lexeme ifWord :: conditionWord ++ Symbol.thenWord.lexeme thenWord ::
        trueWord ++ Symbol.elseWord.lexeme elseWord :: falseWord →
      DerivesExpr source word (.ifThenElse condition whenTrue whenFalse (extent source word))
  | additive {word expr} : DerivesAdditive source word expr → DerivesExpr source word expr

end

inductive DerivesDeclaration (source : List Char) : List Lexeme → Declaration → Prop where
  | function {word letWord row parameters assign valueWord value} {name : Name} :
      DerivesParameters row parameters → DerivesExpr source valueWord value →
      word = Symbol.letWord.lexeme letWord :: name.lexeme :: row ++
        Symbol.assign.lexeme assign :: valueWord →
      DerivesDeclaration source word
        (.function ⟨name, parameters, value, false, extent source word⟩)
  | expression {word expr} :
      DerivesExpr source word expr → DerivesDeclaration source word (.expression expr)

inductive DerivesProgram (source : List Char) : List Lexeme → List Declaration → Prop where
  | empty : DerivesProgram source [] []
  | last {word declaration} :
      DerivesDeclaration source word declaration → DerivesProgram source word [declaration]
  | next {word first declaration semicolon rest others} :
      DerivesDeclaration source first declaration → DerivesProgram source rest others →
      word = first ++ Symbol.semicolon.lexeme semicolon :: rest →
      DerivesProgram source word (declaration :: others)

end FrameLang
