import FrameLang.Proofs.Joining
import FrameLang.Proofs.TokenPhrases

/-!
No error comes too late. Whatever a parser complains about, the tokens in front of that point could
still have been completed: the lexemes it has taken are a viable row for the rule it reads and, with
all that is open around it closed, for the whole program. So the text in front of the error is the
beginning of a program that is accepted.
-/

set_option autoImplicit false

namespace FrameLang

namespace Parser

/-- What an error behind lexemes is about: the next lexeme, the end of the source, or a header that
ends there. -/
inductive ReportedBehind (source : List Char) (before rest : List Lexeme) : Error → Prop where
  | unexpected (wanted : Expectation) :
      ReportedBehind source before rest (unexpected source wanted rest)
  | header {word : List Lexeme} (name : String) (nonempty : word ≠ []) (ends : word <:+ before) :
      ReportedBehind source before rest ⟨.bindingWithoutBody name, extent source word⟩

theorem ReportedBehind.after {source : List Char} {before rest : List Lexeme} {error : Error}
    (reported : ReportedBehind source before rest error) (word : List Lexeme) :
    ReportedBehind source (word ++ before) rest error := by
  cases reported with
  | unexpected wanted => exact .unexpected wanted
  | header name nonempty ends =>
      exact .header name nonempty (ends.trans (List.suffix_append word before))

/-- The error is about a point of the row up to which the row is viable, behind the tokens taken
before. -/
def Timely {α : Type} (source : List Char) (derives : List Char → List Lexeme → α → Prop)
    (taken : List Token) (lexemes : List Lexeme) (error : Error) : Prop :=
  ∃ before rest, lexemes = before ++ rest ∧ ReportedBehind source before rest error ∧
    Viable derives (taken ++ before.map Lexeme.token)

/-- An error, if there is one, is timely. -/
def Foresees {α β : Type} (source : List Char) (derives : List Char → List Lexeme → α → Prop)
    (taken : List Token) (lexemes : List Lexeme) (result : Except Error β) : Prop :=
  ∀ error, result = .error error → Timely source derives taken lexemes error

/-- The parser takes a word of the given kind, and every error it reports is timely. -/
structure Careful {α : Type} (source : List Char) (derives : List Char → List Lexeme → α → Prop)
    (parser : Parser α) : Prop where
  accepts : ∀ {lexemes value rest}, parser lexemes = .ok (value, rest) →
    ∃ word, lexemes = word ++ rest ∧ derives source word value
  foresees : ∀ lexemes, Foresees source derives [] lexemes (parser lexemes)

theorem Careful.of_follows {α : Type} {source : List Char}
    {derives : List Char → List Lexeme → α → Prop} {parser : Parser α}
    (follows : Follows source (derives source) parser)
    (foresees : ∀ lexemes, Foresees source derives [] lexemes (parser lexemes)) :
    Careful source derives parser where
  accepts read := (follows _).accepts read
  foresees := foresees

section Foresees

variable {α β γ : Type} {source : List Char} {inner : List Char → List Lexeme → α → Prop}
  {outer : List Char → List Lexeme → γ → Prop} {taken : List Token}
  {lexemes : List Lexeme}

theorem Foresees.ok {value : β} : Foresees source outer taken lexemes (.ok value) := by
  intro error failed
  cases failed

theorem timely_here (viable : Viable outer taken) (wanted : Expectation) :
    Timely source outer taken lexemes (unexpected source wanted lexemes) := by
  refine ⟨[], lexemes, rfl, .unexpected wanted, ?_⟩
  rw [List.map_nil, List.append_nil]
  exact viable

theorem Foresees.unexpected (viable : Viable outer taken) (wanted : Expectation) :
    Foresees source outer taken lexemes
      (.error (unexpected source wanted lexemes) : Except Error β) := by
  intro error failed
  cases failed
  exact timely_here viable wanted

/-- What is taken of the row counts as taken before. -/
theorem Foresees.after {word : List Lexeme} {result : Except Error β}
    (foresees : Foresees source outer (taken ++ word.map Lexeme.token) lexemes result) :
    Foresees source outer taken (word ++ lexemes) result := by
  intro error failed
  obtain ⟨before, rest, rfl, reported, viable⟩ := foresees error failed
  refine ⟨word ++ before, rest, (List.append_assoc ..).symm, reported.after word, ?_⟩
  rw [List.map_append, ← List.append_assoc]
  exact viable

/-- A lexeme that is looked at counts as taken. -/
theorem Foresees.behind (lexeme : Lexeme) {result : Except Error β}
    (foresees : Foresees source outer (taken ++ [lexeme.token]) lexemes result) :
    Foresees source outer taken (lexeme :: lexemes) result := by
  rw [← List.singleton_append]
  exact Foresees.after foresees

/-- What is read inside is completed inside, and what is open around it is closed behind it. -/
theorem Foresees.inside {inside : List Token} {result : Except Error β}
    (foresees : Foresees source inner inside lexemes result) (closing : List Token)
    (fillers : ∀ token ∈ closing, Filler token)
    (closes : ∀ phrase, Phrase inner phrase → Phrase outer (taken ++ (phrase ++ closing))) :
    Foresees source outer (taken ++ inside) lexemes result := by
  intro error failed
  obtain ⟨before, rest, split, reported, viable⟩ := foresees error failed
  refine ⟨before, rest, split, reported, ?_⟩
  rw [List.append_assoc]
  exact viable.enclosed fillers closes

/-- Where every phrase of one kind is a phrase of another kind, foresight carries over. -/
theorem Foresees.as {result : Except Error β}
    (foresees : Foresees source inner taken lexemes result)
    (same : ∀ phrase, Phrase inner phrase → Phrase outer phrase) :
    Foresees source outer taken lexemes result := by
  intro error failed
  obtain ⟨before, rest, split, reported, more, fillers, phrase⟩ := foresees error failed
  exact ⟨before, rest, split, reported, more, fillers, same _ phrase⟩

/-- One step of reading: an error inside it is completed and closed. -/
theorem Foresees.reading {parser : Parser α} (careful : Careful source inner parser)
    (closing : List Token) (fillers : ∀ token ∈ closing, Filler token)
    (closes : ∀ phrase, Phrase inner phrase → Phrase outer (taken ++ (phrase ++ closing)))
    {next : α × List Lexeme → Except Error β}
    (later : ∀ word value rest, lexemes = word ++ rest → inner source word value →
      Foresees source outer taken (word ++ rest) (next (value, rest))) :
    Foresees source outer taken lexemes (parser lexemes >>= next) := by
  cases read : parser lexemes with
  | error error =>
      intro other failed
      cases failed
      have foresees := (careful.foresees lexemes).inside closing fillers closes
      rw [List.append_nil] at foresees
      exact foresees error read
  | ok result =>
      obtain ⟨value, rest⟩ := result
      obtain ⟨word, rfl, derives⟩ := careful.accepts read
      exact later word value rest rfl derives

/-- One step of reading, with what it takes behind the next steps. -/
theorem Foresees.bind {parser : Parser α} (careful : Careful source inner parser)
    (closing : List Token) (fillers : ∀ token ∈ closing, Filler token)
    (closes : ∀ phrase, Phrase inner phrase → Phrase outer (taken ++ (phrase ++ closing)))
    {next : α × List Lexeme → Except Error β}
    (later : ∀ word value rest, lexemes = word ++ rest → inner source word value →
      Foresees source outer (taken ++ word.map Lexeme.token) rest (next (value, rest))) :
    Foresees source outer taken lexemes (parser lexemes >>= next) :=
  Foresees.reading careful closing fillers closes fun word value rest whole derives =>
    (later word value rest whole derives).after

/-- What is only wrapped up fails as it did before. -/
theorem Foresees.wrapped {δ : Type} {result : Except Error δ}
    (foresees : Foresees source outer taken lexemes result) (wrap : δ → β) :
    Foresees source outer taken lexemes (result >>= fun value => pure (wrap value)) := by
  intro error failed
  cases result with
  | ok value => cases failed
  | error other =>
      cases failed
      exact foresees error rfl

theorem Foresees.expect {symbol : Symbol} {wanted : Expectation} (viable : Viable outer taken)
    {next : Unit × List Lexeme → Except Error β}
    (later : ∀ span rest, lexemes = symbol.lexeme span :: rest →
      Foresees source outer (taken ++ [.symbol symbol]) rest (next ((), rest))) :
    Foresees source outer taken lexemes (expect source symbol wanted lexemes >>= next) := by
  cases read : Parser.expect source symbol wanted lexemes with
  | error error =>
      intro other failed
      cases failed
      have failed : error = Parser.unexpected source wanted lexemes := by
        unfold Parser.expect at read
        split at read
        · split at read <;> cases read
          rfl
        · cases read
          rfl
      rw [failed]
      exact timely_here viable wanted
  | ok result =>
      obtain ⟨⟨⟩, rest⟩ := result
      obtain ⟨word, rfl, span, rfl⟩ := (expect_follows symbol wanted lexemes).accepts read
      exact (later span rest rfl).after

theorem Foresees.identifier (viable : Viable outer taken)
    {next : Name × List Lexeme → Except Error β}
    (later : ∀ name rest, lexemes = name.lexeme :: rest →
      Foresees source outer (taken ++ [.identifier name.text]) rest (next (name, rest))) :
    Foresees source outer taken lexemes (identifier source lexemes >>= next) := by
  cases read : Parser.identifier source lexemes with
  | error error =>
      intro other failed
      cases failed
      have failed : error = Parser.unexpected source .identifier lexemes := by
        unfold Parser.identifier at read
        split at read <;> cases read
        rfl
      rw [failed]
      exact timely_here viable .identifier
  | ok result =>
      obtain ⟨name, rest⟩ := result
      obtain ⟨word, rfl, rfl⟩ := (identifier_follows lexemes).accepts read
      exact (later name rest rfl).after

end Foresees

/-!
### The parsers

Each lemma walks through its parser. At every point where the parser may complain it says what would
complete the row, and around every part that another parser reads it says what closes the rest.
-/

/-- The shortest expression. -/
theorem phrase_x : Phrase DerivesExpr [.identifier "x"] := .additive (.operand (.atom (.name "x")))

section Parsers

variable {source : List Char} {nested : Parser Expr}

theorem header_careful (follows : Follows source (DerivesExpr source) nested)
    (careful : Careful source DerivesExpr nested) :
    Careful source DerivesHeader (header source nested) := by
  apply Careful.of_follows (header_follows follows)
  intro lexemes
  have none : DerivesRow [] none := rfl
  have noRow := none.phrase
  unfold header
  apply Foresees.expect
  · exact ⟨[.symbol .letWord, .identifier "x", .symbol .assign, .identifier "x"], by simp,
      .header "x" noRow phrase_x⟩
  intro letWord afterLet whole
  apply Foresees.identifier
  · exact ⟨[.identifier "x", .symbol .assign, .identifier "x"], by simp,
      .header "x" noRow phrase_x⟩
  intro name afterName whole
  obtain ⟨row, declared, afterRow, read, rfl, derivesRow⟩ := parameters_follow afterName
  simp only [read]
  apply Foresees.after
  apply Foresees.expect
  · exact ⟨[.symbol .assign, .identifier "x"], by simp,
      by simpa using Phrase.header name.text derivesRow.phrase phrase_x⟩
  intro assign afterAssign whole
  apply Foresees.bind careful []
  · simp
  · intro value isValue
    simpa using Phrase.header name.text derivesRow.phrase isValue
  · intro word value rest whole derives
    exact .ok

theorem bindingBody_foresees (careful : Careful source DerivesExpr nested)
    {headerWord lexemes rest : List Lexeme} {header : Header}
    (derives : DerivesHeader source headerWord header) :
    Foresees source DerivesExpr (headerWord.map Lexeme.token) rest
      (bindingBody source nested lexemes header rest) := by
  unfold bindingBody
  apply Foresees.expect
  · exact ⟨[.symbol .inWord, .identifier "x"], by simp, derives.phrase.binding phrase_x⟩
  intro inWord afterIn whole
  apply Foresees.bind careful []
  · simp
  · intro body isBody
    simpa using derives.phrase.binding isBody
  · intro word body rest whole derivesBody
    dsimp only
    split <;> exact .ok

theorem binding_foresees (follows : Follows source (DerivesExpr source) nested)
    (careful : Careful source DerivesExpr nested) (lexemes : List Lexeme) :
    Foresees source DerivesExpr [] lexemes (binding source nested lexemes) := by
  unfold binding
  apply Foresees.bind (header_careful follows careful) [.symbol .inWord, .identifier "x"]
  · simp
  · intro header isHeader
    exact isHeader.binding phrase_x
  · intro word header rest whole derives
    exact bindingBody_foresees careful derives

theorem atom_careful (follows : Follows source (DerivesExpr source) nested)
    (careful : Careful source DerivesExpr nested) :
    Careful source DerivesAtom (atom source nested) := by
  apply Careful.of_follows (atom_follows follows)
  intro lexemes
  unfold atom
  split
  next => exact .ok
  next => exact .ok
  next left rest =>
    apply Foresees.behind (Symbol.leftParen.lexeme left)
    apply Foresees.bind careful [.symbol .rightParen]
    · simp
    · intro inner isInner
      simpa using isInner.parens
    · intro word inner afterInner whole derives
      apply Foresees.expect
      · exact ⟨[.symbol .rightParen], by simp, by simpa using derives.phrase.parens⟩
      · intro right rest whole
        exact .ok
  next =>
    apply Foresees.unexpected
    exact ⟨[.identifier "x"], by simp, .name "x"⟩

theorem atoms_careful (follows : Follows source (DerivesExpr source) nested)
    (careful : Careful source DerivesExpr nested) (count : Nat) :
    Careful source DerivesAtoms (atoms source nested count) := by
  apply Careful.of_follows (atoms_follow follows count)
  induction count with
  | zero => exact fun lexemes => .ok
  | succ count ih =>
      intro lexemes
      unfold atoms
      split
      · apply Foresees.bind (atom_careful follows careful) []
        · simp
        · intro first isFirst
          exact isFirst.atoms .noAtoms
        · intro word first rest whole derives
          have others := Careful.of_follows (atoms_follow follows count) ih
          apply Foresees.bind others []
          · simp
          · intro row isRow
            simpa using derives.phrase.atoms isRow
          · intro row arguments rest whole derivesRow
            exact .ok
      · exact .ok

theorem application_careful (follows : Follows source (DerivesExpr source) nested)
    (careful : Careful source DerivesExpr nested) :
    Careful source DerivesApplication (application source nested) := by
  apply Careful.of_follows (application_follows follows)
  intro lexemes
  unfold application
  split
  next => exact .ok
  next text span afterName _ =>
    apply Foresees.behind (Name.lexeme ⟨text, span⟩)
    apply Foresees.bind (atoms_careful follows careful afterName.length) []
    · simp
    · intro row isRow
      simpa using Phrase.named text isRow
    · intro row arguments rest whole derives
      cases arguments <;> exact .ok
  next => exact ((atom_careful follows careful).foresees lexemes).as fun _ isAtom => isAtom.atom

/-- The loop over the operands of a sum, with the tokens of the part that is read already. -/
theorem additiveRest_foresees (follows : Follows source (DerivesExpr source) nested)
    (careful : Careful source DerivesExpr nested) (count : Nat) {before : List Token} {left : Expr}
    (isSum : Phrase DerivesAdditive before) (lexemes rest : List Lexeme) :
    Foresees source DerivesAdditive before rest
      (additiveRest source nested lexemes count left rest) := by
  induction count generalizing before left rest with
  | zero => exact .ok
  | succ count ih =>
      unfold additiveRest
      split
      next => exact .ok
      next op afterSign read =>
        obtain ⟨sign, rfl⟩ := additiveOp?_eq_some read
        apply Foresees.behind (op.symbol.lexeme sign)
        apply Foresees.bind (application_careful follows careful) []
        · simp
        · intro operand isOperand
          simpa using isSum.operation op isOperand
        · intro word right rest whole derives
          apply ih
          simpa using isSum.operation op derives.phrase

theorem additive_careful (follows : Follows source (DerivesExpr source) nested)
    (careful : Careful source DerivesExpr nested) :
    Careful source DerivesAdditive (additive source nested) := by
  apply Careful.of_follows (additive_follows follows)
  intro lexemes
  unfold additive
  apply Foresees.bind (application_careful follows careful) []
  · simp
  · intro operand isOperand
    simpa using isOperand.operand
  · intro word first rest whole derives
    exact additiveRest_foresees follows careful _ derives.phrase.operand lexemes rest

theorem condition_careful (follows : Follows source (DerivesExpr source) nested)
    (careful : Careful source DerivesExpr nested) :
    Careful source DerivesCondition (condition source nested) := by
  apply Careful.of_follows (condition_follows follows)
  intro lexemes
  unfold condition
  apply Foresees.bind (additive_careful follows careful) []
  · simp
  · intro sum isSum
    simpa using isSum.truthy
  · intro before left rest whole derives
    dsimp only
    split
    next => exact .ok
    next op afterSign read =>
      obtain ⟨sign, rfl⟩ := comparison?_eq_some read
      apply Foresees.behind (op.symbol.lexeme sign)
      apply Foresees.bind (additive_careful follows careful) []
      · simp
      · intro sum isSum
        simpa using derives.phrase.comparison op isSum
      · intro after right rest whole derivesRight
        exact .ok

theorem choice_foresees (follows : Follows source (DerivesExpr source) nested)
    (careful : Careful source DerivesExpr nested) (lexemes : List Lexeme) :
    Foresees source DerivesExpr [] lexemes (choice source nested lexemes) := by
  have x : Phrase DerivesCondition [.identifier "x"] := .truthy (.operand (.atom (.name "x")))
  unfold choice
  apply Foresees.expect
  · exact ⟨[.symbol .ifWord, .identifier "x", .symbol .thenWord, .identifier "x", .symbol .elseWord,
      .identifier "x"], by simp, .ifThenElse x phrase_x phrase_x⟩
  intro ifWord afterIf whole
  apply Foresees.bind (condition_careful follows careful)
    [.symbol .thenWord, .identifier "x", .symbol .elseWord, .identifier "x"]
  · simp
  · intro condition isCondition
    simpa using isCondition.ifThenElse phrase_x phrase_x
  intro conditionWord condition afterCondition whole derives
  apply Foresees.expect
  · exact ⟨[.symbol .thenWord, .identifier "x", .symbol .elseWord, .identifier "x"], by simp,
      by simpa using derives.phrase.ifThenElse phrase_x phrase_x⟩
  intro thenWord afterThen whole
  apply Foresees.bind careful [.symbol .elseWord, .identifier "x"]
  · simp
  · intro whenTrue isTrue
    simpa using derives.phrase.ifThenElse isTrue phrase_x
  intro trueWord whenTrue afterTrue whole derivesTrue
  apply Foresees.expect
  · exact ⟨[.symbol .elseWord, .identifier "x"], by simp,
      by simpa using derives.phrase.ifThenElse derivesTrue.phrase phrase_x⟩
  intro elseWord afterElse whole
  apply Foresees.bind careful []
  · simp
  · intro whenFalse isFalse
    simpa using derives.phrase.ifThenElse derivesTrue.phrase isFalse
  · intro falseWord whenFalse rest whole derivesFalse
    exact .ok

theorem expressionWith_careful (follows : Follows source (DerivesExpr source) nested)
    (careful : Careful source DerivesExpr nested) :
    Careful source DerivesExpr (expressionWith source nested) := by
  apply Careful.of_follows (expressionWith_follows follows)
  intro lexemes
  unfold expressionWith
  split
  · exact binding_foresees follows careful _
  · exact choice_foresees follows careful _
  · exact ((additive_careful follows careful).foresees lexemes).as fun _ isSum => isSum.additive

/-- However deep expressions may nest, no error comes too late. -/
theorem expressionWithin_careful (source : List Char) (depth : Nat) :
    Careful source DerivesExpr (expressionWithin source depth) := by
  induction depth with
  | zero =>
      apply Careful.of_follows (expressionWithin_follows source 0)
      intro lexemes
      apply Foresees.unexpected
      exact ⟨[.identifier "x"], by simp, phrase_x⟩
  | succ depth ih => exact expressionWith_careful (expressionWithin_follows source depth) ih

theorem expression_careful (source : List Char) :
    Careful source DerivesExpr (expression source) := by
  apply Careful.of_follows (expression_follows source)
  intro lexemes
  exact (expressionWithin_careful source lexemes.length).foresees lexemes

/-- A header that declares nothing is refused, but a body would complete it. -/
theorem declaration_careful (source : List Char) :
    Careful source DerivesDeclaration (declaration source) where
  accepts := declaration_accepts
  foresees lexemes := by
    unfold declaration
    split
    next letWord row =>
      have careful := header_careful (expression_follows source) (expression_careful source)
      apply Foresees.reading careful [.symbol .inWord, .identifier "x"]
      · simp
      · intro header isHeader
        exact (isHeader.binding phrase_x).expression
      intro word header rest whole derives
      have completed := (derives.phrase.binding phrase_x).expression
      dsimp only
      split
      next =>
        apply Foresees.after
        apply Foresees.wrapped
        exact (bindingBody_foresees (expression_careful source) derives).as fun _ isExpr =>
          isExpr.expression
      next noBody =>
        split
        next => exact .ok
        next none =>
          intro error failed
          cases failed
          cases derives with
          | @binding _ _ _ _ _ _ name _ _ same =>
              have nonempty : word ≠ [] := by
                rw [same]
                exact List.cons_ne_nil _ _
              exact ⟨word, rest, rfl, .header name.text nonempty (List.suffix_refl word),
                [.symbol .inWord, .identifier "x"], by simp, completed⟩
    next =>
      apply Foresees.wrapped
      exact ((expression_careful source).foresees lexemes).as fun _ isExpr => isExpr.expression

/-- The loop over the declarations. What is read already is closed by its separator. -/
theorem declarationsWithin_foresees (source : List Char) (count : Nat) (lexemes : List Lexeme) :
    Foresees source DerivesProgram [] lexemes (declarationsWithin source count lexemes) := by
  induction count generalizing lexemes with
  | zero => cases lexemes <;> exact .ok
  | succ count ih =>
      cases lexemes with
      | nil => exact .ok
      | cons lexeme lexemes =>
          unfold declarationsWithin
          apply Foresees.bind (declaration_careful source) []
          · simp
          · intro declaration isDeclaration
            simpa using isDeclaration.last
          intro word first rest whole derives
          dsimp only
          split
          next => exact .ok
          next semicolon rest =>
            apply Foresees.behind ⟨.symbol .semicolon, semicolon⟩
            apply Foresees.wrapped
            have closes : ∀ phrase, Phrase DerivesProgram phrase → Phrase DerivesProgram
                ((word.map Lexeme.token ++ [.symbol .semicolon]) ++ (phrase ++ [])) := by
              intro phrase isProgram
              simpa using derives.phrase.next isProgram
            simpa using (ih rest).inside [] (by simp) closes
          next =>
            apply Foresees.unexpected
            simpa using derives.phrase.last.viable

end Parsers

end Parser

/-!
### Texts that go on

A viable row of lexemes keeps its places in the text that it was read from, cut off behind it. What
completes it is written on a line of its own, so that it joins nothing in front of it.
-/

theorem tokenizes_fillers {tokens : List Token} (fillers : ∀ token ∈ tokens, Filler token) :
    ∃ text, Tokenizes text tokens := by
  induction tokens with
  | nil => exact ⟨[], .nothing⟩
  | cons token tokens ih =>
      obtain ⟨text, behind⟩ := ih fun other member => fillers other (List.mem_cons_of_mem _ member)
      cases fillers token List.mem_cons_self with
      | symbol symbol => exact ⟨_, .symbol symbol behind⟩
      | name =>
          have writable : Name.Writable ⟨"x", Span.empty⟩ := by
            constructor
            · exact ⟨'x', [], rfl, rfl, by simp⟩
            · decide
          exact ⟨_, .name writable (delimited_space text) behind.space⟩

/-- Some text starts with the lexemes, at their places, and is a program. -/
def CanGoOn (before : List Lexeme) : Prop :=
  ∃ (text : String) (more : List Lexeme) (declarations : List Declaration),
    Lexeme.ofSource text.toList = .ok (before ++ more) ∧ parse text = .ok declarations

theorem Lexes.exists_front {offset : Nat} {chars : List Char} {before rest : List Lexeme}
    (lexes : Lexes offset chars (before ++ rest)) : ∃ front, Lexes offset front before := by
  cases before with
  | nil => exact ⟨[], .done (.whole .nil)⟩
  | cons first more =>
      obtain ⟨gap, middle, _, _, front, _⟩ := lexes.front (List.cons_ne_nil first more)
      exact ⟨gap ++ middle, front⟩

theorem canGoOn_of_viable {chars : List Char} {before rest : List Lexeme}
    (lexes : Lexes 0 chars (before ++ rest))
    (viable : Viable DerivesProgram (before.map Lexeme.token)) : CanGoOn before := by
  obtain ⟨more, fillers, phrase⟩ := viable
  obtain ⟨front, frontLexes⟩ := lexes.exists_front
  obtain ⟨completion, tokenizes⟩ := tokenizes_fillers fillers
  obtain ⟨others, spelled, othersLex⟩ :=
    tokenizes.lexes (0 + Source.byteLength front + 1)
  let text := String.ofList (front ++ '\n' :: completion)
  have chars : text.toList = front ++ '\n' :: completion := String.toList_ofList
  have read : Lexeme.ofSource text.toList = .ok (before ++ others) := by
    rw [chars, Lexeme.ofSource, Lexeme.ofCharsFrom_line frontLexes,
      Lexeme.ofCharsFrom_eq_ok_iff.mpr othersLex]
    rfl
  have tokens : (before ++ others).map Lexeme.token = before.map Lexeme.token ++ more := by
    rw [List.map_append, spelled]
  obtain ⟨declarations, derives⟩ := phrase text.toList (before ++ others) tokens
  refine ⟨text, others, declarations, read, ?_⟩
  exact parse_eq_ok_iff.mpr ⟨_, Lexeme.ofCharsFrom_eq_ok_iff.mp read, derives⟩

/-! ### What is in front of an error -/

theorem filter_front {before rest : List Lexeme} {bound : Nat}
    (ended : ∀ lexeme ∈ before, lexeme.span.stop ≤ bound)
    (beyond : ∀ lexeme ∈ rest, bound < lexeme.span.stop) :
    (before ++ rest).filter (fun lexeme => lexeme.span.stop ≤ bound) = before := by
  have front : before.filter (fun lexeme => lexeme.span.stop ≤ bound) = before := by
    apply List.filter_eq_self.mpr
    intro lexeme member
    exact decide_eq_true (ended lexeme member)
  have behind : rest.filter (fun lexeme => lexeme.span.stop ≤ bound) = [] := by
    apply List.filter_eq_nil_iff.mpr
    intro lexeme member inFront
    exact Nat.not_le_of_lt (beyond lexeme member) (of_decide_eq_true inFront)
  rw [List.filter_append, front, behind, List.append_nil]

section Front

variable {source : String} {before rest : List Lexeme}

/-- The lexemes that end where the next lexeme starts, or before, are those in front of it. -/
theorem Lexes.front_of_next {next : Lexeme} {more : List Lexeme}
    (lexes : Lexes 0 source.toList (before ++ next :: more)) :
    (before ++ next :: more).filter (fun lexeme => lexeme.span.stop ≤ next.span.start) =
      before := by
  obtain ⟨_, advancesBehind, apart⟩ := List.pairwise_append.mp lexes.ordered.advances
  apply filter_front
  · intro lexeme member
    exact apart lexeme member next List.mem_cons_self
  · intro lexeme member
    have visible := (lexes.span_marks (List.mem_append_right _ member)).start_lt_stop
    cases List.mem_cons.mp member with
    | inl same => exact same ▸ visible
    | inr later =>
        have follows := (List.pairwise_cons.mp advancesBehind).1 lexeme later
        have nextMember : next ∈ before ++ next :: more :=
          List.mem_append_right _ List.mem_cons_self
        have nextVisible := (lexes.span_marks nextMember).start_lt_stop
        omega

theorem Lexes.front_of_end (lexes : Lexes 0 source.toList before) :
    before.filter (fun lexeme => lexeme.span.stop ≤ (Source.endSpan source.toList).start) =
      before := by
  apply List.filter_eq_self.mpr
  intro lexeme member
  apply decide_eq_true
  rw [Source.endSpan, Source.byteLength_toList]
  exact (lexes.span_marks member).stop_le

/-- The lexemes that end where a word ends, or before, are those up to its end. -/
theorem Lexes.front_of_word {word : List Lexeme} (lexes : Lexes 0 source.toList (before ++ rest))
    (ends : word <:+ before) (nonempty : word ≠ []) :
    (before ++ rest).filter
      (fun lexeme => lexeme.span.stop ≤ (extent source.toList word).stop) = before := by
  obtain ⟨earlier, rfl⟩ := ends
  have ordered := lexes.ordered
  obtain ⟨last, lastMember, stop⟩ := exists_extent_stop source.toList nonempty
  obtain ⟨advances, _, apart⟩ := List.pairwise_append.mp ordered.advances
  apply filter_front
  · intro lexeme member
    have orderedWord : Ordered word := ordered.part ⟨earlier, rest, rfl⟩
    cases List.mem_append.mp member with
    | inl inFront =>
        obtain ⟨_, _, inOrder⟩ := List.pairwise_append.mp advances
        rw [stop]
        exact Nat.le_trans (inOrder lexeme inFront last lastMember)
          (orderedWord.forward last lastMember)
    | inr inWord => exact orderedWord.le_extent_stop source.toList inWord
  · intro lexeme member
    rw [stop]
    have follows := apart last (List.mem_append_right _ lastMember) lexeme member
    have visible := (lexes.span_marks (List.mem_append_right _ member)).start_lt_stop
    omega

end Front

/-- No error comes too late. A complaint is about a token of the source or about its end, and the
tokens in front of that go on as a program; and so do the tokens up to the end of a header that is
refused because it declares nothing. -/
theorem refused_sources_go_on_before_error {source : String} {lexemes : List Lexeme} {error : Error}
    (read : Lexeme.ofSource source.toList = .ok lexemes) (refused : parse source = .error error) :
    (error.kind = .syntaxError ∧
        (error.span = Source.endSpan source.toList ∨ ∃ lexeme ∈ lexemes, error.span = lexeme.span) ∧
        CanGoOn (lexemes.filter fun lexeme => lexeme.span.stop ≤ error.span.start)) ∨
      (error.kind = .malformedProgram ∧
        CanGoOn (lexemes.filter fun lexeme => lexeme.span.stop ≤ error.span.stop)) := by
  have lexes := Lexeme.ofCharsFrom_eq_ok_iff.mp read
  have failed : Parser.declarations source.toList lexemes = .error error := by
    rw [parse, read, except_ok_bind] at refused
    exact refused
  obtain ⟨before, rest, rfl, reported, viable⟩ :=
    Parser.declarationsWithin_foresees source.toList _ lexemes error failed
  rw [List.nil_append] at viable
  have goesOn := canGoOn_of_viable lexes viable
  cases reported with
  | unexpected wanted =>
      apply Or.inl
      cases rest with
      | nil =>
          rw [List.append_nil] at lexes ⊢
          refine ⟨rfl, .inl rfl, ?_⟩
          rw [Parser.unexpected, lexes.front_of_end]
          exact goesOn
      | cons next more =>
          refine ⟨rfl, .inr ⟨next, List.mem_append_right _ List.mem_cons_self, rfl⟩, ?_⟩
          rw [Parser.unexpected, lexes.front_of_next]
          exact goesOn
  | header name nonempty ends =>
      apply Or.inr
      refine ⟨rfl, ?_⟩
      rw [lexes.front_of_word ends nonempty]
      exact goesOn

/-- The error in `f (x` is about its end, and the one in `let f = x` about all of it. -/
theorem open_call_and_bare_binding_go_on :
    (parse "f (x" = .error ⟨.unexpected .closing none, ⟨4, 4, ""⟩⟩ ∧
      CanGoOn [⟨.identifier "f", ⟨0, 1, "f"⟩⟩, ⟨.symbol .leftParen, ⟨2, 3, "("⟩⟩,
        ⟨.identifier "x", ⟨3, 4, "x"⟩⟩]) ∧
      parse "let f = x" = .error ⟨.bindingWithoutBody "f", ⟨0, 9, "let f = x"⟩⟩ ∧
      CanGoOn [⟨.symbol .letWord, ⟨0, 3, "let"⟩⟩, ⟨.identifier "f", ⟨4, 5, "f"⟩⟩,
        ⟨.symbol .assign, ⟨6, 7, "="⟩⟩, ⟨.identifier "x", ⟨8, 9, "x"⟩⟩] := by
  have callRead : Lexeme.ofSource "f (x".toList = .ok [⟨.identifier "f", ⟨0, 1, "f"⟩⟩,
      ⟨.symbol .leftParen, ⟨2, 3, "("⟩⟩, ⟨.identifier "x", ⟨3, 4, "x"⟩⟩] := by
    rw [Lexeme.ofSource_eq_within]
    rfl
  have call : parse "f (x" = .error ⟨.unexpected .closing none, ⟨4, 4, ""⟩⟩ := by
    rw [parse, callRead]
    rfl
  have bareRead : Lexeme.ofSource "let f = x".toList = .ok [⟨.symbol .letWord, ⟨0, 3, "let"⟩⟩,
      ⟨.identifier "f", ⟨4, 5, "f"⟩⟩, ⟨.symbol .assign, ⟨6, 7, "="⟩⟩,
      ⟨.identifier "x", ⟨8, 9, "x"⟩⟩] := by
    rw [Lexeme.ofSource_eq_within]
    rfl
  have bare : parse "let f = x" = .error ⟨.bindingWithoutBody "f", ⟨0, 9, "let f = x"⟩⟩ := by
    rw [parse, bareRead]
    rfl
  refine ⟨⟨call, ?_⟩, bare, ?_⟩
  · cases refused_sources_go_on_before_error callRead call with
    | inl complaint => exact complaint.2.2
    | inr malformed => cases malformed.1
  · cases refused_sources_go_on_before_error bareRead bare with
    | inl complaint => cases complaint.1
    | inr malformed => exact malformed.2

end FrameLang
