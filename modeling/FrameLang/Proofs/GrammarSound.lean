import FrameLang.Parser
import FrameLang.Proofs.Grammar

/-!
What the parser accepts follows the grammar: it takes a word off the front and returns the tree that
the rules give for that word. What it does not accept it complains about, at some point of the row
that it had come to; only a complete header of a binding that declares nothing is an error of
another kind.
-/

set_option autoImplicit false

namespace FrameLang

/-- The row of parameters of a header. A header that declares none has no row at all. -/
def DerivesRow (word : List Lexeme) : Option (List Name) → Prop
  | none => word = []
  | some parameters => DerivesParameters word parameters

/-- A binding up to and including its value. -/
inductive DerivesHeader (source : List Char) : List Lexeme → Parser.Header → Prop where
  | binding {word letWord row declared assign valueWord value} {name : Name} :
      DerivesRow row declared → DerivesExpr source valueWord value →
      word = Symbol.letWord.lexeme letWord :: name.lexeme :: row ++
        Symbol.assign.lexeme assign :: valueWord →
      DerivesHeader source word ⟨name, declared, value, extent source word⟩

section Header

variable {source : List Char} {word row valueWord : List Lexeme} {letWord assign : Span}
  {name : Name} {parameters : List Name} {value : Expr}

theorem DerivesHeader.plain (derives : DerivesExpr source valueWord value)
    (whole : word = Symbol.letWord.lexeme letWord :: name.lexeme ::
      Symbol.assign.lexeme assign :: valueWord) :
    DerivesHeader source word ⟨name, none, value, extent source word⟩ := by
  have noRow : DerivesRow [] none := rfl
  exact .binding noRow derives whole

theorem DerivesHeader.declaring (derivesRow : DerivesParameters row parameters)
    (derives : DerivesExpr source valueWord value)
    (whole : word = Symbol.letWord.lexeme letWord :: name.lexeme :: row ++
      Symbol.assign.lexeme assign :: valueWord) :
    DerivesHeader source word ⟨name, some parameters, value, extent source word⟩ := by
  have isRow : DerivesRow row (some parameters) := derivesRow
  exact .binding isRow derives whole

end Header

namespace Parser

/-- The error is about the first lexeme, or the end of the source, at a point of the row. -/
def Complaint (source : List Char) (lexemes : List Lexeme) (error : Error) : Prop :=
  ∃ wanted rest, rest <:+ lexemes ∧ error = unexpected source wanted rest

theorem complaint_here (source : List Char) (lexemes : List Lexeme) (wanted : Expectation) :
    Complaint source lexemes (unexpected source wanted lexemes) :=
  ⟨wanted, lexemes, List.suffix_refl lexemes, rfl⟩

theorem between_append (source : List Char) (word rest : List Lexeme) :
    between source (word ++ rest) rest = extent source word := by
  have consumed : (word ++ rest).take ((word ++ rest).length - rest.length) = word := by
    rw [List.length_append, Nat.add_sub_cancel, List.take_left]
  rw [between, consumed]
  cases word <;> rfl

/-- What was read meets the goal, or the error is a complaint about the row. -/
structure Meets {β : Type} (source : List Char) (lexemes : List Lexeme) (goal : β → Prop)
    (result : Except Error β) : Prop where
  accepts : ∀ {value}, result = .ok value → goal value
  complains : ∀ {error}, result = .error error → Complaint source lexemes error

/-- The parser takes off the front a word of the given kind, or complains. -/
def Follows {α : Type} (source : List Char) (derives : List Lexeme → α → Prop)
    (parser : Parser α) : Prop :=
  ∀ lexemes, Meets source lexemes
    (fun read => ∃ word, lexemes = word ++ read.2 ∧ derives word read.1) (parser lexemes)

section Meets

variable {α β : Type} {source : List Char} {lexemes : List Lexeme} {goal : β → Prop}

theorem Meets.ok {value : β} (met : goal value) : Meets source lexemes goal (.ok value) := by
  constructor
  · intro other same
    cases same
    exact met
  · intro error failed
    cases failed

theorem Meets.unexpected (wanted : Expectation) :
    Meets source lexemes goal (.error (unexpected source wanted lexemes)) := by
  constructor
  · intro value accepted
    cases accepted
  · intro error same
    cases same
    exact complaint_here source lexemes wanted

theorem Meets.after {result : Except Error β} (meets : Meets source lexemes goal result)
    (word : List Lexeme) : Meets source (word ++ lexemes) goal result := by
  refine ⟨meets.accepts, fun failed => ?_⟩
  obtain ⟨wanted, rest, suffix, rfl⟩ := meets.complains failed
  exact ⟨wanted, rest, suffix.trans (List.suffix_append word lexemes), rfl⟩

/-- One step of reading: the word it takes is behind, and the rest lies ahead. -/
theorem Follows.bind {derives : List Lexeme → α → Prop} {parser : Parser α}
    (follows : Follows source derives parser) {next : α × List Lexeme → Except Error β}
    (later : ∀ word value rest, lexemes = word ++ rest → derives word value →
      Meets source rest goal (next (value, rest))) :
    Meets source lexemes goal (parser lexemes >>= next) := by
  have first := follows lexemes
  cases read : parser lexemes with
  | error error =>
      refine ⟨fun accepted => ?_, fun failed => ?_⟩
      · cases accepted
      · cases failed
        exact first.complains read
  | ok result =>
      obtain ⟨value, rest⟩ := result
      obtain ⟨word, rfl, derived⟩ := first.accepts read
      exact (later word value rest rfl derived).after word

end Meets

variable {source : List Char} {nested : Parser Expr}

theorem expect_follows (symbol : Symbol) (wanted : Expectation) :
    Follows source (fun word (_ : Unit) => ∃ span, word = [symbol.lexeme span])
      (expect source symbol wanted) := by
  intro lexemes
  cases lexemes with
  | nil => exact .unexpected wanted
  | cons lexeme rest =>
      rw [expect]
      split
      next found =>
        obtain ⟨token, span⟩ := lexeme
        cases found
        exact .ok ⟨[_], rfl, span, rfl⟩
      next => exact .unexpected wanted

theorem identifier_follows :
    Follows source (fun word (name : Name) => word = [name.lexeme]) (identifier source) := by
  intro lexemes
  unfold identifier
  split
  · exact .ok ⟨[_], rfl, rfl⟩
  · exact .unexpected .identifier

theorem identifiers_append (lexemes : List Lexeme) :
    (identifiers lexemes).1.map Name.lexeme ++ (identifiers lexemes).2 = lexemes := by
  fun_induction identifiers lexemes with
  | case1 name span rest names others read ih =>
      rw [read] at ih
      exact congrArg (List.cons _) ih
  | case2 lexemes => rfl

theorem parameters_follow (lexemes : List Lexeme) :
    ∃ word declared rest, parameters lexemes = (declared, rest) ∧ lexemes = word ++ rest ∧
      DerivesRow word declared := by
  unfold parameters
  split
  · exact ⟨[_, _], some [], _, rfl, rfl, .empty⟩
  · have parts := identifiers_append lexemes
    split
    next rest read =>
      rw [read] at parts
      exact ⟨[], none, rest, rfl, parts.symm, rfl⟩
    next names rest some read =>
      rw [read] at parts
      exact ⟨_, _, rest, rfl, parts.symm, .names some⟩

theorem header_follows (follows : Follows source (DerivesExpr source) nested) :
    Follows source (DerivesHeader source) (header source nested) := by
  intro lexemes
  refine (expect_follows .letWord .letWord).bind ?_
  rintro _ _ afterLet rfl ⟨letWord, rfl⟩
  refine identifier_follows.bind ?_
  rintro _ name afterName rfl rfl
  obtain ⟨row, declared, afterRow, read, rfl, derivesRow⟩ := parameters_follow afterName
  simp only [read]
  refine Meets.after ?_ row
  refine (expect_follows .assign .assign).bind ?_
  rintro _ _ afterAssign rfl ⟨assign, rfl⟩
  refine follows.bind ?_
  rintro valueWord value rest rfl derives
  have split : [Symbol.letWord.lexeme letWord] ++ ([name.lexeme] ++
      (row ++ ([Symbol.assign.lexeme assign] ++ (valueWord ++ rest)))) =
      (Symbol.letWord.lexeme letWord :: name.lexeme :: row ++
        Symbol.assign.lexeme assign :: valueWord) ++ rest := by
    simp only [List.cons_append, List.nil_append, List.append_assoc]
  rw [split, between_append]
  exact .ok ⟨_, rfl, .binding derivesRow derives rfl⟩

/-- What stands behind a header that has been read. The whole binding starts with the header. -/
theorem bindingBody_follows (follows : Follows source (DerivesExpr source) nested)
    {headerWord : List Lexeme} {header : Header} (derives : DerivesHeader source headerWord header)
    (rest : List Lexeme) :
    Meets source rest
      (fun read => ∃ word, headerWord ++ rest = word ++ read.2 ∧ DerivesExpr source word read.1)
      (bindingBody source nested (headerWord ++ rest) header rest) := by
  refine (expect_follows .inWord .inWord).bind ?_
  rintro _ _ afterIn rfl ⟨inWord, rfl⟩
  refine follows.bind ?_
  rintro bodyWord body rest rfl derivesBody
  have split : headerWord ++ ([Symbol.inWord.lexeme inWord] ++ (bodyWord ++ rest)) =
      (headerWord ++ Symbol.inWord.lexeme inWord :: bodyWord) ++ rest := by
    simp only [List.cons_append, List.nil_append, List.append_assoc]
  dsimp only
  rw [split, between_append]
  cases derives with
  | @binding _ _ declared _ _ _ _ derivesRow derivesValue same =>
    cases declared with
    | none =>
        cases derivesRow
        exact .ok ⟨_, rfl, .letIn derivesValue derivesBody same rfl⟩
    | some parameters => exact .ok ⟨_, rfl, .lambda derivesRow derivesValue derivesBody same rfl⟩

theorem binding_follows (follows : Follows source (DerivesExpr source) nested) :
    Follows source (DerivesExpr source) (binding source nested) := by
  intro lexemes
  refine (header_follows follows).bind ?_
  rintro headerWord header rest rfl derives
  exact bindingBody_follows follows derives rest

theorem atom_follows (follows : Follows source (DerivesExpr source) nested) :
    Follows source (DerivesAtom source) (atom source nested) := by
  intro lexemes
  unfold atom
  split
  next number span rest => exact .ok ⟨[_], rfl, .number ⟨number, span⟩⟩
  next name span rest => exact .ok ⟨[_], rfl, .name ⟨name, span⟩⟩
  next left rest =>
    refine Meets.after ?_ [Symbol.leftParen.lexeme left]
    refine follows.bind ?_
    rintro word inner afterInner rfl derives
    refine (expect_follows .rightParen .closing).bind ?_
    rintro _ _ rest rfl ⟨right, rfl⟩
    refine .ok ⟨Symbol.leftParen.lexeme left :: word ++ [Symbol.rightParen.lexeme right], ?_,
      .parens derives⟩
    simp only [List.cons_append, List.nil_append, List.append_assoc]
    rfl
  next => exact .unexpected .expression

theorem atoms_follow (follows : Follows source (DerivesExpr source) nested) (count : Nat) :
    Follows source (DerivesAtoms source) (atoms source nested count) := by
  induction count with
  | zero => exact fun lexemes => .ok ⟨[], rfl, .nil⟩
  | succ count ih =>
      intro lexemes
      rw [atoms]
      split
      · refine (atom_follows follows).bind ?_
        rintro word first afterFirst rfl derives
        refine ih.bind ?_
        rintro row others rest rfl derivesOthers
        exact .ok ⟨word ++ row, (List.append_assoc ..).symm, .cons derives derivesOthers⟩
      · exact .ok ⟨[], rfl, .nil⟩

theorem application_follows (follows : Follows source (DerivesExpr source) nested) :
    Follows source (DerivesApplication source) (application source nested) := by
  intro lexemes
  unfold application
  split
  next text span left right rest =>
    let word : List Lexeme := [Name.lexeme ⟨text, span⟩, Symbol.leftParen.lexeme left,
      Symbol.rightParen.lexeme right]
    have whole : between source (word ++ rest) rest = extent source word := between_append ..
    refine .ok ⟨word, rfl, ?_⟩
    exact whole ▸ .callEmpty rfl
  next text span afterName _ =>
    refine Meets.after ?_ [Name.lexeme ⟨text, span⟩]
    refine (atoms_follow follows afterName.length).bind ?_
    rintro row arguments rest rfl derives
    cases arguments with
    | nil =>
        cases derives
        exact .ok ⟨_, rfl, .atom (.name ⟨text, span⟩)⟩
    | cons first others =>
        let word : List Lexeme := Name.lexeme ⟨text, span⟩ :: row
        have whole : between source (word ++ rest) rest = extent source word := between_append ..
        refine .ok ⟨word, rfl, ?_⟩
        exact whole ▸ .call derives (List.cons_ne_nil first others) rfl
  next =>
    refine ⟨fun accepted => ?_, (atom_follows follows lexemes).complains⟩
    obtain ⟨word, split, derives⟩ := (atom_follows follows lexemes).accepts accepted
    exact ⟨word, split, .atom derives⟩

theorem additiveOp?_eq_some {lexemes rest : List Lexeme} {op : AdditiveOp}
    (read : additiveOp? lexemes = some (op, rest)) :
    ∃ sign, lexemes = op.symbol.lexeme sign :: rest := by
  unfold additiveOp? at read
  split at read
  next symbol sign more =>
    obtain ⟨other, found, same⟩ := Option.map_eq_some_iff.mp read
    cases same
    cases symbol <;> cases found <;> exact ⟨sign, rfl⟩
  next => cases read

theorem comparison?_eq_some {lexemes rest : List Lexeme} {op : Comparison}
    (read : comparison? lexemes = some (op, rest)) :
    ∃ sign, lexemes = op.symbol.lexeme sign :: rest := by
  unfold comparison? at read
  split at read
  next symbol sign more =>
    obtain ⟨other, found, same⟩ := Option.map_eq_some_iff.mp read
    cases same
    cases symbol <;> cases found <;> exact ⟨sign, rfl⟩
  next => cases read

/-- The loop over the operands of a sum, with the part of the sum that is read already. -/
theorem additiveRest_follows (follows : Follows source (DerivesExpr source) nested) (count : Nat)
    {before : List Lexeme} {left : Expr} (derives : DerivesAdditive source before left)
    (rest : List Lexeme) :
    Meets source rest
      (fun read => ∃ word, before ++ rest = word ++ read.2 ∧ DerivesAdditive source word read.1)
      (additiveRest source nested (before ++ rest) count left rest) := by
  induction count generalizing before left rest with
  | zero => exact .ok ⟨before, rfl, derives⟩
  | succ count ih =>
      rw [additiveRest]
      split
      next => exact .ok ⟨before, rfl, derives⟩
      next op afterSign read =>
        obtain ⟨sign, rfl⟩ := additiveOp?_eq_some read
        refine Meets.after ?_ [op.symbol.lexeme sign]
        refine (application_follows follows).bind ?_
        rintro after right rest rfl derivesRight
        have split : before ++ op.symbol.lexeme sign :: (after ++ rest) =
            (before ++ op.symbol.lexeme sign :: after) ++ rest := by
          simp only [List.cons_append, List.append_assoc]
        dsimp only
        rw [split, between_append]
        exact ih (.operation derives derivesRight rfl) rest

theorem additive_follows (follows : Follows source (DerivesExpr source) nested) :
    Follows source (DerivesAdditive source) (additive source nested) := by
  intro lexemes
  refine (application_follows follows).bind ?_
  rintro word first rest rfl derives
  exact additiveRest_follows follows _ (.operand derives) rest

theorem condition_follows (follows : Follows source (DerivesExpr source) nested) :
    Follows source (DerivesCondition source) (condition source nested) := by
  intro lexemes
  refine (additive_follows follows).bind ?_
  rintro before left rest rfl derivesLeft
  dsimp only
  split
  next =>
    rw [between_append]
    exact .ok ⟨before, rfl, .truthy derivesLeft⟩
  next op afterSign read =>
    obtain ⟨sign, rfl⟩ := comparison?_eq_some read
    refine Meets.after ?_ [op.symbol.lexeme sign]
    refine (additive_follows follows).bind ?_
    rintro after right rest rfl derivesRight
    have split : before ++ op.symbol.lexeme sign :: (after ++ rest) =
        (before ++ op.symbol.lexeme sign :: after) ++ rest := by
      simp only [List.cons_append, List.append_assoc]
    dsimp only
    rw [split, between_append]
    exact .ok ⟨_, rfl, .comparison derivesLeft derivesRight rfl⟩

theorem choice_follows (follows : Follows source (DerivesExpr source) nested) :
    Follows source (DerivesExpr source) (choice source nested) := by
  intro lexemes
  refine (expect_follows .ifWord .ifWord).bind ?_
  rintro _ _ afterIf rfl ⟨ifWord, rfl⟩
  refine (condition_follows follows).bind ?_
  rintro conditionWord condition afterCondition rfl derivesCondition
  refine (expect_follows .thenWord .thenWord).bind ?_
  rintro _ _ afterThen rfl ⟨thenWord, rfl⟩
  refine follows.bind ?_
  rintro trueWord whenTrue afterTrue rfl derivesTrue
  refine (expect_follows .elseWord .elseWord).bind ?_
  rintro _ _ afterElse rfl ⟨elseWord, rfl⟩
  refine follows.bind ?_
  rintro falseWord whenFalse rest rfl derivesFalse
  have split : [Symbol.ifWord.lexeme ifWord] ++ (conditionWord ++
      ([Symbol.thenWord.lexeme thenWord] ++ (trueWord ++
        ([Symbol.elseWord.lexeme elseWord] ++ (falseWord ++ rest))))) =
      (Symbol.ifWord.lexeme ifWord :: conditionWord ++ Symbol.thenWord.lexeme thenWord ::
        trueWord ++ Symbol.elseWord.lexeme elseWord :: falseWord) ++ rest := by
    simp only [List.cons_append, List.nil_append, List.append_assoc]
  dsimp only
  rw [split, between_append]
  exact .ok ⟨_, rfl, .ifThenElse derivesCondition derivesTrue derivesFalse rfl⟩

theorem expressionWith_follows (follows : Follows source (DerivesExpr source) nested) :
    Follows source (DerivesExpr source) (expressionWith source nested) := by
  intro lexemes
  unfold expressionWith
  split
  · exact binding_follows follows _
  · exact choice_follows follows _
  · have sum := additive_follows follows lexemes
    refine ⟨fun accepted => ?_, sum.complains⟩
    obtain ⟨word, split, derives⟩ := sum.accepts accepted
    exact ⟨word, split, .additive derives⟩

/-- Whatever the depth, what is read follows the grammar. -/
theorem expressionWithin_follows (source : List Char) (depth : Nat) :
    Follows source (DerivesExpr source) (expressionWithin source depth) := by
  induction depth with
  | zero => exact fun lexemes => .unexpected .expression
  | succ depth ih => exact expressionWith_follows ih

theorem expression_follows (source : List Char) :
    Follows source (DerivesExpr source) (expression source) :=
  fun lexemes => expressionWithin_follows source lexemes.length lexemes

/-- The row starts with the header of a plain binding whose body does not follow, and the error is
about the header. -/
inductive DeclaresNothing (source : List Char) : List Lexeme → Error → Prop where
  | intro {header letWord assign valueWord value rest} {name : Name} :
      DerivesExpr source valueWord value →
      header = Symbol.letWord.lexeme letWord :: name.lexeme :: Symbol.assign.lexeme assign ::
        valueWord →
      (∀ inWord more, rest ≠ Symbol.inWord.lexeme inWord :: more) →
      DeclaresNothing source (header ++ rest)
        ⟨.bindingWithoutBody name.text, extent source header⟩

theorem declaration_accepts {lexemes rest : List Lexeme} {value : Declaration}
    (accepted : declaration source lexemes = .ok (value, rest)) :
    ∃ word, lexemes = word ++ rest ∧ DerivesDeclaration source word value := by
  unfold declaration at accepted
  split at accepted
  · obtain ⟨⟨header, afterHeader⟩, read, accepted⟩ := except_bind_eq_ok_iff.mp accepted
    obtain ⟨headerWord, split, derives⟩ :=
      (header_follows (expression_follows source) _).accepts read
    dsimp only at accepted
    rw [split] at accepted ⊢
    split at accepted
    · obtain ⟨⟨expr, rest'⟩, body, accepted⟩ := except_bind_eq_ok_iff.mp accepted
      cases accepted
      obtain ⟨word, whole, derivesExpr⟩ :=
        (bindingBody_follows (expression_follows source) derives _).accepts body
      exact ⟨word, whole, .expression derivesExpr⟩
    · cases derives with
      | @binding _ _ declared _ _ _ _ derivesRow derivesValue same =>
        cases declared with
        | none => cases accepted
        | some parameters =>
            cases accepted
            exact ⟨headerWord, rfl, .function derivesRow derivesValue same⟩
  · obtain ⟨⟨expr, rest'⟩, read, accepted⟩ := except_bind_eq_ok_iff.mp accepted
    cases accepted
    obtain ⟨word, split, derives⟩ := (expression_follows source lexemes).accepts read
    exact ⟨word, split, .expression derives⟩

/-- A declaration is refused with a complaint, or because a complete header declares nothing. -/
theorem declaration_refuses {lexemes : List Lexeme} {error : Error}
    (refused : declaration source lexemes = .error error) :
    Complaint source lexemes error ∨ DeclaresNothing source lexemes error := by
  unfold declaration at refused
  split at refused
  · rcases except_bind_eq_error_iff.mp refused with inHeader | ⟨⟨header, afterHeader⟩, read, later⟩
    · exact .inl ((header_follows (expression_follows source) _).complains inHeader)
    obtain ⟨headerWord, split, derives⟩ :=
      (header_follows (expression_follows source) _).accepts read
    dsimp only at later
    rw [split] at later ⊢
    split at later
    · rcases except_bind_eq_error_iff.mp later with inBody | ⟨_, _, made⟩
      · have body {afterIn} := bindingBody_follows (expression_follows source) derives afterIn
        exact .inl ((body.after headerWord).complains inBody)
      · cases made
    next noBody =>
      cases derives with
      | @binding _ _ declared _ _ _ _ derivesRow derivesValue same =>
        cases declared with
        | some parameters => cases later
        | none =>
            cases derivesRow
            cases later
            exact .inr (.intro derivesValue same fun inWord more => noBody inWord more)
  · rcases except_bind_eq_error_iff.mp refused with inExpr | ⟨_, _, made⟩
    · exact .inl ((expression_follows source lexemes).complains inExpr)
    · cases made

end Parser

end FrameLang
