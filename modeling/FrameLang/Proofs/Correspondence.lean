import FrameLang.Proofs.GrammarComplete
import FrameLang.Proofs.Spans

/-!
Two rows of lexemes with the same tokens are read alike. Their places may differ, and so may the
sources that the spans of nodes are cut from. What matters is that two changes of spans bring the
places of the one row and of the other together. Then both rows are accepted and give the same
declarations up to these changes, or both are refused for the same cause at the same place.
-/

set_option autoImplicit false

namespace FrameLang

open Source

/-- One token at its place in the one row and in the other. -/
structure Twin where
  token : Token
  here : Span
  there : Span

namespace Twin

def first (twin : Twin) : Lexeme := ⟨twin.token, twin.here⟩

def second (twin : Twin) : Lexeme := ⟨twin.token, twin.there⟩

end Twin

/-- The changes bring the places of all lexemes together, those between any two lexemes, and those of
the ends of the sources. The texts of the lexemes are the same without a change, as complaints quote
them. -/
structure Corresponds (f g : Span → Span) (source source' : List Char) (row : List Twin) :
    Prop where
  text : ∀ twin ∈ row, twin.here.text = twin.there.text
  span : ∀ twin ∈ row, f twin.here = g twin.there
  between : ∀ first ∈ row, ∀ last ∈ row,
    f (slice source first.here.start last.here.stop) =
      g (slice source' first.there.start last.there.stop)
  finish : f (endSpan source) = g (endSpan source')

/-- Both yield something, and what they yield is related, or both fail for the same cause at the same
place. -/
inductive Agree (f g : Span → Span) {β : Type} (Related : β → β → Prop) :
    Except Error β → Except Error β → Prop where
  | ok {one other} : Related one other → Agree f g Related (.ok one) (.ok other)
  | error {one other : Error} :
      one.cause = other.cause → f one.span = g other.span →
      Agree f g Related (.error one) (.error other)

/-- The same was read up to the changes of spans, and the same lexemes are left, of those within the
bound. -/
inductive ReadAlike (f g : Span → Span) {α : Type} (change : (Span → Span) → α → α)
    (bound : List Twin) : α × List Lexeme → α × List Lexeme → Prop where
  | intro {one other rest} :
      change f one = change g other → rest <:+ bound →
      ReadAlike f g change bound (one, rest.map Twin.first) (other, rest.map Twin.second)

/-- In front of every row that corresponds, the parsers read at least one lexeme and agree. -/
def ReadersAgree (f g : Span → Span) (source source' : List Char) {α : Type}
    (change : (Span → Span) → α → α) (parser parser' : Parser α) : Prop :=
  ∀ row, Corresponds f g source source' row →
    Agree f g (ReadAlike f g change row.tail) (parser (row.map Twin.first))
      (parser' (row.map Twin.second))

section Agree

variable {f g : Span → Span} {source source' : List Char} {row : List Twin}

theorem Corresponds.of_suffix (corresponds : Corresponds f g source source' row)
    {rest : List Twin} (suffix : rest <:+ row) : Corresponds f g source source' rest where
  text := fun twin member => corresponds.text twin (suffix.subset member)
  span := fun twin member => corresponds.span twin (suffix.subset member)
  between := fun first member last member' =>
    corresponds.between first (suffix.subset member) last (suffix.subset member')
  finish := corresponds.finish

theorem Corresponds.tail {twin : Twin} (corresponds : Corresponds f g source source' (twin :: row)) :
    Corresponds f g source source' row :=
  corresponds.of_suffix (List.suffix_cons twin row)

theorem Agree.bind {α β : Type} {Related : α → α → Prop} {Related' : β → β → Prop}
    {one other : Except Error α} {next next' : α → Except Error β}
    (first : Agree f g Related one other)
    (later : ∀ value value', Related value value' → Agree f g Related' (next value) (next' value')) :
    Agree f g Related' (one >>= next) (other >>= next') := by
  cases first with
  | ok related => exact later _ _ related
  | error cause span => exact .error cause span

/-- One step of reading, and what is read behind it. -/
theorem Agree.step {α β : Type} {change : (Span → Span) → α → α} {Related : β → β → Prop}
    {bound : List Twin} {one other : Except Error (α × List Lexeme)}
    {next next' : α × List Lexeme → Except Error β}
    (first : Agree f g (ReadAlike f g change bound) one other)
    (later : ∀ value value' rest, change f value = change g value' → rest <:+ bound →
      Agree f g Related (next (value, rest.map Twin.first)) (next' (value', rest.map Twin.second))) :
    Agree f g Related (one >>= next) (other >>= next') := by
  apply first.bind
  rintro _ _ ⟨same, suffix⟩
  exact later _ _ _ same suffix

/-- One more step, in front of a rest that is left of some row. What it leaves is left of it as well. -/
theorem ReadersAgree.step {α β : Type} {change : (Span → Span) → α → α} {Related : β → β → Prop}
    {parser parser' : Parser α} {next next' : α × List Lexeme → Except Error β}
    (agree : ReadersAgree f g source source' change parser parser')
    (corresponds : Corresponds f g source source' row) {rest : List Twin} (suffix : rest <:+ row)
    (later : ∀ value value' more, change f value = change g value' → more <:+ row →
      Agree f g Related (next (value, more.map Twin.first)) (next' (value', more.map Twin.second))) :
    Agree f g Related (parser (rest.map Twin.first) >>= next)
      (parser' (rest.map Twin.second) >>= next') := by
  refine (agree rest (corresponds.of_suffix suffix)).step fun value value' more same behind => ?_
  exact later value value' more same (behind.trans ((List.tail_suffix rest).trans suffix))

theorem unexpected_agree {β : Type} {Related : β → β → Prop}
    (corresponds : Corresponds f g source source' row) (wanted : Expectation) :
    Agree f g Related (.error (Parser.unexpected source wanted (row.map Twin.first)))
      (.error (Parser.unexpected source' wanted (row.map Twin.second))) := by
  cases row with
  | nil => exact .error rfl corresponds.finish
  | cons twin rest =>
      have text := corresponds.text twin List.mem_cons_self
      apply Agree.error
      · exact congrArg (fun text => Cause.unexpected wanted (some text)) text
      · exact corresponds.span twin List.mem_cons_self

/-- The extents of the lexemes that two readers took off the front. -/
theorem between_agree {twin : Twin} {row rest : List Twin}
    (corresponds : Corresponds f g source source' (twin :: row)) (suffix : rest <:+ row) :
    f (Parser.between source ((twin :: row).map Twin.first) (rest.map Twin.first)) =
      g (Parser.between source' ((twin :: row).map Twin.second) (rest.map Twin.second)) := by
  obtain ⟨word, rfl⟩ := suffix
  have split : twin :: (word ++ rest) = (twin :: word) ++ rest := rfl
  have last : word.getLastD twin ∈ twin :: (word ++ rest) := by
    rw [split]
    exact List.mem_append_left _ (List.getLastD_mem_cons ..)
  rw [split, List.map_append, List.map_append, Parser.between_append, Parser.between_append,
    List.map_cons, List.map_cons, extent, extent, List.getLastD_map, List.getLastD_map]
  exact corresponds.between twin List.mem_cons_self _ last

end Agree

namespace Parser

def Header.mapSpans (f : Span → Span) (header : Header) : Header where
  name := header.name.mapSpan f
  parameters := header.parameters.map (List.map (Name.mapSpan f))
  value := header.value.mapSpans f
  span := f header.span

variable {f g : Span → Span} {source source' : List Char} {nested nested' : Parser Expr}

/-!
## Lexemes
-/

theorem expect_agree (symbol : Symbol) (wanted : Expectation) :
    ReadersAgree f g source source' (fun _ => id) (expect source symbol wanted)
      (expect source' symbol wanted) := by
  intro row corresponds
  cases row with
  | nil => exact unexpected_agree corresponds wanted
  | cons twin rest =>
      obtain ⟨token, here, there⟩ := twin
      simp only [List.map_cons, Twin.first, Twin.second, expect]
      split
      next => exact .ok (.intro rfl (List.suffix_refl rest))
      next => exact unexpected_agree corresponds wanted

theorem identifier_agree :
    ReadersAgree f g source source' Name.mapSpan (identifier source) (identifier source') := by
  intro row corresponds
  cases row with
  | nil => exact unexpected_agree corresponds .identifier
  | cons twin rest =>
      obtain ⟨token, here, there⟩ := twin
      cases token with
      | identifier name =>
          have place := corresponds.span _ List.mem_cons_self
          have same : Name.mapSpan f ⟨name, here⟩ = Name.mapSpan g ⟨name, there⟩ :=
            congrArg (Name.mk name) place
          exact .ok (.intro same (List.suffix_refl rest))
      | symbol | number => exact unexpected_agree corresponds .identifier

theorem identifiers_agree {row : List Twin} (corresponds : Corresponds f g source source' row) :
    ReadAlike f g (fun f => List.map (Name.mapSpan f)) row (identifiers (row.map Twin.first))
      (identifiers (row.map Twin.second)) := by
  induction row with
  | nil => exact .intro rfl (List.suffix_refl [])
  | cons twin row ih =>
      obtain ⟨token, here, there⟩ := twin
      have whole : ReadAlike f g (fun f => List.map (Name.mapSpan f)) (⟨token, here, there⟩ :: row)
          ([], (⟨token, here, there⟩ :: row).map Twin.first)
          ([], (⟨token, here, there⟩ :: row).map Twin.second) := .intro rfl (List.suffix_refl _)
      cases token with
      | symbol | number => exact whole
      | identifier name =>
          have others := ih corresponds.tail
          have place := corresponds.span _ List.mem_cons_self
          simp only [List.map_cons, Twin.first, Twin.second, identifiers]
          generalize identifiers (row.map Twin.first) = one at others ⊢
          generalize identifiers (row.map Twin.second) = other at others ⊢
          obtain ⟨same, suffix⟩ := others
          refine .intro ?_ (suffix.trans (List.suffix_cons _ row))
          rw [List.map_cons, List.map_cons, same]
          exact congrArg (· :: _) (congrArg (Name.mk name) place)

/-- Empty parentheses stand in front of both rows or of neither. -/
theorem parens_or_none (row : List Twin) :
    (∃ left left' right right' rest,
      row = ⟨.symbol .leftParen, left, left'⟩ :: ⟨.symbol .rightParen, right, right'⟩ :: rest) ∨
    (∀ left right more, row.map Twin.first ≠
      Symbol.leftParen.lexeme left :: Symbol.rightParen.lexeme right :: more) ∧
    ∀ left right more, row.map Twin.second ≠
      Symbol.leftParen.lexeme left :: Symbol.rightParen.lexeme right :: more := by
  rcases row with _ | ⟨⟨token, here, there⟩, _ | ⟨⟨token', here', there'⟩, rest⟩⟩
  · simp
  · simp
  by_cases parens : token = .symbol .leftParen ∧ token' = .symbol .rightParen
  · obtain ⟨rfl, rfl⟩ := parens
    exact .inl ⟨_, _, _, _, _, rfl⟩
  · right
    constructor
    all_goals
      intro left right more same
      simp only [List.map_cons, Twin.first, Twin.second, Symbol.lexeme, List.cons.injEq,
        Lexeme.mk.injEq] at same
      exact parens ⟨same.1.1, same.2.1.1⟩

theorem parameters_agree {row : List Twin} (corresponds : Corresponds f g source source' row) :
    ReadAlike f g (fun f => Option.map (List.map (Name.mapSpan f))) row
      (parameters (row.map Twin.first)) (parameters (row.map Twin.second)) := by
  rcases parens_or_none row with ⟨_, _, _, _, rest, rfl⟩ | ⟨noParens, noParens'⟩
  · exact .intro rfl ⟨[_, _], rfl⟩
  · have names := identifiers_agree corresponds
    rw [parameters, parameters]
    · generalize identifiers (row.map Twin.first) = one at names ⊢
      generalize identifiers (row.map Twin.second) = other at names ⊢
      obtain @⟨declared, declared', rest, same, suffix⟩ := names
      cases declared with
      | nil =>
          cases List.map_eq_nil_iff.mp same.symm
          exact .intro rfl suffix
      | cons name more =>
          cases declared' with
          | nil => cases same
          | cons name' more' => exact .intro (congrArg some same) suffix
    · exact noParens'
    · exact noParens

theorem startsAtom_agree (row : List Twin) :
    startsAtom (row.map Twin.first) = startsAtom (row.map Twin.second) := by
  cases row with
  | nil => rfl
  | cons twin rest =>
      obtain ⟨token, here, there⟩ := twin
      cases token with
      | symbol symbol => cases symbol <;> rfl
      | _ => rfl

theorem additiveOp?_agree (row : List Twin) :
    (additiveOp? (row.map Twin.first) = none ∧ additiveOp? (row.map Twin.second) = none) ∨
    ∃ op, additiveOp? (row.map Twin.first) = some (op, row.tail.map Twin.first) ∧
      additiveOp? (row.map Twin.second) = some (op, row.tail.map Twin.second) := by
  cases row with
  | nil => exact .inl ⟨rfl, rfl⟩
  | cons twin rest =>
      obtain ⟨token, here, there⟩ := twin
      cases token with
      | number | identifier => exact .inl ⟨rfl, rfl⟩
      | symbol symbol =>
          simp only [List.map_cons, Twin.first, Twin.second, additiveOp?, List.tail_cons]
          cases symbol.additive? with
          | none => exact .inl ⟨rfl, rfl⟩
          | some op => exact .inr ⟨op, rfl, rfl⟩

theorem comparison?_agree (row : List Twin) :
    (comparison? (row.map Twin.first) = none ∧ comparison? (row.map Twin.second) = none) ∨
    ∃ op, comparison? (row.map Twin.first) = some (op, row.tail.map Twin.first) ∧
      comparison? (row.map Twin.second) = some (op, row.tail.map Twin.second) := by
  cases row with
  | nil => exact .inl ⟨rfl, rfl⟩
  | cons twin rest =>
      obtain ⟨token, here, there⟩ := twin
      cases token with
      | number | identifier => exact .inl ⟨rfl, rfl⟩
      | symbol symbol =>
          simp only [List.map_cons, Twin.first, Twin.second, comparison?, List.tail_cons]
          cases symbol.comparison? with
          | none => exact .inl ⟨rfl, rfl⟩
          | some op => exact .inr ⟨op, rfl, rfl⟩

section Nested

/-! The parsers for expressions inside others are taken to agree. -/

variable (nestedAgree : ReadersAgree f g source source' Expr.mapSpans nested nested')

include nestedAgree

/-!
## Bindings

In front of a binding the first lexeme is the word that opens it. What the steps leave is left of the
row behind this word, and the span of the binding reaches from the word up to there.
-/

theorem header_agree :
    ReadersAgree f g source source' Header.mapSpans (header source nested)
      (header source' nested') := by
  intro row corresponds
  cases row with
  | nil => exact unexpected_agree corresponds .letWord
  | cons twin row =>
  have behind := corresponds.tail
  refine (expect_agree .letWord .letWord _ corresponds).step ?_
  rintro ⟨⟩ ⟨⟩ afterLet - letSuffix
  refine identifier_agree.step behind letSuffix ?_
  rintro name name' afterName sameName nameSuffix
  have declared := parameters_agree (behind.of_suffix nameSuffix)
  dsimp only
  generalize parameters (afterName.map Twin.first) = one at declared ⊢
  generalize parameters (afterName.map Twin.second) = other at declared ⊢
  obtain @⟨parameters, parameters', afterRow, sameParameters, rowSuffix⟩ := declared
  refine (expect_agree .assign .assign).step behind (rowSuffix.trans nameSuffix) ?_
  rintro ⟨⟩ ⟨⟩ afterAssign - assignSuffix
  refine nestedAgree.step behind assignSuffix ?_
  rintro value value' rest sameValue suffix
  refine .ok (.intro ?_ suffix)
  rw [Header.mapSpans, Header.mapSpans]
  dsimp only
  rw [sameName, sameParameters, sameValue, between_agree corresponds suffix]

/-- The rest of a binding, where the whole binding starts with the first lexeme of the rows. -/
theorem bindingBody_agree {twin : Twin} {row rest : List Twin}
    (corresponds : Corresponds f g source source' (twin :: row)) (suffix : rest <:+ row)
    {header header' : Header} (same : header.mapSpans f = header'.mapSpans g) :
    Agree f g (ReadAlike f g Expr.mapSpans row)
      (bindingBody source nested ((twin :: row).map Twin.first) header (rest.map Twin.first))
      (bindingBody source' nested' ((twin :: row).map Twin.second) header'
        (rest.map Twin.second)) := by
  have behind := corresponds.tail
  refine (expect_agree .inWord .inWord).step behind suffix ?_
  rintro ⟨⟩ ⟨⟩ afterIn - inSuffix
  refine nestedAgree.step behind inSuffix ?_
  rintro body body' rest sameBody suffix
  have sameSpan := between_agree corresponds suffix
  obtain ⟨name, parameters, value, span⟩ := header
  obtain ⟨name', parameters', value', span'⟩ := header'
  obtain ⟨sameName, sameParameters, sameValue, sameHeader⟩ := Header.mk.inj same
  cases parameters with
  | none =>
      cases Option.map_eq_none_iff.mp sameParameters.symm
      refine .ok (.intro ?_ suffix)
      rw [Expr.mapSpans, Expr.mapSpans, sameName, sameValue, sameBody, sameSpan]
  | some declared =>
      obtain ⟨declared', rfl, sameDeclared⟩ := Option.map_eq_some_iff.mp sameParameters.symm
      refine .ok (.intro ?_ suffix)
      rw [Expr.mapSpans, Expr.mapSpans, Function.mapSpans, Function.mapSpans, sameName,
        sameDeclared, sameValue, sameHeader, sameBody, sameSpan]

theorem binding_agree :
    ReadersAgree f g source source' Expr.mapSpans (binding source nested)
      (binding source' nested') := by
  intro row corresponds
  cases row with
  | nil => exact unexpected_agree corresponds .letWord
  | cons twin row =>
      refine (header_agree nestedAgree _ corresponds).step ?_
      rintro header header' rest same suffix
      exact bindingBody_agree nestedAgree corresponds suffix same

/-!
## Sums
-/

theorem atom_agree :
    ReadersAgree f g source source' Expr.mapSpans (atom source nested) (atom source' nested') := by
  intro row corresponds
  cases row with
  | nil => exact unexpected_agree corresponds .expression
  | cons twin rest =>
      have place := corresponds.span twin List.mem_cons_self
      obtain ⟨token, here, there⟩ := twin
      cases token with
      | number number =>
          exact .ok (.intro (congrArg (fun span => Expr.literal ⟨number, span⟩) place)
            (List.suffix_refl rest))
      | identifier name =>
          exact .ok (.intro (congrArg (fun span => Expr.var ⟨name, span⟩) place)
            (List.suffix_refl rest))
      | symbol symbol =>
          by_cases paren : symbol = .leftParen
          · subst paren
            refine nestedAgree.step corresponds.tail (List.suffix_refl rest) ?_
            rintro inner inner' afterInner sameInner innerSuffix
            refine (expect_agree .rightParen .closing).step corresponds.tail innerSuffix ?_
            rintro ⟨⟩ ⟨⟩ more - suffix
            exact .ok (.intro sameInner suffix)
          · cases symbol with
            | leftParen => exact absurd rfl paren
            | _ => exact unexpected_agree corresponds .expression

theorem atoms_agree (count : Nat) {row : List Twin}
    (corresponds : Corresponds f g source source' row) :
    Agree f g (ReadAlike f g argumentsMapSpans row) (atoms source nested count (row.map Twin.first))
      (atoms source' nested' count (row.map Twin.second)) := by
  induction count generalizing row with
  | zero => exact .ok (.intro rfl (List.suffix_refl row))
  | succ count ih =>
      rw [atoms, atoms, ← startsAtom_agree]
      split
      · refine (atom_agree nestedAgree).step corresponds (List.suffix_refl row) ?_
        rintro first first' afterFirst sameFirst firstSuffix
        refine (ih (corresponds.of_suffix firstSuffix)).step ?_
        rintro others others' rest sameOthers suffix
        refine .ok (.intro ?_ (suffix.trans firstSuffix))
        rw [argumentsMapSpans, argumentsMapSpans, sameFirst, sameOthers]
      · exact .ok (.intro rfl (List.suffix_refl row))

theorem application_agree :
    ReadersAgree f g source source' Expr.mapSpans (application source nested)
      (application source' nested') := by
  intro row corresponds
  cases row with
  | nil => exact unexpected_agree corresponds .expression
  | cons twin rest =>
  have place := corresponds.span twin List.mem_cons_self
  obtain ⟨token, here, there⟩ := twin
  cases token with
  | number number => exact atom_agree nestedAgree _ corresponds
  | symbol symbol => exact atom_agree nestedAgree _ corresponds
  | identifier name =>
      have sameName : Name.mapSpan f ⟨name, here⟩ = Name.mapSpan g ⟨name, there⟩ :=
        congrArg (Name.mk name) place
      rcases parens_or_none rest with ⟨_, _, _, _, more, rfl⟩ | ⟨noParens, noParens'⟩
      · have suffix {left right : Twin} : more <:+ left :: right :: more := ⟨[left, right], rfl⟩
        have sameSpan := between_agree corresponds suffix
        refine .ok (.intro ?_ suffix)
        rw [Expr.mapSpans, Expr.mapSpans, sameName]
        exact congrArg (Expr.call _ []) sameSpan
      · simp only [List.map_cons, Twin.first, Twin.second]
        rw [application, application]
        · simp only [identifier, except_ok_bind, List.length_map]
          refine (atoms_agree nestedAgree _ corresponds.tail).step ?_
          rintro arguments arguments' more sameArguments suffix
          have sameSpan := between_agree corresponds suffix
          cases arguments with
          | nil =>
              cases arguments' with
              | nil => exact .ok (.intro (congrArg Expr.var sameName) suffix)
              | cons => cases sameArguments
          | cons first others =>
              cases arguments' with
              | nil => cases sameArguments
              | cons first' others' =>
                  refine .ok (.intro ?_ suffix)
                  rw [Expr.mapSpans, Expr.mapSpans, sameName, sameArguments]
                  exact congrArg (Expr.call _ _) sameSpan
        · exact noParens'
        · exact noParens

/-- The loop over the operands of a sum that starts with the first lexeme of the rows. -/
theorem additiveRest_agree {twin : Twin} {row : List Twin}
    (corresponds : Corresponds f g source source' (twin :: row)) (count : Nat) {left left' : Expr}
    (sameLeft : left.mapSpans f = left'.mapSpans g) {rest : List Twin} (suffix : rest <:+ row) :
    Agree f g (ReadAlike f g Expr.mapSpans row)
      (additiveRest source nested ((twin :: row).map Twin.first) count left (rest.map Twin.first))
      (additiveRest source' nested' ((twin :: row).map Twin.second) count left'
        (rest.map Twin.second)) := by
  induction count generalizing left left' rest with
  | zero => exact .ok (.intro sameLeft suffix)
  | succ count ih =>
      rw [additiveRest, additiveRest]
      rcases additiveOp?_agree rest with ⟨noSign, noSign'⟩ | ⟨op, sign, sign'⟩
      · rw [noSign, noSign']
        exact .ok (.intro sameLeft suffix)
      · rw [sign, sign']
        have behind := (List.tail_suffix rest).trans suffix
        refine (application_agree nestedAgree).step corresponds.tail behind ?_
        rintro right right' more sameRight moreSuffix
        have sameSpan := between_agree corresponds moreSuffix
        have same : (Expr.additive op left right (between source ((twin :: row).map Twin.first)
              (more.map Twin.first))).mapSpans f =
            (Expr.additive op left' right' (between source' ((twin :: row).map Twin.second)
              (more.map Twin.second))).mapSpans g := by
          rw [Expr.mapSpans, Expr.mapSpans, sameLeft, sameRight, sameSpan]
        exact ih same moreSuffix

theorem additive_agree :
    ReadersAgree f g source source' Expr.mapSpans (additive source nested)
      (additive source' nested') := by
  intro row corresponds
  cases row with
  | nil => exact unexpected_agree corresponds .expression
  | cons twin row =>
      refine (application_agree nestedAgree _ corresponds).step ?_
      rintro left left' rest same suffix
      dsimp only
      rw [List.length_map, List.length_map]
      exact additiveRest_agree nestedAgree corresponds rest.length same suffix

theorem condition_agree :
    ReadersAgree f g source source' Condition.mapSpans (condition source nested)
      (condition source' nested') := by
  intro row corresponds
  cases row with
  | nil => exact unexpected_agree corresponds .expression
  | cons twin row =>
      refine (additive_agree nestedAgree _ corresponds).step ?_
      rintro left left' rest sameLeft suffix
      dsimp only
      rcases comparison?_agree rest with ⟨noSign, noSign'⟩ | ⟨op, sign, sign'⟩
      · rw [noSign, noSign']
        refine .ok (.intro ?_ suffix)
        rw [Condition.mapSpans, Condition.mapSpans, sameLeft, between_agree corresponds suffix]
      · rw [sign, sign']
        have behind := (List.tail_suffix rest).trans suffix
        refine (additive_agree nestedAgree).step corresponds.tail behind ?_
        rintro right right' more sameRight moreSuffix
        refine .ok (.intro ?_ moreSuffix)
        rw [Condition.mapSpans, Condition.mapSpans, sameLeft, sameRight,
          between_agree corresponds moreSuffix]

/-!
## Expressions
-/

theorem choice_agree :
    ReadersAgree f g source source' Expr.mapSpans (choice source nested)
      (choice source' nested') := by
  intro row corresponds
  cases row with
  | nil => exact unexpected_agree corresponds .ifWord
  | cons twin row =>
  have behind := corresponds.tail
  refine (expect_agree .ifWord .ifWord _ corresponds).step ?_
  rintro ⟨⟩ ⟨⟩ afterIf - ifSuffix
  refine (condition_agree nestedAgree).step behind ifSuffix ?_
  rintro condition condition' afterCondition sameCondition conditionSuffix
  refine (expect_agree .thenWord .thenWord).step behind conditionSuffix ?_
  rintro ⟨⟩ ⟨⟩ afterThen - thenSuffix
  refine nestedAgree.step behind thenSuffix ?_
  rintro whenTrue whenTrue' afterTrue sameTrue trueSuffix
  refine (expect_agree .elseWord .elseWord).step behind trueSuffix ?_
  rintro ⟨⟩ ⟨⟩ afterElse - elseSuffix
  refine nestedAgree.step behind elseSuffix ?_
  rintro whenFalse whenFalse' rest sameFalse suffix
  refine .ok (.intro ?_ suffix)
  rw [Expr.mapSpans, Expr.mapSpans, sameCondition, sameTrue, sameFalse,
    between_agree corresponds suffix]

theorem expressionWith_agree :
    ReadersAgree f g source source' Expr.mapSpans (expressionWith source nested)
      (expressionWith source' nested') := by
  intro row corresponds
  cases row with
  | nil => exact additive_agree nestedAgree _ corresponds
  | cons twin row =>
      obtain ⟨token, here, there⟩ := twin
      cases token with
      | number | identifier => exact additive_agree nestedAgree _ corresponds
      | symbol symbol =>
          cases symbol with
          | letWord => exact binding_agree nestedAgree _ corresponds
          | ifWord => exact choice_agree nestedAgree _ corresponds
          | _ => exact additive_agree nestedAgree _ corresponds

end Nested

theorem expressionWithin_agree (f g : Span → Span) (source source' : List Char) (depth : Nat) :
    ReadersAgree f g source source' Expr.mapSpans (expressionWithin source depth)
      (expressionWithin source' depth) := by
  induction depth with
  | zero => exact fun row corresponds => unexpected_agree corresponds .expression
  | succ depth ih => exact expressionWith_agree ih

theorem expression_agree (f g : Span → Span) (source source' : List Char) :
    ReadersAgree f g source source' Expr.mapSpans (expression source) (expression source') := by
  intro row corresponds
  rw [expression, expression, List.length_map, List.length_map]
  exact expressionWithin_agree f g source source' row.length row corresponds

/-!
## Declarations
-/

/-- What a header without a body declares. -/
def Header.declare (header : Header) (rest : List Lexeme) :
    Except Error (Declaration × List Lexeme) :=
  match header.parameters with
  | some parameters =>
    .ok (.function ⟨header.name, parameters, header.value, false, header.span⟩, rest)
  | none => .error ⟨.bindingWithoutBody header.name.text, header.span⟩

theorem declare_agree {header header' : Header} (same : header.mapSpans f = header'.mapSpans g)
    {bound rest : List Twin} (suffix : rest <:+ bound) :
    Agree f g (ReadAlike f g Declaration.mapSpans bound) (header.declare (rest.map Twin.first))
      (header'.declare (rest.map Twin.second)) := by
  obtain ⟨name, parameters, value, span⟩ := header
  obtain ⟨name', parameters', value', span'⟩ := header'
  obtain ⟨sameName, sameParameters, sameValue, sameHeader⟩ := Header.mk.inj same
  cases parameters with
  | none =>
      cases Option.map_eq_none_iff.mp sameParameters.symm
      have text : (name.mapSpan f).text = (name'.mapSpan g).text := congrArg Name.text sameName
      exact .error (congrArg Cause.bindingWithoutBody text) sameHeader
  | some declared =>
      obtain ⟨declared', rfl, sameDeclared⟩ := Option.map_eq_some_iff.mp sameParameters.symm
      refine .ok (.intro ?_ suffix)
      rw [Declaration.mapSpans, Declaration.mapSpans, Function.mapSpans, Function.mapSpans, sameName,
        sameDeclared, sameValue, sameHeader]

theorem declaration_agree (f g : Span → Span) (source source' : List Char) :
    ReadersAgree f g source source' Declaration.mapSpans (declaration source)
      (declaration source') := by
  intro row corresponds
  have expressions : Agree f g (ReadAlike f g Declaration.mapSpans row.tail)
      (expression source (row.map Twin.first) >>= fun read =>
        .ok (Declaration.expression read.1, read.2))
      (expression source' (row.map Twin.second) >>= fun read =>
        .ok (Declaration.expression read.1, read.2)) := by
    refine (expression_agree f g source source' row corresponds).step ?_
    rintro expr expr' rest same suffix
    exact .ok (.intro (congrArg Declaration.expression same) suffix)
  cases row with
  | nil => exact expressions
  | cons twin row =>
  obtain ⟨token, here, there⟩ := twin
  cases token with
  | number | identifier => exact expressions
  | symbol symbol =>
  by_cases isLet : symbol = .letWord
  · subst isLet
    refine (header_agree (expression_agree f g source source') _ corresponds).step ?_
    rintro header header' rest same suffix
    -- Only the word in front of a body makes a difference: without one, the header decides.
    have noBody := declare_agree same suffix
    cases rest with
    | nil => exact noBody
    | cons next more =>
    obtain ⟨token, here', there'⟩ := next
    cases token with
    | number | identifier => exact noBody
    | symbol symbol =>
    by_cases isIn : symbol = .inWord
    · subst isIn
      refine (bindingBody_agree (expression_agree f g source source') corresponds suffix same).step ?_
      rintro expr expr' rest same suffix
      exact .ok (.intro (congrArg Declaration.expression same) suffix)
    · cases symbol with
      | inWord => exact absurd rfl isIn
      | _ => exact noBody
  · cases symbol with
    | letWord => exact absurd rfl isLet
    | _ => exact expressions

/-- All declarations. The bounds on their number may differ as long as both suffice. -/
theorem declarationsWithin_agree {row : List Twin}
    (corresponds : Corresponds f g source source' row) {count count' : Nat}
    (enough : row.length ≤ count) (enough' : row.length ≤ count') :
    Agree f g
      (fun read read' => read.map (Declaration.mapSpans f) = read'.map (Declaration.mapSpans g))
      (declarationsWithin source count (row.map Twin.first))
      (declarationsWithin source' count' (row.map Twin.second)) := by
  induction count generalizing row count' with
  | zero =>
      cases List.eq_nil_of_length_eq_zero (Nat.le_zero.mp enough)
      cases count' <;> exact .ok rfl
  | succ count ih =>
      cases row with
      | nil => cases count' <;> exact .ok rfl
      | cons twin row =>
      cases count' with
      | zero => cases enough'
      | succ count' =>
      refine (declaration_agree f g source source' _ corresponds).step ?_
      rintro first first' rest same suffix
      have behind := corresponds.tail.of_suffix suffix
      have separator {Related : List Declaration → List Declaration → Prop} :
          Agree f g Related (.error (unexpected source .separator (rest.map Twin.first)))
            (.error (unexpected source' .separator (rest.map Twin.second))) :=
        unexpected_agree behind .separator
      have alone : [first].map (Declaration.mapSpans f) = [first'].map (Declaration.mapSpans g) :=
        congrArg (fun declaration => [declaration]) same
      cases rest with
      | nil => exact .ok alone
      | cons next more =>
      obtain ⟨token, here, there⟩ := next
      cases token with
      | number | identifier => exact separator
      | symbol symbol =>
      by_cases isSemicolon : symbol = .semicolon
      · subst isSemicolon
        -- Every declaration takes a lexeme, so both bounds still suffice for what is left.
        have shorter : more.length + 1 ≤ row.length := suffix.length_le
        rw [List.length_cons] at enough enough'
        have enoughMore : more.length ≤ count' := by omega
        refine (ih behind.tail (by omega) enoughMore).bind ?_
        intro read read' sameRead
        refine .ok ?_
        rw [List.map_cons, List.map_cons, same, sameRead]
      · cases symbol with
        | semicolon => exact absurd rfl isSemicolon
        | _ => exact separator

end Parser

end FrameLang
