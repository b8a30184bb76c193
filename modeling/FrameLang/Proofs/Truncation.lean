import FrameLang.Proofs.GrammarComplete

/-!
Rows of lexemes that are cut off. A parser that gets only the front of a row which it could read
asks for more at the point where the row is cut off. It does not blame a lexeme in front of that
point, for it decides how to go on by the first lexeme that it has not read. There is one exception.
An opening parenthesis behind the name of a binding can only be followed by the closing one, but the
parser looks for both at once, and so it blames the first of them if the second is cut off.
-/

set_option autoImplicit false

namespace FrameLang

namespace Parser

/-- The row ends in this parenthesis, behind the name of a binding. -/
def EndsOpened (row : List Lexeme) (left : Span) : Prop :=
  ∃ letWord name,
    [Symbol.letWord.lexeme letWord, Name.lexeme name, Symbol.leftParen.lexeme left] <:+ row

theorem EndsOpened.of_suffix {row whole : List Lexeme} {left : Span} (opened : EndsOpened row left)
    (suffix : row <:+ whole) : EndsOpened whole left := by
  obtain ⟨letWord, name, ends⟩ := opened
  exact ⟨letWord, name, ends.trans suffix⟩

/-- How a parser comes out on the front of a row, where the one that gets the whole row returns a
value in front of `rest`. It stands at the same point, or has read the front to its end, or asks for
more at that end. -/
inductive Stops {α : Type} (source : List Char) (Same : α → α → Prop) (front behind : List Lexeme)
    (value : α) (rest : List Lexeme) : Except Error (α × List Lexeme) → Prop where
  | level {read ahead} :
      Same value read → ahead <:+ front → rest = ahead ++ behind →
      Stops source Same front behind value rest (.ok (read, ahead))
  | complete {read} : Same value read → Stops source Same front behind value rest (.ok (read, []))
  | missing (wanted : Expectation) :
      Stops source Same front behind value rest
        (.error ⟨.unexpected wanted none, Source.endSpan source⟩)
  | opened {left} :
      EndsOpened front left →
      Stops source Same front behind value rest
        (.error ⟨.unexpected .assign (some left.text), left⟩)

/-- The parser that gets the front of a row keeps up with the one that gets the whole row. -/
def KeepsUp {α : Type} (source : List Char) (Same : α → α → Prop) (front behind : List Lexeme)
    (whole cut : Except Error (α × List Lexeme)) : Prop :=
  ∀ value rest, whole = .ok (value, rest) → Stops source Same front behind value rest cut

/-- Nothing is asked of the values. -/
def Whatever {α : Type} (_ _ : α) : Prop := True

section KeepsUp

variable {α β : Type} {source : List Char} {Same : α → α → Prop} {front behind : List Lexeme}

theorem KeepsUp.ok {value read : α} (same : Same value read) :
    KeepsUp source Same front behind (.ok (value, front ++ behind)) (.ok (read, front)) := by
  rintro _ _ ⟨⟩
  exact .level same (List.suffix_refl front) rfl

theorem KeepsUp.of_error {error : Error} {cut : Except Error (α × List Lexeme)} :
    KeepsUp source Same front behind (.error error) cut := by
  rintro _ _ ⟨⟩

theorem KeepsUp.missing {whole : Except Error (α × List Lexeme)} (wanted : Expectation) :
    KeepsUp source Same front behind whole (.error (unexpected source wanted [])) :=
  fun _ _ _ => .missing wanted

theorem KeepsUp.complete {whole : Except Error (α × List Lexeme)} {read : α} :
    KeepsUp source Whatever front behind whole (.ok (read, [])) :=
  fun _ _ _ => .complete trivial

theorem KeepsUp.of_suffix {row : List Lexeme} {whole cut : Except Error (α × List Lexeme)}
    (keepsUp : KeepsUp source Same row behind whole cut) (suffix : row <:+ front) :
    KeepsUp source Same front behind whole cut := by
  intro value rest accepted
  cases keepsUp value rest accepted with
  | level same shorter split => exact .level same (shorter.trans suffix) split
  | complete same => exact .complete same
  | missing wanted => exact .missing wanted
  | opened opened => exact .opened (opened.of_suffix suffix)

/-- One step of reading. Both parsers stand in front of the same lexemes, or the one that gets the
front has nothing left. -/
theorem KeepsUp.bind {SameNext : β → β → Prop} {whole cut : Except Error (α × List Lexeme)}
    {next cutNext : α × List Lexeme → Except Error (β × List Lexeme)}
    (first : KeepsUp source Same front behind whole cut)
    (later : ∀ value read ahead more, whole = .ok (value, ahead ++ more) → cut = .ok (read, ahead) →
      ahead <:+ front → Same value read →
      KeepsUp source SameNext ahead more (next (value, ahead ++ more)) (cutNext (read, ahead))) :
    KeepsUp source SameNext front behind (whole >>= next) (cut >>= cutNext) := by
  intro result rest accepted
  obtain ⟨⟨value, middle⟩, readFirst, readNext⟩ := except_bind_eq_ok_iff.mp accepted
  have stops := first value middle readFirst
  generalize ended : cut = outcome at stops ⊢
  cases stops with
  | @level read ahead same suffix split =>
      subst split
      have stopsNext :=
        later value read ahead behind readFirst ended suffix same result rest readNext
      change Stops _ _ _ _ _ _ (cutNext (read, ahead))
      generalize cutNext (read, ahead) = outcome at stopsNext ⊢
      cases stopsNext with
      | level same suffixNext split => exact .level same (suffixNext.trans suffix) split
      | complete same => exact .complete same
      | missing wanted => exact .missing wanted
      | opened opened => exact .opened (opened.of_suffix suffix)
  | @complete read same =>
      have stopsNext :=
        later value read [] middle readFirst ended List.nil_suffix same result rest readNext
      change Stops _ _ _ _ _ _ (cutNext (read, []))
      generalize cutNext (read, []) = outcome at stopsNext ⊢
      cases stopsNext with
      | level same suffixNext _ =>
          cases List.suffix_nil.mp suffixNext
          exact .complete same
      | complete same => exact .complete same
      | missing wanted => exact .missing wanted
      | opened opened =>
          obtain ⟨letWord, name, ends⟩ := opened
          cases List.suffix_nil.mp ends
  | missing wanted => exact .missing wanted
  | opened opened => exact .opened opened

end KeepsUp

variable {source cut : List Char} {nested cutNested : Parser Expr}

/-!
## Lexemes
-/

theorem expect_keepsUp (symbol : Symbol) (wanted : Expectation) (front behind : List Lexeme) :
    KeepsUp cut Whatever front behind (expect source symbol wanted (front ++ behind))
      (expect cut symbol wanted front) := by
  cases front with
  | nil => exact .missing wanted
  | cons lexeme row =>
      rw [List.cons_append, expect, expect]
      split
      · intro _ _ accepted
        cases accepted
        exact .level trivial (List.suffix_cons lexeme row) rfl
      · exact .of_error

theorem identifier_keepsUp (front behind : List Lexeme) :
    KeepsUp cut Eq front behind (identifier source (front ++ behind)) (identifier cut front) := by
  cases front with
  | nil => exact .missing .identifier
  | cons lexeme row =>
      obtain ⟨token, span⟩ := lexeme
      cases token with
      | symbol | number => exact .of_error
      | identifier name =>
          intro _ _ accepted
          cases accepted
          exact .level rfl (List.suffix_cons _ row) rfl

/-- A row of identifiers goes on behind the front, or ends in front of the same lexemes. -/
theorem identifiers_front (front behind : List Lexeme) :
    (identifiers front).2 = [] ∨
      identifiers (front ++ behind) = ((identifiers front).1, (identifiers front).2 ++ behind) := by
  induction front with
  | nil => exact .inl rfl
  | cons lexeme row ih =>
      obtain ⟨token, span⟩ := lexeme
      cases token with
      | symbol | number => exact .inr rfl
      | identifier name =>
          rcases ih with nothing | same
          · exact .inl nothing
          · exact .inr (by rw [List.cons_append, identifiers, same, identifiers])

theorem parameters_unclosed (left : Span) {row : List Lexeme}
    (unclosed : ¬∃ right more, row = Symbol.rightParen.lexeme right :: more) :
    parameters (Symbol.leftParen.lexeme left :: row) =
      (none, Symbol.leftParen.lexeme left :: row) := by
  rw [parameters]
  · rfl
  · intro span right more same
    obtain ⟨-, same⟩ := List.cons.inj same
    exact unclosed ⟨right, more, same⟩

/-- The parameters end at the same point with anything behind the front, but for two cases: the
front is read to its end, or it is a single parenthesis that is closed behind it. -/
theorem parameters_front (front behind : List Lexeme) :
    (parameters front).2 = [] ∨
      (∃ left right more, front = [Symbol.leftParen.lexeme left] ∧
        behind = Symbol.rightParen.lexeme right :: more) ∨
      parameters (front ++ behind) = ((parameters front).1, (parameters front).2 ++ behind) := by
  cases front with
  | nil => exact .inl rfl
  | cons lexeme row =>
      obtain ⟨token, span⟩ := lexeme
      cases token with
      | number => exact .inr (.inr rfl)
      | identifier name =>
          rcases identifiers_front row behind with ended | same
          · exact .inl ended
          · refine .inr (.inr ?_)
            simp only [List.cons_append, parameters, identifiers, same]
      | symbol symbol =>
          by_cases parenthesis : symbol = .leftParen
          · subst parenthesis
            cases row with
            | nil =>
                by_cases closed : ∃ right more, behind = Symbol.rightParen.lexeme right :: more
                · obtain ⟨right, more, same⟩ := closed
                  exact .inr (.inl ⟨span, right, more, rfl, same⟩)
                · exact .inr (.inr (parameters_unclosed span closed))
            | cons next row =>
                refine .inr (.inr ?_)
                by_cases closed : ∃ right, next = Symbol.rightParen.lexeme right
                · obtain ⟨right, rfl⟩ := closed
                  rfl
                · have unclosed (others : List Lexeme) :
                      ¬∃ right more, next :: others = Symbol.rightParen.lexeme right :: more := by
                    rintro ⟨right, more, same⟩
                    exact closed ⟨right, (List.cons.inj same).1⟩
                  have alone := parameters_unclosed span (unclosed row)
                  have whole := parameters_unclosed span (unclosed (row ++ behind))
                  exact whole.trans (congrArg (fun read => (read.1, read.2 ++ behind)) alone).symm
          · refine .inr (.inr ?_)
            cases symbol with
            | leftParen => exact absurd rfl parenthesis
            | _ => rfl

theorem parameters_suffix (lexemes : List Lexeme) : (parameters lexemes).2 <:+ lexemes := by
  obtain ⟨word, declared, rest, read, whole, -⟩ := parameters_follow lexemes
  rw [read]
  exact ⟨word, whole.symm⟩

/-!
## One layer of the grammar

The parser for nested expressions reads shorter rows.
-/

/-- The headers bind the same name with the same parameters. -/
def Header.Same (first second : Header) : Prop :=
  first.name = second.name ∧ first.parameters = second.parameters

/-- Parsers for nested expressions. On a front of at most `bound` lexemes the second one keeps up
with the first one, which gets the whole row. -/
structure NestedKeepsUp (source cut : List Char) (bound : Nat)
    (nested cutNested : Parser Expr) : Prop where
  follows : Follows source (DerivesExpr source) nested
  cutFollows : Follows cut (DerivesExpr cut) cutNested
  nothing : cutNested [] = .error (unexpected cut .expression [])
  keepsUp : ∀ front behind, front.length ≤ bound →
    KeepsUp cut Whatever front behind (nested (front ++ behind)) (cutNested front)

variable {source cut : List Char} {bound : Nat} {nested cutNested : Parser Expr}

/-- Behind the parameters only the sign and the value are left to read. -/
theorem headerValue_keepsUp (keep : NestedKeepsUp source cut bound nested cutNested)
    (name : Name) (declared : Option (List Name)) (lexemes cutLexemes : List Lexeme)
    {front behind : List Lexeme} (short : front.length ≤ bound) :
    KeepsUp cut Header.Same front behind
      (do
        let ((), rest) ← expect source .assign .assign (front ++ behind)
        let (value, rest) ← nested rest
        return (⟨name, declared, value, between source lexemes rest⟩, rest))
      (do
        let ((), rest) ← expect cut .assign .assign front
        let (value, rest) ← cutNested rest
        return (⟨name, declared, value, between cut cutLexemes rest⟩, rest)) := by
  refine (expect_keepsUp .assign .assign front behind).bind ?_
  intro _ _ afterAssign more _ _ suffix _
  refine (keep.keepsUp afterAssign more (Nat.le_trans suffix.length_le short)).bind ?_
  intro _ _ rest more _ _ _ _
  exact .ok ⟨rfl, rfl⟩

theorem header_keepsUp (keep : NestedKeepsUp source cut bound nested cutNested)
    {front behind : List Lexeme} (short : front.length ≤ bound + 1) :
    KeepsUp cut Header.Same front behind (header source nested (front ++ behind))
      (header cut cutNested front) := by
  -- The parser may have come to a single parenthesis only behind a name.
  by_cases opened : ∃ letWord name left, front =
      [Symbol.letWord.lexeme letWord, Name.lexeme name, Symbol.leftParen.lexeme left]
  · obtain ⟨letWord, name, left, rfl⟩ := opened
    exact fun _ _ _ => .opened ⟨letWord, name, List.suffix_refl _⟩
  refine (expect_keepsUp .letWord .letWord front behind).bind ?_
  intro _ _ afterLet more _ readLet _ _
  obtain ⟨_, rfl, letWord, rfl⟩ := (expect_follows .letWord .letWord front).accepts readLet
  refine (identifier_keepsUp afterLet more).bind ?_
  rintro name _ afterName more _ readName _ rfl
  obtain ⟨_, rfl, rfl⟩ := (identifier_follows afterLet).accepts readName
  simp only [List.length_append, List.length_cons, List.length_nil] at short
  have suffix := parameters_suffix afterName
  have shorter := suffix.length_le
  rcases parameters_front afterName more with ended | ⟨left, right, others, rfl, rfl⟩ | same
  · dsimp only
    rw [ended]
    exact .missing .assign
  · exact absurd ⟨letWord, name, left, rfl⟩ opened
  · dsimp only
    rw [same]
    exact (headerValue_keepsUp keep name (parameters afterName).1 _ _ (by omega)).of_suffix suffix

theorem bindingBody_keepsUp (keep : NestedKeepsUp source cut bound nested cutNested)
    {header cutHeader : Header} (lexemes cutLexemes : List Lexeme)
    {front behind : List Lexeme} (short : front.length ≤ bound) :
    KeepsUp cut Whatever front behind
      (bindingBody source nested lexemes header (front ++ behind))
      (bindingBody cut cutNested cutLexemes cutHeader front) := by
  refine (expect_keepsUp .inWord .inWord front behind).bind ?_
  intro _ _ afterIn more _ _ suffix _
  refine (keep.keepsUp afterIn more (Nat.le_trans suffix.length_le short)).bind ?_
  intro _ _ rest more _ _ _ _
  dsimp only
  cases header.parameters <;> cases cutHeader.parameters <;> exact .ok trivial

theorem Follows.length_le {α : Type} {derives : List Lexeme → α → Prop} {parser : Parser α}
    (follows : Follows source derives parser) {lexemes rest : List Lexeme} {read : α}
    (accepted : parser lexemes = .ok (read, rest)) : rest.length ≤ lexemes.length := by
  obtain ⟨word, whole, -⟩ := (follows lexemes).accepts accepted
  rw [whole, List.length_append]
  exact Nat.le_add_left ..

theorem header_shortens (follows : Follows source (DerivesExpr source) nested)
    {lexemes rest : List Lexeme} {read : Header}
    (accepted : header source nested lexemes = .ok (read, rest)) :
    rest.length < lexemes.length := by
  obtain ⟨word, rfl, derives⟩ := (header_follows follows lexemes).accepts accepted
  cases derives with
  | binding _ _ whole =>
      subst whole
      simp only [List.length_append, List.length_cons]
      omega

theorem atom_shortens (follows : Follows source (DerivesExpr source) nested)
    {lexemes rest : List Lexeme} {read : Expr}
    (accepted : atom source nested lexemes = .ok (read, rest)) : rest.length < lexemes.length := by
  obtain ⟨word, whole, derives⟩ := (atom_follows follows lexemes).accepts accepted
  have pos := derives.length_pos
  rw [whole, List.length_append]
  exact Nat.lt_add_of_pos_left pos

theorem binding_keepsUp (keep : NestedKeepsUp source cut bound nested cutNested)
    {front behind : List Lexeme} (short : front.length ≤ bound + 1) :
    KeepsUp cut Whatever front behind (binding source nested (front ++ behind))
      (binding cut cutNested front) := by
  refine (header_keepsUp keep short).bind ?_
  intro header cutHeader rest more _ read _ _
  have shorter := header_shortens keep.cutFollows read
  exact bindingBody_keepsUp keep _ _ (by omega)

theorem atom_keepsUp (keep : NestedKeepsUp source cut bound nested cutNested)
    {front behind : List Lexeme} (short : front.length ≤ bound + 1) :
    KeepsUp cut Whatever front behind (atom source nested (front ++ behind))
      (atom cut cutNested front) := by
  cases front with
  | nil => exact .missing .expression
  | cons lexeme row =>
      obtain ⟨token, span⟩ := lexeme
      have suffix := List.suffix_cons (⟨token, span⟩ : Lexeme) row
      cases token with
      | number number => exact (KeepsUp.ok trivial).of_suffix suffix
      | identifier name => exact (KeepsUp.ok trivial).of_suffix suffix
      | symbol symbol =>
          by_cases parenthesis : symbol = .leftParen
          · subst parenthesis
            refine KeepsUp.of_suffix ?_ suffix
            refine (keep.keepsUp row behind (Nat.le_of_succ_le_succ short)).bind ?_
            intro _ _ afterInner more _ _ _ _
            refine (expect_keepsUp .rightParen .closing afterInner more).bind ?_
            intro _ _ rest more _ _ _ _
            exact .ok trivial
          · cases symbol with
            | leftParen => exact absurd rfl parenthesis
            | _ => exact .of_error

theorem startsAtom_append (lexeme : Lexeme) (row behind : List Lexeme) :
    startsAtom (lexeme :: row ++ behind) = startsAtom (lexeme :: row) := by
  obtain ⟨token, span⟩ := lexeme
  cases token with
  | number | identifier => rfl
  | symbol symbol => cases symbol <;> rfl

theorem atoms_keepsUp (keep : NestedKeepsUp source cut bound nested cutNested)
    {count cutCount : Nat} {front behind : List Lexeme} (enough : (front ++ behind).length ≤ count)
    (cutEnough : front.length ≤ cutCount) (short : front.length ≤ bound + 1) :
    KeepsUp cut Whatever front behind (atoms source nested count (front ++ behind))
      (atoms cut cutNested cutCount front) := by
  induction count generalizing cutCount front behind with
  | zero =>
      obtain ⟨rfl, -⟩ := List.append_eq_nil_iff.mp
        (List.eq_nil_of_length_eq_zero (Nat.le_zero.mp enough))
      cases cutCount <;> exact .complete
  | succ count ih =>
      cases front with
      | nil => cases cutCount <;> exact .complete
      | cons lexeme row =>
          cases cutCount with
          | zero => cases cutEnough
          | succ cutCount =>
              rw [atoms, atoms, startsAtom_append]
              split
              · refine (atom_keepsUp keep short).bind ?_
                intro _ _ rest more readWhole read _ _
                have shorter := atom_shortens keep.follows readWhole
                have cutShorter := atom_shortens keep.cutFollows read
                refine (ih (by omega) (by omega) (by omega)).bind ?_
                intro _ _ rest more _ _ _ _
                exact .ok trivial
              · exact .ok trivial

/-- The row starts with the empty parentheses of a call without arguments. -/
def Calls (row : List Lexeme) : Prop :=
  ∃ left right more, row = Symbol.leftParen.lexeme left :: Symbol.rightParen.lexeme right :: more

theorem Calls.of_append {row behind : List Lexeme} (calls : Calls (row ++ behind))
    (some : row ≠ []) (closed : ∀ left, row ≠ [Symbol.leftParen.lexeme left]) : Calls row := by
  obtain ⟨left, right, more, same⟩ := calls
  match row with
  | [] => exact absurd rfl some
  | [second] =>
      obtain ⟨rfl, -⟩ := List.cons.inj same
      exact absurd rfl (closed left)
  | second :: third :: others =>
      simp only [List.cons_append, List.cons.injEq] at same
      obtain ⟨rfl, rfl, -⟩ := same
      exact ⟨left, right, others, rfl⟩

theorem application_atoms (name : Name) {row : List Lexeme} (noCall : ¬Calls row) :
    application source nested (name.lexeme :: row) =
      (atoms source nested row.length row >>= fun read => match read with
        | ([], rest) => .ok (.var name, rest)
        | (arguments, rest) =>
          .ok (.call name arguments (between source (name.lexeme :: row) rest), rest)) := by
  rw [Name.lexeme, application]
  · rfl
  · intro left right more same
    exact noCall ⟨left, right, more, same⟩

theorem application_keepsUp (keep : NestedKeepsUp source cut bound nested cutNested)
    {front behind : List Lexeme} (short : front.length ≤ bound + 1) :
    KeepsUp cut Whatever front behind (application source nested (front ++ behind))
      (application cut cutNested front) := by
  cases front with
  | nil => exact .missing .expression
  | cons lexeme row =>
      obtain ⟨token, span⟩ := lexeme
      cases token with
      | number | symbol => exact atom_keepsUp keep short
      | identifier text =>
          by_cases alone : row = []
          · subst alone
            exact .complete
          by_cases opened : ∃ left, row = [Symbol.leftParen.lexeme left]
          · -- Whether this is a call or an argument in parentheses shows only behind the front.
            obtain ⟨left, rfl⟩ := opened
            have missing : application cut cutNested
                [Name.lexeme ⟨text, span⟩, Symbol.leftParen.lexeme left] =
                .error (unexpected cut .expression []) := by
              have inner : atom cut cutNested [Symbol.leftParen.lexeme left] =
                  .error (unexpected cut .expression []) := by
                rw [Symbol.lexeme, atom, keep.nothing]
                rfl
              rw [application_atoms]
              · rw [List.length_singleton, atoms, inner]
                rfl
              · rintro ⟨_, _, _, same⟩
                cases same
            exact fun _ _ _ => missing ▸ .missing .expression
          by_cases calls : Calls row
          · obtain ⟨left, right, rest, rfl⟩ := calls
            exact (KeepsUp.ok trivial).of_suffix (List.suffix_append [_, _, _] rest)
          have noCall : ¬Calls (row ++ behind) := fun more =>
            calls (more.of_append alone fun left same => opened ⟨left, same⟩)
          have read : application cut cutNested (Name.lexeme ⟨text, span⟩ :: row) = _ :=
            application_atoms ⟨text, span⟩ calls
          have whole :
              application source nested (Name.lexeme ⟨text, span⟩ :: (row ++ behind)) = _ :=
            application_atoms ⟨text, span⟩ noCall
          change KeepsUp cut Whatever (Name.lexeme ⟨text, span⟩ :: row) behind
            (application source nested (Name.lexeme ⟨text, span⟩ :: (row ++ behind)))
            (application cut cutNested (Name.lexeme ⟨text, span⟩ :: row))
          rw [read, whole]
          refine KeepsUp.of_suffix ?_ (List.suffix_cons _ row)
          refine (atoms_keepsUp keep (Nat.le_refl _) (Nat.le_refl _)
            (Nat.le_of_succ_le short)).bind ?_
          intro arguments cutArguments rest more _ _ _ _
          cases arguments <;> cases cutArguments <;> exact .ok trivial

theorem additiveOp?_append (lexeme : Lexeme) (row behind : List Lexeme) :
    additiveOp? (lexeme :: row ++ behind) =
      (additiveOp? (lexeme :: row)).map fun read => (read.1, read.2 ++ behind) := by
  obtain ⟨token, span⟩ := lexeme
  cases token with
  | number | identifier => rfl
  | symbol symbol => cases symbol <;> rfl

theorem comparison?_append (lexeme : Lexeme) (row behind : List Lexeme) :
    comparison? (lexeme :: row ++ behind) =
      (comparison? (lexeme :: row)).map fun read => (read.1, read.2 ++ behind) := by
  obtain ⟨token, span⟩ := lexeme
  cases token with
  | number | identifier => rfl
  | symbol symbol => cases symbol <;> rfl

theorem additiveRest_keepsUp (keep : NestedKeepsUp source cut bound nested cutNested)
    (lexemes cutLexemes : List Lexeme) {count cutCount : Nat} (left cutLeft : Expr)
    {front behind : List Lexeme} (enough : (front ++ behind).length ≤ count)
    (cutEnough : front.length ≤ cutCount) (short : front.length ≤ bound + 1) :
    KeepsUp cut Whatever front behind
      (additiveRest source nested lexemes count left (front ++ behind))
      (additiveRest cut cutNested cutLexemes cutCount cutLeft front) := by
  induction count generalizing cutCount left cutLeft front behind with
  | zero =>
      obtain ⟨rfl, -⟩ := List.append_eq_nil_iff.mp
        (List.eq_nil_of_length_eq_zero (Nat.le_zero.mp enough))
      cases cutCount <;> exact .complete
  | succ count ih =>
      cases front with
      | nil => cases cutCount <;> exact .complete
      | cons lexeme row =>
          cases cutCount with
          | zero => cases cutEnough
          | succ cutCount =>
              rw [additiveRest, additiveRest, additiveOp?_append]
              cases sign : additiveOp? (lexeme :: row) with
              | none => exact .ok trivial
              | some read =>
                  obtain ⟨op, operands⟩ := read
                  obtain ⟨_, same⟩ := additiveOp?_eq_some sign
                  cases same
                  refine KeepsUp.of_suffix ?_ (List.suffix_cons _ row)
                  have room : (row ++ behind).length ≤ count := Nat.le_of_succ_le_succ enough
                  have cutRoom : row.length ≤ cutCount := Nat.le_of_succ_le_succ cutEnough
                  have shorter : row.length ≤ bound := Nat.le_of_succ_le_succ short
                  refine (application_keepsUp keep (by omega)).bind ?_
                  intro right cutRight rest more readWhole read suffix _
                  have less := (application_follows keep.follows).length_le readWhole
                  have cutLess := suffix.length_le
                  exact ih _ _ (by omega) (by omega) (by omega)

theorem additive_keepsUp (keep : NestedKeepsUp source cut bound nested cutNested)
    {front behind : List Lexeme} (short : front.length ≤ bound + 1) :
    KeepsUp cut Whatever front behind (additive source nested (front ++ behind))
      (additive cut cutNested front) := by
  refine (application_keepsUp keep short).bind ?_
  intro left cutLeft rest more _ _ suffix _
  exact additiveRest_keepsUp keep _ _ _ _ (Nat.le_refl _) (Nat.le_refl _)
    (Nat.le_trans suffix.length_le short)

theorem condition_keepsUp (keep : NestedKeepsUp source cut bound nested cutNested)
    {front behind : List Lexeme} (short : front.length ≤ bound + 1) :
    KeepsUp cut Whatever front behind (condition source nested (front ++ behind))
      (condition cut cutNested front) := by
  refine (additive_keepsUp keep short).bind ?_
  intro left cutLeft rest more _ _ suffix _
  cases rest with
  | nil => exact .complete
  | cons lexeme row =>
      dsimp only
      rw [comparison?_append]
      cases sign : comparison? (lexeme :: row) with
      | none => exact .ok trivial
      | some read =>
          obtain ⟨op, operand⟩ := read
          obtain ⟨_, same⟩ := comparison?_eq_some sign
          cases same
          refine KeepsUp.of_suffix ?_ (List.suffix_cons _ row)
          have shorter : row.length < front.length := suffix.length_le
          refine (additive_keepsUp keep (by omega)).bind ?_
          intro _ _ rest more _ _ _ _
          exact .ok trivial

theorem choice_keepsUp (keep : NestedKeepsUp source cut bound nested cutNested)
    {front behind : List Lexeme} (short : front.length ≤ bound + 1) :
    KeepsUp cut Whatever front behind (choice source nested (front ++ behind))
      (choice cut cutNested front) := by
  refine (expect_keepsUp .ifWord .ifWord front behind).bind ?_
  intro _ _ afterIf more _ readIf _ _
  obtain ⟨_, rfl, ifWord, rfl⟩ := (expect_follows .ifWord .ifWord front).accepts readIf
  have inside : afterIf.length ≤ bound := Nat.le_of_succ_le_succ short
  refine (condition_keepsUp keep (Nat.le_succ_of_le inside)).bind ?_
  intro tested _ afterCondition more _ _ behindIf _
  refine (expect_keepsUp .thenWord .thenWord afterCondition more).bind ?_
  intro _ _ afterThen more _ _ behindCondition _
  have behindThen := behindCondition.trans behindIf
  refine (keep.keepsUp afterThen more (Nat.le_trans behindThen.length_le inside)).bind ?_
  intro whenTrue _ afterTrue more _ _ behindTrue _
  refine (expect_keepsUp .elseWord .elseWord afterTrue more).bind ?_
  intro _ _ afterElse more _ _ behindElse _
  have suffix := (behindElse.trans behindTrue).trans behindThen
  refine (keep.keepsUp afterElse more (Nat.le_trans suffix.length_le inside)).bind ?_
  intro whenFalse _ rest more _ _ _ _
  exact .ok trivial

theorem expressionWith_keepsUp (keep : NestedKeepsUp source cut bound nested cutNested)
    {front behind : List Lexeme} (short : front.length ≤ bound + 1) :
    KeepsUp cut Whatever front behind (expressionWith source nested (front ++ behind))
      (expressionWith cut cutNested front) := by
  cases front with
  | nil => exact .missing .expression
  | cons lexeme row =>
      obtain ⟨token, span⟩ := lexeme
      cases token with
      | number | identifier => exact additive_keepsUp keep short
      | symbol symbol =>
          cases symbol with
          | letWord => exact binding_keepsUp keep short
          | ifWord => exact choice_keepsUp keep short
          | _ => exact additive_keepsUp keep short

/-!
## Expressions
-/

theorem expressionWithin_nil (source : List Char) (depth : Nat) :
    expressionWithin source depth [] = .error (unexpected source .expression []) := by
  cases depth <;> rfl

/-- The depth that is allowed for the whole row does not matter where it can be read. -/
theorem expressionWithin_nestedKeepsUp (source cut : List Char) (depth cutDepth : Nat) :
    NestedKeepsUp source cut cutDepth (expressionWithin source depth)
      (expressionWithin cut cutDepth) := by
  induction cutDepth generalizing depth with
  | zero =>
      refine ⟨expressionWithin_follows source depth, expressionWithin_follows cut 0, rfl, ?_⟩
      intro front behind short
      cases List.eq_nil_of_length_eq_zero (Nat.le_zero.mp short)
      exact .missing .expression
  | succ cutDepth ih =>
      refine ⟨expressionWithin_follows source depth, expressionWithin_follows cut (cutDepth + 1),
        expressionWithin_nil cut (cutDepth + 1), ?_⟩
      intro front behind short
      cases depth with
      | zero => exact .of_error
      | succ depth => exact expressionWith_keepsUp (ih depth) short

theorem expression_nestedKeepsUp (source cut : List Char) (bound : Nat) :
    NestedKeepsUp source cut bound (expression source) (expression cut) where
  follows := expression_follows source
  cutFollows := expression_follows cut
  nothing := rfl
  keepsUp front behind _ :=
    (expressionWithin_nestedKeepsUp source cut (front ++ behind).length front.length).keepsUp
      front behind (Nat.le_refl _)

end Parser

end FrameLang
