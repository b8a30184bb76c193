import FrameLang.Proofs.Programs
import FrameLang.Proofs.Truncation

/-!
Reading without counts. The parser counts how deep expressions nest and how often a loop goes round,
and starts from the number of lexemes. No count ever runs out: nested expressions are shorter rows,
and a loop that goes around has read a lexeme. So the parser solves the equation of the recursion
that has no count, and each loop does what the same loop without a count does, which always ends.
-/

set_option autoImplicit false

namespace FrameLang

theorem except_bind_congr {α β : Type} {first first' : Except Error α}
    {next next' : α → Except Error β} (same : first = first')
    (later : ∀ value, first = .ok value → next value = next' value) :
    (first >>= next) = (first' >>= next') := by
  subst same
  cases result : first with
  | error error => rfl
  | ok value => exact later value result

theorem except_bind_ok {α : Type} (first : Except Error α) :
    (first >>= fun value => .ok value) = first := by
  cases first <;> rfl

namespace Parser

variable {source : List Char} {nested nested' : Parser Expr} {bound : Nat}

theorem expect_shortens {symbol : Symbol} {wanted : Expectation} {lexemes rest : List Lexeme}
    {read : Unit} (accepted : expect source symbol wanted lexemes = .ok (read, rest)) :
    rest.length < lexemes.length := by
  obtain ⟨word, whole, span, single⟩ := (expect_follows symbol wanted lexemes).accepts accepted
  simp [whole, single]

theorem identifier_shortens {lexemes rest : List Lexeme} {name : Name}
    (accepted : identifier source lexemes = .ok (name, rest)) : rest.length < lexemes.length := by
  obtain ⟨word, whole, single⟩ := (identifier_follows lexemes).accepts accepted
  simp [whole, single]

theorem application_shortens (follows : Follows source (DerivesExpr source) nested)
    {lexemes rest : List Lexeme} {expr : Expr}
    (accepted : application source nested lexemes = .ok (expr, rest)) :
    rest.length < lexemes.length := by
  obtain ⟨word, whole, derives⟩ := (application_follows follows lexemes).accepts accepted
  have pos := List.length_pos_iff.mpr (ne_nil_of_startsAtom (derives.startsAtom []))
  simp only [whole, List.length_append]
  exact Nat.lt_add_of_pos_left pos

/-!
## Recursion

A layer of the grammar looks at expressions nested in it only behind its first lexeme.
-/

/-- The parsers do the same with every row of at most `bound` lexemes. -/
def SameUpTo (bound : Nat) (nested nested' : Parser Expr) : Prop :=
  ∀ lexemes, lexemes.length ≤ bound → nested lexemes = nested' lexemes

theorem header_congr (same : SameUpTo bound nested nested') {lexemes : List Lexeme}
    (short : lexemes.length ≤ bound + 1) :
    header source nested lexemes = header source nested' lexemes := by
  unfold header
  apply except_bind_congr rfl
  intro result readLet
  obtain ⟨⟨⟩, afterLet⟩ := result
  apply except_bind_congr rfl
  intro result readName
  obtain ⟨name, afterName⟩ := result
  have suffix := (parameters_suffix afterName).length_le
  dsimp only
  generalize parameters afterName = declared at suffix ⊢
  apply except_bind_congr rfl
  intro result readAssign
  obtain ⟨⟨⟩, afterAssign⟩ := result
  have first := expect_shortens readLet
  have second := identifier_shortens readName
  have third := expect_shortens readAssign
  exact except_bind_congr (same afterAssign (by omega)) fun _ _ => rfl

theorem bindingBody_congr (same : SameUpTo bound nested nested') (lexemes : List Lexeme)
    (header : Header) {rest : List Lexeme} (short : rest.length ≤ bound + 1) :
    bindingBody source nested lexemes header rest =
      bindingBody source nested' lexemes header rest := by
  unfold bindingBody
  apply except_bind_congr rfl
  intro result readIn
  obtain ⟨⟨⟩, afterIn⟩ := result
  have shorter := expect_shortens readIn
  exact except_bind_congr (same afterIn (by omega)) fun _ _ => rfl

theorem binding_congr (follows : Follows source (DerivesExpr source) nested)
    (same : SameUpTo bound nested nested') {lexemes : List Lexeme}
    (short : lexemes.length ≤ bound + 1) :
    binding source nested lexemes = binding source nested' lexemes := by
  apply except_bind_congr (header_congr same short)
  intro result readHeader
  obtain ⟨header, rest⟩ := result
  have shorter := header_shortens follows readHeader
  exact bindingBody_congr same lexemes header (by omega)

theorem atom_congr (same : SameUpTo bound nested nested') {lexemes : List Lexeme}
    (short : lexemes.length ≤ bound + 1) :
    atom source nested lexemes = atom source nested' lexemes := by
  unfold atom
  split
  · rfl
  · rfl
  next left rest =>
    have within : rest.length ≤ bound := Nat.le_of_succ_le_succ short
    exact except_bind_congr (same rest within) fun _ _ => rfl
  · rfl

theorem atoms_congr (follows : Follows source (DerivesExpr source) nested)
    (same : SameUpTo bound nested nested') (count : Nat) {lexemes : List Lexeme}
    (short : lexemes.length ≤ bound + 1) :
    atoms source nested count lexemes = atoms source nested' count lexemes := by
  induction count generalizing lexemes with
  | zero => rfl
  | succ count ih =>
      unfold atoms
      split
      · apply except_bind_congr (atom_congr same short)
        intro result readFirst
        obtain ⟨first, rest⟩ := result
        have shorter := atom_shortens follows readFirst
        exact except_bind_congr (ih (by omega)) fun _ _ => rfl
      · rfl

theorem application_congr (follows : Follows source (DerivesExpr source) nested)
    (same : SameUpTo bound nested nested') {lexemes : List Lexeme}
    (short : lexemes.length ≤ bound + 1) :
    application source nested lexemes = application source nested' lexemes := by
  unfold application
  split
  · rfl
  next text span afterName _ =>
    have within : afterName.length ≤ bound + 1 := Nat.le_of_succ_le short
    apply except_bind_congr rfl
    intro result readName
    obtain ⟨name, rest⟩ := result
    cases readName
    exact except_bind_congr (atoms_congr follows same _ within) fun _ _ => rfl
  · exact atom_congr same short

theorem additiveRest_congr (follows : Follows source (DerivesExpr source) nested)
    (same : SameUpTo bound nested nested') (lexemes : List Lexeme) (count : Nat) (left : Expr)
    {rest : List Lexeme} (short : rest.length ≤ bound + 1) :
    additiveRest source nested lexemes count left rest =
      additiveRest source nested' lexemes count left rest := by
  induction count generalizing left rest with
  | zero => rfl
  | succ count ih =>
      unfold additiveRest
      split
      · rfl
      next op operand read =>
        obtain ⟨sign, rfl⟩ := additiveOp?_eq_some read
        simp only [List.length_cons] at short
        apply except_bind_congr (application_congr follows same (by omega))
        intro result readRight
        obtain ⟨right, more⟩ := result
        have shorter := application_shortens follows readRight
        exact ih _ (by omega)

theorem additive_congr (follows : Follows source (DerivesExpr source) nested)
    (same : SameUpTo bound nested nested') {lexemes : List Lexeme}
    (short : lexemes.length ≤ bound + 1) :
    additive source nested lexemes = additive source nested' lexemes := by
  apply except_bind_congr (application_congr follows same short)
  intro result readLeft
  obtain ⟨left, rest⟩ := result
  have shorter := application_shortens follows readLeft
  exact additiveRest_congr follows same lexemes rest.length left (by omega)

theorem condition_congr (follows : Follows source (DerivesExpr source) nested)
    (same : SameUpTo bound nested nested') {lexemes : List Lexeme}
    (short : lexemes.length ≤ bound + 1) :
    condition source nested lexemes = condition source nested' lexemes := by
  apply except_bind_congr (additive_congr follows same short)
  intro result readLeft
  obtain ⟨left, rest⟩ := result
  have shorter := (additive_follows follows).length_le readLeft
  dsimp only
  split
  · rfl
  next op operand read =>
    obtain ⟨sign, rfl⟩ := comparison?_eq_some read
    simp only [List.length_cons] at shorter
    exact except_bind_congr (additive_congr follows same (by omega)) fun _ _ => rfl

theorem choice_congr (follows : Follows source (DerivesExpr source) nested)
    (same : SameUpTo bound nested nested') {lexemes : List Lexeme}
    (short : lexemes.length ≤ bound + 1) :
    choice source nested lexemes = choice source nested' lexemes := by
  apply except_bind_congr rfl
  intro result readIf
  obtain ⟨⟨⟩, afterIf⟩ := result
  have first := expect_shortens readIf
  apply except_bind_congr (condition_congr follows same (by omega))
  intro result readCondition
  obtain ⟨tested, afterCondition⟩ := result
  have second := (condition_follows follows).length_le readCondition
  apply except_bind_congr rfl
  intro result readThen
  obtain ⟨⟨⟩, afterThen⟩ := result
  have third := expect_shortens readThen
  apply except_bind_congr (same afterThen (by omega))
  intro result readTrue
  obtain ⟨whenTrue, afterTrue⟩ := result
  have fourth := follows.length_le readTrue
  apply except_bind_congr rfl
  intro result readElse
  obtain ⟨⟨⟩, afterElse⟩ := result
  have fifth := expect_shortens readElse
  exact except_bind_congr (same afterElse (by omega)) fun _ _ => rfl

theorem expressionWith_congr (follows : Follows source (DerivesExpr source) nested)
    (same : SameUpTo bound nested nested') {lexemes : List Lexeme}
    (short : lexemes.length ≤ bound + 1) :
    expressionWith source nested lexemes = expressionWith source nested' lexemes := by
  unfold expressionWith
  split
  · exact binding_congr follows same short
  · exact choice_congr follows same short
  · exact additive_congr follows same short

/-- A depth of the number of lexemes suffices, and no greater depth makes a difference. -/
theorem expressionWithin_sameUpTo (source : List Char) {bound depth depth' : Nat}
    (enough : bound ≤ depth) (enough' : bound ≤ depth') :
    SameUpTo bound (expressionWithin source depth) (expressionWithin source depth') := by
  induction bound generalizing depth depth' with
  | zero =>
      intro lexemes short
      cases List.eq_nil_of_length_eq_zero (Nat.le_zero.mp short)
      exact (expressionWithin_nil source depth).trans (expressionWithin_nil source depth').symm
  | succ bound ih =>
      cases depth with
      | zero => cases enough
      | succ depth =>
          cases depth' with
          | zero => cases enough'
          | succ depth' =>
              intro lexemes short
              have same := ih (Nat.le_of_succ_le_succ enough) (Nat.le_of_succ_le_succ enough')
              exact expressionWith_congr (expressionWithin_follows source depth) same short

/-- Expressions are read by the recursion that has no depth. -/
theorem expression_eq (source : List Char) :
    expression source = expressionWith source (expression source) := by
  funext lexemes
  cases lexemes with
  | nil => rfl
  | cons lexeme row =>
      have same : SameUpTo row.length (expressionWithin source row.length) (expression source) :=
        fun lexemes short =>
          expressionWithin_sameUpTo source short (Nat.le_refl _) lexemes (Nat.le_refl _)
      exact expressionWith_congr (expressionWithin_follows source row.length) same (Nat.le_refl _)

/-!
## Loops
-/

/-- A loop repeats its round until it is left or fails, however long that takes. The number counts
the rounds after which it goes on. -/
inductive Loop {State Result : Type} (round : State → Except Error (State ⊕ Result)) :
    Nat → State → Except Error Result → Prop where
  | fails {state error} : round state = .error error → Loop round 0 state (.error error)
  | leaves {state result} : round state = .ok (.inr result) → Loop round 0 state (.ok result)
  | again {rounds state next outcome} :
      round state = .ok (.inl next) → Loop round rounds next outcome →
      Loop round (rounds + 1) state outcome

/-- The loop goes on behind something that is read, and does no more than `bound` rounds. -/
theorem Loop.exists_of_reading {State Result Value : Type}
    {round : State → Except Error (State ⊕ Result)} {state : State} {reading : Except Error Value}
    {outcome : Value → Except Error Result} {bound : Nat} (next : Value → State)
    (isRound : round state = reading >>= fun value => .ok (.inl (next value)))
    (later : ∀ value, reading = .ok value →
      ∃ rounds < bound, Loop round rounds (next value) (outcome value)) :
    ∃ rounds ≤ bound, Loop round rounds state (reading >>= outcome) := by
  cases result : reading with
  | error error =>
      subst result
      exact ⟨0, Nat.zero_le bound, .fails isRound⟩
  | ok value =>
      obtain ⟨rounds, fewer, loop⟩ := later value result
      subst result
      exact ⟨rounds + 1, fewer, .again isRound loop⟩

/-- The loop over parameters. -/
def nameRound : List Name × List Lexeme →
    Except Error ((List Name × List Lexeme) ⊕ (List Name × List Lexeme))
  | (names, ⟨.identifier name, span⟩ :: rest) => .ok (.inl (names ++ [⟨name, span⟩], rest))
  | (names, rest) => .ok (.inr (names, rest))

/-- The loop over the arguments of a call. -/
def argumentRound (source : List Char) : List Expr × List Lexeme →
    Except Error ((List Expr × List Lexeme) ⊕ (List Expr × List Lexeme)) :=
  fun (arguments, rest) =>
    if startsAtom rest then do
      let (argument, rest) ← atom source (expression source) rest
      return .inl (arguments ++ [argument], rest)
    else return .inr (arguments, rest)

/-- The loop over the operands of a sum that starts with `lexemes`. -/
def operandRound (source : List Char) (lexemes : List Lexeme) : Expr × List Lexeme →
    Except Error ((Expr × List Lexeme) ⊕ (Expr × List Lexeme)) :=
  fun (left, rest) =>
    match additiveOp? rest with
    | none => return .inr (left, rest)
    | some (op, rest) => do
      let (right, rest) ← application source (expression source) rest
      return .inl (.additive op left right (between source lexemes rest), rest)

/-- A declaration and the separator behind it, or the end of the row. -/
def separated (source : List Char) : Parser Declaration := fun lexemes => do
  let (read, rest) ← declaration source lexemes
  match rest with
  | [] => return (read, [])
  | ⟨.symbol .semicolon, _⟩ :: rest => return (read, rest)
  | rest => .error (unexpected source .separator rest)

/-- The loop over the declarations of a program. -/
def declarationRound (source : List Char) : List Declaration × List Lexeme →
    Except Error ((List Declaration × List Lexeme) ⊕ List Declaration) :=
  fun (read, rest) =>
    if rest.isEmpty then return .inr read
    else do
      let (next, rest) ← separated source rest
      return .inl (read ++ [next], rest)

theorem loop_names (names : List Name) (lexemes : List Lexeme) :
    ∃ rounds ≤ lexemes.length, Loop nameRound rounds (names, lexemes)
      (.ok (names ++ (identifiers lexemes).1, (identifiers lexemes).2)) := by
  induction lexemes generalizing names with
  | nil =>
      refine ⟨0, Nat.le_refl 0, .leaves ?_⟩
      simp [nameRound, identifiers]
  | cons lexeme row ih =>
      obtain ⟨token, span⟩ := lexeme
      cases token with
      | symbol | number =>
          refine ⟨0, Nat.zero_le _, .leaves ?_⟩
          simp [nameRound, identifiers]
      | identifier name =>
          obtain ⟨rounds, few, loop⟩ := ih (names ++ [⟨name, span⟩])
          refine ⟨rounds + 1, Nat.succ_le_succ few, .again rfl ?_⟩
          simpa only [identifiers, List.append_assoc, List.singleton_append] using loop

theorem loop_arguments (source : List Char) {count : Nat} (arguments : List Expr)
    {rest : List Lexeme} (enough : rest.length ≤ count) :
    ∃ rounds ≤ rest.length, Loop (argumentRound source) rounds (arguments, rest)
      (atoms source (expression source) count rest >>= fun read =>
        .ok (arguments ++ read.1, read.2)) := by
  induction count generalizing arguments rest with
  | zero =>
      cases List.eq_nil_of_length_eq_zero (Nat.le_zero.mp enough)
      refine ⟨0, Nat.le_refl 0, .leaves ?_⟩
      simp [argumentRound, startsAtom, pure, Except.pure]
  | succ count ih =>
      unfold atoms
      split
      next starts =>
        rw [bind_assoc]
        apply Loop.exists_of_reading fun read => (arguments ++ [read.1], read.2)
        · simp only [argumentRound, starts, if_true]
          rfl
        · intro result read
          obtain ⟨argument, more⟩ := result
          have shorter := atom_shortens (expression_follows source) read
          have fewer : more.length ≤ count := by omega
          obtain ⟨rounds, few, loop⟩ := ih (arguments ++ [argument]) fewer
          refine ⟨rounds, by omega, ?_⟩
          simpa only [bind_assoc, List.append_assoc, List.singleton_append, pure_bind] using loop
      next ended =>
        refine ⟨0, Nat.zero_le _, .leaves ?_⟩
        simp [argumentRound, ended, pure, Except.pure]

theorem loop_operands (source : List Char) (lexemes : List Lexeme) {count : Nat} (left : Expr)
    {rest : List Lexeme} (enough : rest.length ≤ count) :
    ∃ rounds ≤ rest.length, Loop (operandRound source lexemes) rounds (left, rest)
      (additiveRest source (expression source) lexemes count left rest) := by
  induction count generalizing left rest with
  | zero =>
      cases List.eq_nil_of_length_eq_zero (Nat.le_zero.mp enough)
      exact ⟨0, Nat.le_refl 0, .leaves rfl⟩
  | succ count ih =>
      unfold additiveRest
      split
      next noSign =>
        refine ⟨0, Nat.zero_le _, .leaves ?_⟩
        simp only [operandRound, noSign]
        rfl
      next op operand sign =>
        apply Loop.exists_of_reading fun read =>
          (.additive op left read.1 (between source lexemes read.2), read.2)
        · simp only [operandRound, sign]
          rfl
        · intro result read
          obtain ⟨right, more⟩ := result
          obtain ⟨_, rfl⟩ := additiveOp?_eq_some sign
          have shorter := application_shortens (expression_follows source) read
          simp only [List.length_cons] at enough ⊢
          have fewer : more.length ≤ count := by omega
          obtain ⟨rounds, few, loop⟩ :=
            ih (.additive op left right (between source lexemes more)) fewer
          exact ⟨rounds, by omega, loop⟩

theorem declaration_shortens {lexemes rest : List Lexeme} {read : Declaration}
    (accepted : declaration source lexemes = .ok (read, rest)) : rest.length < lexemes.length := by
  obtain ⟨word, whole, derives⟩ := declaration_accepts accepted
  simp only [whole, List.length_append]
  exact Nat.lt_add_of_pos_left derives.length_pos

theorem separated_shortens {lexemes rest : List Lexeme} {read : Declaration}
    (accepted : separated source lexemes = .ok (read, rest)) : rest.length < lexemes.length := by
  obtain ⟨⟨first, behind⟩, readFirst, later⟩ := except_bind_eq_ok_iff.mp accepted
  have shorter := declaration_shortens readFirst
  dsimp only at later
  split at later
  · cases later
    exact shorter
  · cases later
    exact Nat.lt_of_succ_lt shorter
  · cases later

theorem declarationsWithin_separated (source : List Char) (count : Nat) (lexeme : Lexeme)
    (row : List Lexeme) :
    declarationsWithin source (count + 1) (lexeme :: row) =
      (separated source (lexeme :: row) >>= fun read =>
        declarationsWithin source count read.2 >>= fun more => .ok (read.1 :: more)) := by
  unfold separated
  rw [bind_assoc]
  apply except_bind_congr rfl
  intro result _
  obtain ⟨first, rest⟩ := result
  cases rest with
  | nil => cases count <;> rfl
  | cons next rest =>
      obtain ⟨token, span⟩ := next
      cases token with
      | number | identifier => rfl
      | symbol symbol => cases symbol <;> rfl

theorem loop_declarations (source : List Char) {count : Nat} (read : List Declaration)
    {lexemes : List Lexeme} (enough : lexemes.length ≤ count) :
    ∃ rounds ≤ lexemes.length, Loop (declarationRound source) rounds (read, lexemes)
      (declarationsWithin source count lexemes >>= fun more => .ok (read ++ more)) := by
  induction count generalizing read lexemes with
  | zero =>
      cases List.eq_nil_of_length_eq_zero (Nat.le_zero.mp enough)
      refine ⟨0, Nat.le_refl 0, .leaves ?_⟩
      simp [declarationRound, pure, Except.pure]
  | succ count ih =>
      cases lexemes with
      | nil =>
          refine ⟨0, Nat.le_refl 0, .leaves ?_⟩
          simp [declarationRound, pure, Except.pure]
      | cons lexeme row =>
          rw [declarationsWithin_separated, bind_assoc]
          apply Loop.exists_of_reading fun next => (read ++ [next.1], next.2)
          · rfl
          · intro result readNext
            obtain ⟨next, rest⟩ := result
            have shorter := separated_shortens readNext
            have fewer : rest.length ≤ count := by
              simp only [List.length_cons] at enough shorter
              omega
            obtain ⟨rounds, few, loop⟩ := ih (read ++ [next]) fewer
            refine ⟨rounds, by omega, ?_⟩
            simpa only [bind_assoc, List.append_assoc, List.singleton_append, except_ok_bind]
              using loop

end Parser

end FrameLang
