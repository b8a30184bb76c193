import Mathlib.Logic.Relation
import FrameLang.Proofs.Diagnostics
import FrameLang.Proofs.Loops

/-!
Progress of the parser. Whatever a parser accepts, it leaves a proper suffix of its row. The part in
front of that suffix is never empty, so the span of a node always marks a part of the source, and
what an error quotes is the part of the source that its span marks.
-/

set_option autoImplicit false

namespace FrameLang

open Source

/-- The span lies in the source, between boundaries of characters, and quotes what stands there. It
may be empty. -/
structure Span.Within (source : String) (span : Span) : Prop where
  start_le_stop : span.start ≤ span.stop
  stop_le : span.stop ≤ source.utf8ByteSize
  start_valid : String.Pos.Raw.IsValid source ⟨span.start⟩
  stop_valid : String.Pos.Raw.IsValid source ⟨span.stop⟩
  text_eq : span.text = String.Pos.Raw.extract source ⟨span.start⟩ ⟨span.stop⟩

theorem Span.Marks.within {source : String} {span : Span} (marks : span.Marks source) :
    span.Within source where
  start_le_stop := Nat.le_of_lt marks.start_lt_stop
  stop_le := marks.stop_le
  start_valid := marks.start_valid
  stop_valid := marks.stop_valid
  text_eq := marks.text_eq

theorem endSpan_within (source : String) : (endSpan source.toList).Within source where
  start_le_stop := Nat.le_refl _
  stop_le := Nat.le_of_eq (byteLength_toList source)
  start_valid := by
    have valid := isValid_byteLength source.toList []
    rwa [List.append_nil, String.ofList_toList] at valid
  stop_valid := by
    have valid := isValid_byteLength source.toList []
    rwa [List.append_nil, String.ofList_toList] at valid
  text_eq := by simp [endSpan, String.Pos.Raw.extract]

/-- The lexemes stand one behind the other in the source. -/
def SliceOf (source : String) (lexemes : List Lexeme) : Prop :=
  ∃ all, Lexeme.ofSource source.toList = .ok all ∧ lexemes <:+: all

/-- The error is about a part of the source, and quotes no other part in its reason. -/
structure Error.Quotes (source : String) (error : Error) : Prop where
  within : error.span.Within source
  quoted : ∀ wanted text, error.cause = .unexpected wanted (some text) → text = error.span.text

section Slices

variable {source : String} {lexemes : List Lexeme}

theorem SliceOf.extent_marks (slice : SliceOf source lexemes) {part : List Lexeme}
    (within : part <:+: lexemes) (some : part ≠ []) : (extent source.toList part).Marks source := by
  obtain ⟨all, read, inAll⟩ := slice
  have lexes := Lexeme.ofCharsFrom_eq_ok_iff.mp read
  exact lexes.extent_marks (within.trans inAll) some

theorem SliceOf.lexeme_marks (slice : SliceOf source lexemes) {lexeme : Lexeme}
    (member : lexeme ∈ lexemes) : lexeme.span.Marks source := by
  obtain ⟨all, read, inAll⟩ := slice
  have lexes := Lexeme.ofCharsFrom_eq_ok_iff.mp read
  exact lexes.span_marks (inAll.subset member)

theorem SliceOf.between_marks (slice : SliceOf source lexemes) {rest : List Lexeme}
    (suffix : rest <:+ lexemes) (shorter : rest.length < lexemes.length) :
    (Parser.between source.toList lexemes rest).Marks source := by
  obtain ⟨word, rfl⟩ := suffix
  rw [Parser.between_append]
  apply slice.extent_marks (List.prefix_append word rest).isInfix
  rintro rfl
  exact Nat.lt_irrefl _ shorter

theorem Parser.Complaint.quotes {error : Error} (slice : SliceOf source lexemes)
    (complaint : Complaint source.toList lexemes error) : error.Quotes source := by
  obtain ⟨wanted, rest, suffix, rfl⟩ := complaint
  cases rest with
  | nil =>
      constructor
      · exact endSpan_within source
      · intro other text same
        cases same
  | cons lexeme rest =>
      constructor
      · exact (slice.lexeme_marks (suffix.subset List.mem_cons_self)).within
      · intro other text same
        cases same
        rfl

theorem Parser.DeclaresNothing.quotes {error : Error} (slice : SliceOf source lexemes)
    (nothing : DeclaresNothing source.toList lexemes error) : error.Quotes source := by
  cases nothing with
  | @intro header _ _ _ _ rest _ _ whole _ =>
      constructor
      · apply Span.Marks.within
        apply slice.extent_marks (List.prefix_append header rest).isInfix
        simp [whole]
      · intro other text same
        cases same

end Slices

namespace Parser

/-- What the parser accepts takes lexemes off the front of the row, at least one. The span from the
first lexeme of the row up to what is left then marks a part of the source. What the parser refuses
is refused with an error about the source. -/
structure Advances {α : Type} (source : String) (parser : Parser α) : Prop where
  suffix : ∀ {lexemes value rest}, parser lexemes = .ok (value, rest) → rest <:+ lexemes
  shorter : ∀ {lexemes value rest}, parser lexemes = .ok (value, rest) →
    rest.length < lexemes.length
  marks : ∀ {lexemes value rest}, SliceOf source lexemes → parser lexemes = .ok (value, rest) →
    (between source.toList lexemes rest).Marks source
  quotes : ∀ {lexemes error}, SliceOf source lexemes → parser lexemes = .error error →
    error.Quotes source

section Advances

variable {α : Type} {source : String} {parser : Parser α}

theorem Advances.of_taken
    (taken : ∀ {lexemes value rest}, parser lexemes = .ok (value, rest) →
      ∃ word, word ≠ [] ∧ lexemes = word ++ rest)
    (quotes : ∀ {lexemes error}, SliceOf source lexemes → parser lexemes = .error error →
      error.Quotes source) : Advances source parser := by
  have suffix {lexemes value rest} (accepted : parser lexemes = .ok (value, rest)) :
      rest <:+ lexemes := by
    obtain ⟨word, -, whole⟩ := taken accepted
    exact ⟨word, whole.symm⟩
  have shorter {lexemes value rest} (accepted : parser lexemes = .ok (value, rest)) :
      rest.length < lexemes.length := by
    obtain ⟨word, some, whole⟩ := taken accepted
    rw [whole, List.length_append]
    exact Nat.lt_add_of_pos_left (List.length_pos_iff.mpr some)
  exact ⟨suffix, shorter,
    fun slice accepted => slice.between_marks (suffix accepted) (shorter accepted), quotes⟩

theorem Follows.advances {derives : List Lexeme → α → Prop}
    (follows : Follows source.toList derives parser)
    (nonempty : ∀ {word value}, derives word value → word ≠ []) : Advances source parser := by
  apply Advances.of_taken
  · intro lexemes value rest accepted
    obtain ⟨word, whole, derived⟩ := (follows lexemes).accepts accepted
    exact ⟨word, nonempty derived, whole⟩
  · intro lexemes error slice refused
    exact ((follows lexemes).complains refused).quotes slice

end Advances

theorem header_ne_nil {source : List Char} {word : List Lexeme} {header : Header}
    (derives : DerivesHeader source word header) : word ≠ [] := by
  cases derives with
  | binding _ _ whole => simp [whole]

/-- Behind the header of a binding, where nothing is said about the header. -/
theorem bindingBody_follows_some (source : List Char) (lexemes : List Lexeme) (header : Header) :
    Follows source (fun word (_ : Expr) => word ≠ [])
      (bindingBody source (expression source) lexemes header) := by
  intro row
  refine (expect_follows .inWord .inWord).bind ?_
  rintro _ _ afterIn rfl ⟨inWord, rfl⟩
  refine (expression_follows source).bind ?_
  rintro bodyWord body rest rfl derivesBody
  have split : [Symbol.inWord.lexeme inWord] ++ (bodyWord ++ rest) =
      (Symbol.inWord.lexeme inWord :: bodyWord) ++ rest := rfl
  dsimp only
  cases header.parameters with
  | none => exact .ok ⟨_, split, List.cons_ne_nil _ _⟩
  | some parameters => exact .ok ⟨_, split, List.cons_ne_nil _ _⟩

theorem declaration_advances (source : String) :
    Advances source (declaration source.toList) := by
  apply Advances.of_taken
  · intro lexemes value rest accepted
    obtain ⟨word, whole, derives⟩ := declaration_accepts accepted
    exact ⟨word, List.ne_nil_of_length_pos derives.length_pos, whole⟩
  · intro lexemes error slice refused
    rcases declaration_refuses refused with complaint | nothing
    · exact complaint.quotes slice
    · exact nothing.quotes slice

theorem parameters_none {lexemes : List Lexeme} (none : (parameters lexemes).1 = none) :
    (parameters lexemes).2 = lexemes := by
  obtain ⟨word, declared, rest, read, whole, derives⟩ := parameters_follow lexemes
  rw [read] at none ⊢
  subst none
  cases derives
  exact whole.symm

/-- Every parser advances, over the parser for all expressions. Only parameters may be missing, and
then nothing is taken. -/
structure ParsersAdvance (source : String) : Prop where
  expect : ∀ symbol wanted, Advances source (expect source.toList symbol wanted)
  identifier : Advances source (identifier source.toList)
  parameters : ∀ lexemes, (parameters lexemes).2 <:+ lexemes ∧
    ((parameters lexemes).1 = none → (parameters lexemes).2 = lexemes)
  header : Advances source (header source.toList (expression source.toList))
  bindingBody : ∀ lexemes header,
    Advances source (bindingBody source.toList (expression source.toList) lexemes header)
  atom : Advances source (atom source.toList (expression source.toList))
  application : Advances source (application source.toList (expression source.toList))
  additive : Advances source (additive source.toList (expression source.toList))
  condition : Advances source (condition source.toList (expression source.toList))
  choice : Advances source (choice source.toList (expression source.toList))
  expression : Advances source (expression source.toList)
  declaration : Advances source (declaration source.toList)

theorem parsersAdvance (source : String) : ParsersAdvance source := by
  have follows := expression_follows source.toList
  have nonempty {word expr} (derives : DerivesExpr source.toList word expr) : word ≠ [] :=
    List.ne_nil_of_length_pos derives.length_pos
  constructor
  case expect =>
    intro symbol wanted
    apply (expect_follows symbol wanted).advances
    rintro word _ ⟨span, rfl⟩
    exact List.cons_ne_nil _ _
  case identifier =>
    apply identifier_follows.advances
    rintro word name rfl
    exact List.cons_ne_nil _ _
  case parameters => exact fun lexemes => ⟨parameters_suffix lexemes, parameters_none⟩
  case header => exact (header_follows follows).advances header_ne_nil
  case bindingBody =>
    exact fun lexemes header => (bindingBody_follows_some _ lexemes header).advances id
  case atom =>
    exact (atom_follows follows).advances fun derives => List.ne_nil_of_length_pos derives.length_pos
  case application =>
    exact (application_follows follows).advances fun derives =>
      ne_nil_of_startsAtom (derives.startsAtom [])
  case additive =>
    exact (additive_follows follows).advances fun derives =>
      ne_nil_of_startsAtom (derives.startsAtom [])
  case condition => exact (condition_follows follows).advances DerivesCondition.ne_nil
  case choice => exact (choice_follows follows).advances nonempty
  case expression => exact follows.advances nonempty
  case declaration => exact declaration_advances source

/-!
## Spans
-/

/-- The loop over operands goes on from the one state to the other. -/
def OperandStep (source : List Char) (lexemes : List Lexeme) (state next : Expr × List Lexeme) :
    Prop :=
  operandRound source lexemes state = .ok (.inl next)

theorem OperandStep.advances {source : List Char} {lexemes : List Lexeme}
    {state next : Expr × List Lexeme} (step : OperandStep source lexemes state next) :
    next.2 <:+ state.2 ∧ next.2.length < state.2.length := by
  obtain ⟨left, rest⟩ := state
  unfold OperandStep operandRound at step
  dsimp only at step
  split at step
  · cases step
  next op operand sign =>
    obtain ⟨span, rfl⟩ := additiveOp?_eq_some sign
    obtain ⟨⟨right, more⟩, read, same⟩ := except_bind_eq_ok_iff.mp step
    cases same
    obtain ⟨word, rfl, -⟩ := (application_follows (expression_follows source) operand).accepts read
    constructor
    · exact (List.suffix_append word more).trans (List.suffix_cons _ _)
    · simp only [List.length_cons, List.length_append]
      omega

/-- Every sum that the loop over operands has put together ends in front of a proper suffix. -/
theorem operands_advance {source : List Char} {lexemes rest : List Lexeme} {first : Expr}
    {state : Expr × List Lexeme}
    (read : application source (expression source) lexemes = .ok (first, rest))
    (steps : Relation.ReflTransGen (OperandStep source lexemes) (first, rest) state) :
    state.2 <:+ lexemes ∧ state.2.length < lexemes.length := by
  induction steps with
  | refl =>
      obtain ⟨word, whole, -⟩ :=
        (application_follows (expression_follows source) lexemes).accepts read
      exact ⟨⟨word, whole.symm⟩, application_shortens (expression_follows source) read⟩
  | tail _ step ih =>
      obtain ⟨suffix, shorter⟩ := step.advances
      exact ⟨suffix.trans ih.1, Nat.lt_trans shorter ih.2⟩

/-- The parts of the source that are cut out for lexemes, for bindings from their first lexeme on, for
the sums inside the loop over operands, and for the errors of whole programs. -/
structure SpansMark (source : String) : Prop where
  lexeme : ∀ lexemes, SliceOf source lexemes → ∀ lexeme ∈ lexemes, lexeme.span.Marks source
  binding : ∀ lexemes read rest expr more, SliceOf source lexemes →
    header source.toList (expression source.toList) lexemes = .ok (read, rest) →
    bindingBody source.toList (expression source.toList) lexemes read rest = .ok (expr, more) →
    more <:+ lexemes ∧ (between source.toList lexemes more).Marks source
  sum : ∀ lexemes first rest state, SliceOf source lexemes →
    application source.toList (expression source.toList) lexemes = .ok (first, rest) →
    Relation.ReflTransGen (OperandStep source.toList lexemes) (first, rest) state →
    state.2 <:+ lexemes ∧ (between source.toList lexemes state.2).Marks source
  program : ∀ lexemes error, SliceOf source lexemes →
    declarations source.toList lexemes = .error error → error.Quotes source

theorem SliceOf.of_suffix {source : String} {lexemes rest : List Lexeme}
    (slice : SliceOf source lexemes) (suffix : rest <:+ lexemes) : SliceOf source rest := by
  obtain ⟨all, read, within⟩ := slice
  exact ⟨all, read, suffix.isInfix.trans within⟩

theorem spansMark (source : String) : SpansMark source := by
  have advance := parsersAdvance source
  constructor
  case lexeme => exact fun lexemes slice lexeme member => slice.lexeme_marks member
  case binding =>
    intro lexemes read rest expr more slice readHeader readBody
    have suffix := (advance.bindingBody lexemes read).suffix readBody
    have shorter := (advance.bindingBody lexemes read).shorter readBody
    have inFront := advance.header.suffix readHeader
    have whole := suffix.trans inFront
    exact ⟨whole, slice.between_marks whole (Nat.lt_of_lt_of_le shorter inFront.length_le)⟩
  case sum =>
    intro lexemes first rest state slice read steps
    obtain ⟨suffix, shorter⟩ := operands_advance read steps
    exact ⟨suffix, slice.between_marks suffix shorter⟩
  case program =>
    intro lexemes error slice refused
    rcases declarationsWithin_refuses refused with complaint | ⟨rest, suffix, nothing⟩
    · exact complaint.quotes slice
    · exact nothing.quotes (SliceOf.of_suffix slice suffix)

/-- Each loop ends, after at most as many rounds as there are lexemes, and the parser returns what the
loop does. -/
structure LoopsEnd (source : List Char) : Prop where
  parameters : ∀ lexemes, ∃ rounds ≤ lexemes.length,
    Loop nameRound rounds ([], lexemes) (.ok (identifiers lexemes))
  arguments : ∀ rest, ∃ rounds ≤ rest.length, Loop (argumentRound source) rounds ([], rest)
    (atoms source (expression source) rest.length rest)
  operands : ∀ lexemes left rest, ∃ rounds ≤ rest.length,
    Loop (operandRound source lexemes) rounds (left, rest)
      (additiveRest source (expression source) lexemes rest.length left rest)
  declarations : ∀ lexemes, ∃ rounds ≤ lexemes.length,
    Loop (declarationRound source) rounds ([], lexemes) (declarations source lexemes)

theorem loopsEnd (source : List Char) : LoopsEnd source := by
  constructor
  case parameters => exact loop_names []
  case arguments =>
    intro rest
    have loop := loop_arguments source [] (Nat.le_refl rest.length)
    simpa only [List.nil_append, Prod.mk.eta, except_bind_ok] using loop
  case operands => exact fun lexemes left rest => loop_operands source lexemes left (Nat.le_refl _)
  case declarations =>
    intro lexemes
    have loop := loop_declarations source [] (Nat.le_refl lexemes.length)
    simpa only [List.nil_append, except_bind_ok, declarations] using loop

/-- Every parser that accepts a row leaves a proper suffix of it, but for parameters, which may leave
all of it. So the recursion solves its equation without a depth, every loop ends, and every span and
every error is about a part of the source. -/
theorem parsing_advances (source : String) :
    ParsersAdvance source ∧ LoopsEnd source.toList ∧
      expression source.toList = expressionWith source.toList (expression source.toList) ∧
      SpansMark source :=
  ⟨parsersAdvance source, loopsEnd source.toList, expression_eq source.toList, spansMark source⟩

end Parser

end FrameLang
