import FrameLang.Proofs.Cutting
import FrameLang.Proofs.Programs

/-!
Every node of a program stands for its own text. The lexemes of a node derive it wherever they stand,
so the text of the node alone reads as the node, with all places counted from where it starts.
-/

set_option autoImplicit false

namespace FrameLang

open Source

@[simp] theorem Symbol.mapSpan_lexeme (f : Span → Span) (symbol : Symbol) (span : Span) :
    (symbol.lexeme span).mapSpan f = symbol.lexeme (f span) := rfl

@[simp] theorem Name.mapSpan_lexeme (f : Span → Span) (name : Name) :
    name.lexeme.mapSpan f = (name.mapSpan f).lexeme := rfl

/-!
The words under a rule are parts of the word that the rule puts together.
-/

section Parts

variable {word before after : List Lexeme} {lexeme : Lexeme}

theorem part_behind (whole : word = lexeme :: after) : after <:+: word := by
  rw [whole]
  exact (List.suffix_cons lexeme after).isInfix

theorem part_before (whole : word = before ++ lexeme :: after) : before <:+: word := by
  rw [whole]
  exact (List.prefix_append before (lexeme :: after)).isInfix

theorem part_after (whole : word = before ++ lexeme :: after) : after <:+: word := by
  rw [whole]
  exact (part_behind rfl).trans (List.suffix_append before (lexeme :: after)).isInfix

end Parts

/-- In the other source, the moved words have the moved extents. -/
def KeepsExtents (f : Span → Span) (source source' : List Char) (word : List Lexeme) : Prop :=
  ∀ part, part <:+: word → part ≠ [] →
    extent source' (part.map (Lexeme.mapSpan f)) = f (extent source part)

section Moved

variable {f : Span → Span} {source source' : List Char}

theorem KeepsExtents.part {word part : List Lexeme} (keeps : KeepsExtents f source source' word)
    (within : part <:+: word) : KeepsExtents f source source' part := by
  intro inner inside nonempty
  exact keeps inner (inside.trans within) nonempty

theorem KeepsExtents.whole {word : List Lexeme} (keeps : KeepsExtents f source source' word)
    (nonempty : word ≠ []) : f (extent source word) = extent source' (word.map (Lexeme.mapSpan f)) :=
  (keeps word (List.infix_refl word) nonempty).symm

theorem DerivesParameters.moved {word : List Lexeme} {parameters : List Name}
    (derives : DerivesParameters word parameters) :
    DerivesParameters (word.map (Lexeme.mapSpan f)) (parameters.map (Name.mapSpan f)) := by
  cases derives with
  | empty => exact .empty
  | names nonempty =>
      have moved : (parameters.map Name.lexeme).map (Lexeme.mapSpan f) =
          (parameters.map (Name.mapSpan f)).map Name.lexeme := by
        rw [List.map_map, List.map_map]
        rfl
      rw [moved]
      exact .names fun none => nonempty (List.map_eq_nil_iff.mp none)

end Moved

/-!
A derivation moves as a whole. There is one case for each rule, and its node takes the extent of the
word that it puts together.
-/

mutual

theorem DerivesAtom.moved {f : Span → Span} {source source' : List Char} {word : List Lexeme}
    {expr : Expr} (derives : DerivesAtom source word expr)
    (keeps : KeepsExtents f source source' word) :
    DerivesAtom source' (word.map (Lexeme.mapSpan f)) (expr.mapSpans f) := by
  match derives with
  | .number value => exact .number (value.mapSpan f)
  | .name name => exact .name (name.mapSpan f)
  | .parens derives =>
      have moved := DerivesExpr.moved derives
        (keeps.part ((part_behind rfl).trans (part_before rfl)))
      rw [List.map_append, List.map_cons]
      exact .parens moved

theorem DerivesAtoms.moved {f : Span → Span} {source source' : List Char} {word : List Lexeme}
    {arguments : List Expr} (derives : DerivesAtoms source word arguments)
    (keeps : KeepsExtents f source source' word) :
    DerivesAtoms source' (word.map (Lexeme.mapSpan f)) (argumentsMapSpans f arguments) := by
  match derives with
  | .nil => exact .nil
  | @DerivesAtoms.cons _ first _ rest _ derives others =>
      have movedFirst := DerivesAtom.moved derives
        (keeps.part (List.prefix_append first rest).isInfix)
      have movedRest := DerivesAtoms.moved others
        (keeps.part (List.suffix_append first rest).isInfix)
      rw [List.map_append]
      exact .cons movedFirst movedRest

theorem DerivesApplication.moved {f : Span → Span} {source source' : List Char}
    {word : List Lexeme} {expr : Expr} (derives : DerivesApplication source word expr)
    (keeps : KeepsExtents f source source' word) :
    DerivesApplication source' (word.map (Lexeme.mapSpan f)) (expr.mapSpans f) := by
  match derives with
  | .callEmpty whole =>
      rw [Expr.mapSpans, keeps.whole (by simp [whole])]
      exact .callEmpty (by rw [whole]; rfl)
  | @DerivesApplication.call _ _ _ arguments _ derives nonempty whole =>
      have moved := DerivesAtoms.moved derives (keeps.part (part_behind whole))
      have nonempty' : argumentsMapSpans f arguments ≠ [] := by
        cases arguments with
        | nil => exact absurd rfl nonempty
        | cons => exact List.cons_ne_nil _ _
      rw [Expr.mapSpans, keeps.whole (by simp [whole])]
      exact .call moved nonempty' (by rw [whole]; rfl)
  | .atom derives => exact .atom (DerivesAtom.moved derives keeps)

theorem DerivesAdditive.moved {f : Span → Span} {source source' : List Char} {word : List Lexeme}
    {expr : Expr} (derives : DerivesAdditive source word expr)
    (keeps : KeepsExtents f source source' word) :
    DerivesAdditive source' (word.map (Lexeme.mapSpan f)) (expr.mapSpans f) := by
  match derives with
  | .operand derives => exact .operand (DerivesApplication.moved derives keeps)
  | @DerivesAdditive.operation _ _ before _ after _ sign op left right whole =>
      have movedLeft := DerivesAdditive.moved left (keeps.part (part_before whole))
      have movedRight := DerivesApplication.moved right (keeps.part (part_after whole))
      have moved : word.map (Lexeme.mapSpan f) = before.map (Lexeme.mapSpan f) ++
          op.symbol.lexeme (f sign) :: after.map (Lexeme.mapSpan f) := by simp [whole]
      rw [Expr.mapSpans, keeps.whole (by simp [whole])]
      exact .operation movedLeft movedRight moved

theorem DerivesCondition.moved {f : Span → Span} {source source' : List Char} {word : List Lexeme}
    {tested : Condition} (derives : DerivesCondition source word tested)
    (keeps : KeepsExtents f source source' word) :
    DerivesCondition source' (word.map (Lexeme.mapSpan f)) (tested.mapSpans f) := by
  match derives with
  | .truthy derives =>
      have nonempty := ne_nil_of_startsAtom (derives.startsAtom [])
      rw [Condition.mapSpans, keeps.whole nonempty]
      exact .truthy (DerivesAdditive.moved derives keeps)
  | @DerivesCondition.comparison _ _ before _ after _ sign op left right whole =>
      have movedLeft := DerivesAdditive.moved left (keeps.part (part_before whole))
      have movedRight := DerivesAdditive.moved right (keeps.part (part_after whole))
      have moved : word.map (Lexeme.mapSpan f) = before.map (Lexeme.mapSpan f) ++
          op.symbol.lexeme (f sign) :: after.map (Lexeme.mapSpan f) := by simp [whole]
      rw [Condition.mapSpans, keeps.whole (by simp [whole])]
      exact .comparison movedLeft movedRight moved

theorem DerivesExpr.moved {f : Span → Span} {source source' : List Char} {word : List Lexeme}
    {expr : Expr} (derives : DerivesExpr source word expr)
    (keeps : KeepsExtents f source source' word) :
    DerivesExpr source' (word.map (Lexeme.mapSpan f)) (expr.mapSpans f) := by
  match derives with
  | @DerivesExpr.letIn _ _ headerWord letWord _ _ valueWord _ _ _ name value body header whole =>
      have inHeader : valueWord <:+: headerWord := part_after
        (show headerWord = [Symbol.letWord.lexeme letWord, name.lexeme] ++ _ from header)
      have movedValue := DerivesExpr.moved value (keeps.part (inHeader.trans (part_before whole)))
      have movedBody := DerivesExpr.moved body (keeps.part (part_after whole))
      rw [Expr.mapSpans, keeps.whole (by simp [whole])]
      exact .letIn movedValue movedBody (congrArg (List.map (Lexeme.mapSpan f)) header)
        (by rw [whole, List.map_append]; rfl)
  | @DerivesExpr.lambda _ _ headerWord letWord row _ assign _ valueWord _ _ _ name derivesRow value
      body header whole =>
      have keepsHeader := keeps.part (part_before whole)
      have movedValue := DerivesExpr.moved value (keepsHeader.part (part_after header))
      have movedBody := DerivesExpr.moved body (keeps.part (part_after whole))
      rw [Expr.mapSpans, Function.mapSpans, keeps.whole (by simp [whole]),
        keepsHeader.whole (by simp [header])]
      have movedHeader : headerWord.map (Lexeme.mapSpan f) =
          Symbol.letWord.lexeme (f letWord) :: (name.mapSpan f).lexeme ::
            row.map (Lexeme.mapSpan f) ++ Symbol.assign.lexeme (f assign) ::
              valueWord.map (Lexeme.mapSpan f) := by simp [header]
      exact .lambda derivesRow.moved movedValue movedBody movedHeader
        (by rw [whole, List.map_append]; rfl)
  | @DerivesExpr.ifThenElse _ _ ifWord conditionWord _ thenWord trueWord _ elseWord falseWord _
      condition whenTrue whenFalse whole =>
      have keepsFront := keeps.part (part_before whole)
      have movedCondition := DerivesCondition.moved condition
        (keepsFront.part ((part_behind rfl).trans (part_before rfl)))
      have movedTrue := DerivesExpr.moved whenTrue (keepsFront.part (part_after rfl))
      have movedFalse := DerivesExpr.moved whenFalse (keeps.part (part_after whole))
      rw [Expr.mapSpans, keeps.whole (by simp [whole])]
      have moved : word.map (Lexeme.mapSpan f) =
          Symbol.ifWord.lexeme (f ifWord) :: conditionWord.map (Lexeme.mapSpan f) ++
            Symbol.thenWord.lexeme (f thenWord) :: trueWord.map (Lexeme.mapSpan f) ++
            Symbol.elseWord.lexeme (f elseWord) :: falseWord.map (Lexeme.mapSpan f) := by
        simp [whole]
      exact .ifThenElse movedCondition movedTrue movedFalse moved
  | .additive derives => exact .additive (DerivesAdditive.moved derives keeps)

end

theorem DerivesDeclaration.moved {f : Span → Span} {source source' : List Char}
    {word : List Lexeme} {declaration : Declaration}
    (derives : DerivesDeclaration source word declaration)
    (keeps : KeepsExtents f source source' word) :
    DerivesDeclaration source' (word.map (Lexeme.mapSpan f)) (declaration.mapSpans f) := by
  cases derives with
  | @function letWord row _ assign valueWord _ name derivesRow value whole =>
      have movedValue := value.moved (keeps.part (part_after whole))
      have moved : word.map (Lexeme.mapSpan f) =
          Symbol.letWord.lexeme (f letWord) :: (name.mapSpan f).lexeme ::
            row.map (Lexeme.mapSpan f) ++ Symbol.assign.lexeme (f assign) ::
              valueWord.map (Lexeme.mapSpan f) := by simp [whole]
      rw [Declaration.mapSpans, Function.mapSpans, keeps.whole (by simp [whole])]
      exact .function derivesRow.moved movedValue moved
  | expression derives => exact .expression (derives.moved keeps)

/-- Some part of the row derives the node, and the span of the node is the extent of that part. -/
def Owned (source : List Char) (lexemes : List Lexeme) (node : Expr) : Prop :=
  ∃ part, part <:+: lexemes ∧ part ≠ [] ∧ DerivesExpr source part node ∧
    node.span = extent source part

/-!
Every node below a derived one has a part of the row to itself. Parentheses are not in it: the rule
for them passes on the nodes of the expression inside.
-/

theorem DerivesExpr.owned_self {source : List Char} {lexemes word : List Lexeme} {expr : Expr}
    (derives : DerivesExpr source word expr) (within : word <:+: lexemes)
    (place : expr.span = extent source word) : Owned source lexemes expr :=
  ⟨word, within, List.ne_nil_of_length_pos derives.length_pos, derives, place⟩

mutual

theorem DerivesAtom.owned {source : List Char} {lexemes : List Lexeme}
    (places : ∀ lexeme ∈ lexemes, extent source [lexeme] = lexeme.span) {word : List Lexeme}
    {expr : Expr} (derives : DerivesAtom source word expr) (within : word <:+: lexemes) :
    ∀ node ∈ expr.nodes, Owned source lexemes node := by
  match derives with
  | .number value =>
      intro node member
      cases List.mem_singleton.mp member
      have derives : DerivesExpr source [value.lexeme] (.literal value) :=
        .additive (.operand (.atom (.number value)))
      have place := places value.lexeme (within.subset List.mem_cons_self)
      exact derives.owned_self within place.symm
  | .name name =>
      intro node member
      cases List.mem_singleton.mp member
      have derives : DerivesExpr source [name.lexeme] (.var name) :=
        .additive (.operand (.atom (.name name)))
      have place := places name.lexeme (within.subset List.mem_cons_self)
      exact derives.owned_self within place.symm
  | .parens derives =>
      exact DerivesExpr.owned places derives
        (((part_behind rfl).trans (part_before rfl)).trans within)

theorem DerivesAtoms.owned {source : List Char} {lexemes : List Lexeme}
    (places : ∀ lexeme ∈ lexemes, extent source [lexeme] = lexeme.span) {word : List Lexeme}
    {arguments : List Expr} (derives : DerivesAtoms source word arguments)
    (within : word <:+: lexemes) :
    ∀ node ∈ argumentsNodes arguments, Owned source lexemes node := by
  match derives with
  | .nil => exact fun node member => absurd member List.not_mem_nil
  | @DerivesAtoms.cons _ first _ rest _ derives others =>
      have inFirst := DerivesAtom.owned places derives
        ((List.prefix_append first rest).isInfix.trans within)
      have inRest := DerivesAtoms.owned places others
        ((List.suffix_append first rest).isInfix.trans within)
      intro node member
      rcases List.mem_append.mp member with member | member
      · exact inFirst node member
      · exact inRest node member

theorem DerivesApplication.owned {source : List Char} {lexemes : List Lexeme}
    (places : ∀ lexeme ∈ lexemes, extent source [lexeme] = lexeme.span) {word : List Lexeme}
    {expr : Expr} (derives : DerivesApplication source word expr) (within : word <:+: lexemes) :
    ∀ node ∈ expr.nodes, Owned source lexemes node := by
  match derives with
  | .callEmpty whole =>
      have self : DerivesApplication source word _ := .callEmpty whole
      intro node member
      cases List.mem_singleton.mp member
      exact (DerivesExpr.additive (.operand self)).owned_self within rfl
  | .call atoms nonempty whole =>
      have self : DerivesApplication source word _ := .call atoms nonempty whole
      have inArguments := DerivesAtoms.owned places atoms ((part_behind whole).trans within)
      intro node member
      rcases List.mem_cons.mp member with rfl | member
      · exact (DerivesExpr.additive (.operand self)).owned_self within rfl
      · exact inArguments node member
  | .atom derives => exact DerivesAtom.owned places derives within

theorem DerivesAdditive.owned {source : List Char} {lexemes : List Lexeme}
    (places : ∀ lexeme ∈ lexemes, extent source [lexeme] = lexeme.span) {word : List Lexeme}
    {expr : Expr} (derives : DerivesAdditive source word expr) (within : word <:+: lexemes) :
    ∀ node ∈ expr.nodes, Owned source lexemes node := by
  match derives with
  | .operand derives => exact DerivesApplication.owned places derives within
  | .operation left right whole =>
      have self : DerivesAdditive source word _ := .operation left right whole
      have inLeft := DerivesAdditive.owned places left ((part_before whole).trans within)
      have inRight := DerivesApplication.owned places right ((part_after whole).trans within)
      intro node member
      rw [Expr.nodes, List.mem_cons, List.mem_append] at member
      rcases member with rfl | member | member
      · exact (DerivesExpr.additive self).owned_self within rfl
      · exact inLeft node member
      · exact inRight node member

theorem DerivesCondition.owned {source : List Char} {lexemes : List Lexeme}
    (places : ∀ lexeme ∈ lexemes, extent source [lexeme] = lexeme.span) {word : List Lexeme}
    {tested : Condition} (derives : DerivesCondition source word tested)
    (within : word <:+: lexemes) : ∀ node ∈ tested.nodes, Owned source lexemes node := by
  match derives with
  | .truthy derives => exact DerivesAdditive.owned places derives within
  | .comparison left right whole =>
      have inLeft := DerivesAdditive.owned places left ((part_before whole).trans within)
      have inRight := DerivesAdditive.owned places right ((part_after whole).trans within)
      intro node member
      rcases List.mem_append.mp member with member | member
      · exact inLeft node member
      · exact inRight node member

theorem DerivesExpr.owned {source : List Char} {lexemes : List Lexeme}
    (places : ∀ lexeme ∈ lexemes, extent source [lexeme] = lexeme.span) {word : List Lexeme}
    {expr : Expr} (derives : DerivesExpr source word expr) (within : word <:+: lexemes) :
    ∀ node ∈ expr.nodes, Owned source lexemes node := by
  match derives with
  | @DerivesExpr.letIn _ _ headerWord letWord _ _ valueWord _ _ _ name value body header whole =>
      have self : DerivesExpr source word _ := .letIn value body header whole
      have inHeader : valueWord <:+: headerWord := part_after
        (show headerWord = [Symbol.letWord.lexeme letWord, name.lexeme] ++ _ from header)
      have inValue := DerivesExpr.owned places value
        ((inHeader.trans (part_before whole)).trans within)
      have inBody := DerivesExpr.owned places body ((part_after whole).trans within)
      intro node member
      rw [Expr.nodes, List.mem_cons, List.mem_append] at member
      rcases member with rfl | member | member
      · exact self.owned_self within rfl
      · exact inValue node member
      · exact inBody node member
  | .lambda derivesRow value body header whole =>
      have self : DerivesExpr source word _ := .lambda derivesRow value body header whole
      have inValue := DerivesExpr.owned places value
        (((part_after header).trans (part_before whole)).trans within)
      have inBody := DerivesExpr.owned places body ((part_after whole).trans within)
      intro node member
      rw [Expr.nodes, List.mem_cons, List.mem_append] at member
      rcases member with rfl | member | member
      · exact self.owned_self within rfl
      · exact inValue node member
      · exact inBody node member
  | .ifThenElse condition whenTrue whenFalse whole =>
      have self : DerivesExpr source word _ := .ifThenElse condition whenTrue whenFalse whole
      have front := (part_before whole).trans within
      have inCondition := DerivesCondition.owned places condition
        (((part_behind rfl).trans (part_before rfl)).trans front)
      have inTrue := DerivesExpr.owned places whenTrue ((part_after rfl).trans front)
      have inFalse := DerivesExpr.owned places whenFalse ((part_after whole).trans within)
      intro node member
      rw [Expr.nodes, List.mem_cons, List.mem_append, List.mem_append] at member
      rcases member with rfl | member | member | member
      · exact self.owned_self within rfl
      · exact inCondition node member
      · exact inTrue node member
      · exact inFalse node member
  | .additive derives => exact DerivesAdditive.owned places derives within

end

theorem part_of_program {source : List Char} {lexemes : List Lexeme}
    {declarations : List Declaration} (derives : DerivesProgram source lexemes declarations)
    {declaration : Declaration} (member : declaration ∈ declarations) :
    ∃ part, part <:+: lexemes ∧ DerivesDeclaration source part declaration := by
  induction derives with
  | empty => cases member
  | last derives =>
      cases List.mem_singleton.mp member
      exact ⟨_, List.infix_refl _, derives⟩
  | @next word first _ semicolon rest _ derives _ whole ih =>
      rcases List.mem_cons.mp member with rfl | later
      · exact ⟨first, part_before whole, derives⟩
      · obtain ⟨part, within, derives⟩ := ih later
        exact ⟨part, within.trans (part_after whole), derives⟩

/-- Cut out of its source, the word of a declaration derives the declaration with all places moved to
the left. Moved back to the right it is the same again, so no place lies before the cut. -/
theorem DerivesDeclaration.cut {before middle behind : List Char} {word : List Lexeme}
    {declaration : Declaration} (lexes : Lexes (byteLength before) middle word)
    (derives : DerivesDeclaration (before ++ middle ++ behind) word declaration) :
    DerivesDeclaration middle (word.map (Lexeme.mapSpan (.moveLeft (byteLength before))))
        (declaration.mapSpans (.moveLeft (byteLength before))) ∧
      (declaration.mapSpans (.moveLeft (byteLength before))).mapSpans
        (.moveRight (byteLength before)) = declaration := by
  have keepsLeft : KeepsExtents (.moveLeft (byteLength before)) (before ++ middle ++ behind) middle
      word := by
    intro part within nonempty
    exact (extent_moveLeft behind lexes within nonempty).1
  have bounds := fun lexeme (member : lexeme ∈ word) => lexes.le_start member
  have keepsRight : KeepsExtents (.moveRight (byteLength before)) middle (before ++ middle ++ behind)
      (word.map (Lexeme.mapSpan (.moveLeft (byteLength before)))) := by
    intro moved inMoved nonempty
    obtain ⟨part, within, rfl⟩ := List.infix_map_iff.mp inMoved
    have some : part ≠ [] := fun none => nonempty (List.map_eq_nil_iff.mpr none)
    obtain ⟨place, start, stop⟩ := extent_moveLeft behind lexes within some
    rw [map_moveRight_moveLeft fun lexeme member => bounds lexeme (within.subset member), place,
      Span.moveRight_moveLeft start stop]
  refine ⟨derives.moved keepsLeft, ?_⟩
  have back := (derives.moved keepsLeft).moved keepsRight
  rw [map_moveRight_moveLeft bounds] at back
  exact Parser.derives_unique back derives

theorem part_reads {source : String} {lexemes part : List Lexeme}
    (lexes : Lexes 0 source.toList lexemes) (within : part <:+: lexemes)
    {declaration : Declaration} (derives : DerivesDeclaration source.toList part declaration)
    {span : Span} (place : span = extent source.toList part) :
    parse span.text = .ok [declaration.mapSpans (.moveLeft span.start)] ∧
      (declaration.mapSpans (.moveLeft span.start)).mapSpans (.moveRight span.start) =
        declaration := by
  obtain ⟨earlier, later, whole⟩ := within
  rw [← whole] at lexes
  have nonempty := List.ne_nil_of_length_pos derives.length_pos
  obtain ⟨before, middle, behind, split, alone, extent_eq⟩ := lexes.part nonempty
  rw [extent_eq, split, Nat.zero_add, slice_append] at place
  rw [Nat.zero_add] at alone
  rw [split] at derives
  obtain ⟨cut, back⟩ := derives.cut alone
  rw [place]
  refine ⟨?_, back⟩
  rw [← Nat.zero_add (byteLength before)] at alone
  refine parse_eq_ok_iff.mpr
    ⟨part.map (Lexeme.mapSpan (.moveLeft (byteLength before))), ?_, ?_⟩
  · rw [String.toList_ofList]
    exact alone.moveLeft
  · rw [String.toList_ofList]
    exact .last cut

/-- Every expression of a program, at whatever depth, and every function on the top level stands for
its own text: read alone, the text gives that node as the only declaration, with every span moved to
the left by where the text starts. Moving the spans back gives the node itself. -/
theorem nodes_read_back {source : String} {declarations : List Declaration}
    (parsed : parse source = .ok declarations) :
    (∀ declaration ∈ declarations, ∀ node ∈ declaration.nodes,
      parse node.text = .ok [.expression (node.mapSpans (.moveLeft node.span.start))] ∧
      (node.mapSpans (.moveLeft node.span.start)).mapSpans (.moveRight node.span.start) = node) ∧
    ∀ definition, .function definition ∈ declarations →
      parse definition.span.text =
        .ok [.function (definition.mapSpans (.moveLeft definition.span.start))] ∧
      (definition.mapSpans (.moveLeft definition.span.start)).mapSpans
        (.moveRight definition.span.start) = definition := by
  obtain ⟨lexemes, lexes, program⟩ := parse_eq_ok_iff.mp parsed
  have places := fun lexeme (member : lexeme ∈ lexemes) => lexes.extent_lexeme member
  constructor
  · intro declaration member node inside
    obtain ⟨word, within, derives⟩ := part_of_program program member
    have owned : Owned source.toList lexemes node := by
      cases derives with
      | function _ value whole =>
          exact value.owned places ((part_after whole).trans within) node inside
      | expression derives => exact derives.owned places within node inside
    obtain ⟨part, within, -, derives, place⟩ := owned
    obtain ⟨reads, back⟩ := part_reads lexes within (.expression derives) place
    exact ⟨reads, Declaration.expression.inj back⟩
  · intro definition member
    obtain ⟨word, within, derives⟩ := part_of_program program member
    have place : definition.span = extent source.toList word := by
      cases derives
      rfl
    obtain ⟨reads, back⟩ := part_reads lexes within derives place
    exact ⟨reads, Declaration.function.inj back⟩

/-- The sum of `a` and `b`, read from `a + b` at the given offset. -/
def sumReadAt (start : Nat) : Expr :=
  .additive .add (.var ⟨"a", ⟨start, start + 1, "a"⟩⟩)
    (.var ⟨"b", ⟨start + 4, start + 5, "b"⟩⟩) ⟨start, start + 5, "a + b"⟩

theorem bracketed_sum_reads_back :
    parse "c - (a + b)" = .ok [.expression
      (.additive .sub (.var ⟨"c", ⟨0, 1, "c"⟩⟩) (sumReadAt 5) ⟨0, 11, "c - (a + b)"⟩)] ∧
    parse "a + b" = .ok [.expression (sumReadAt 0)] := by
  have read : Lexeme.ofSource "c - (a + b)".toList = .ok [⟨.identifier "c", ⟨0, 1, "c"⟩⟩,
      ⟨.symbol .minus, ⟨2, 3, "-"⟩⟩, ⟨.symbol .leftParen, ⟨4, 5, "("⟩⟩,
      ⟨.identifier "a", ⟨5, 6, "a"⟩⟩, ⟨.symbol .plus, ⟨7, 8, "+"⟩⟩,
      ⟨.identifier "b", ⟨9, 10, "b"⟩⟩, ⟨.symbol .rightParen, ⟨10, 11, ")"⟩⟩] := by
    rw [Lexeme.ofSource_eq_within]
    rfl
  have parsed : parse "c - (a + b)" = .ok [.expression
      (.additive .sub (.var ⟨"c", ⟨0, 1, "c"⟩⟩) (sumReadAt 5) ⟨0, 11, "c - (a + b)"⟩)] := by
    rw [parse, read]
    rfl
  have inside : sumReadAt 5 ∈ Expr.nodes
      (.additive .sub (.var ⟨"c", ⟨0, 1, "c"⟩⟩) (sumReadAt 5) ⟨0, 11, "c - (a + b)"⟩) :=
    .tail _ (.tail _ (.head _))
  have reads := (nodes_read_back parsed).1 _ (.head _) (sumReadAt 5) inside
  exact ⟨parsed, reads.1⟩

end FrameLang
