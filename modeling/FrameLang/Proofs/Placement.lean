import Mathlib.Data.String.Basic
import FrameLang.Proofs.NodeText

/-!
Where the parts of a program stand in its source. Each node is spelled by a word of the source, and
the nodes below it by words that follow one another inside that word. Extents of words are ordered as
the words are, so spans nest as the tree does and siblings advance from left to right.
-/

set_option autoImplicit false

namespace FrameLang

open Source

/-!
## Nodes
-/

/-- Whatever carries a span in the tree of a program. -/
inductive Node where
  | expr (expr : Expr)
  | condition (condition : Condition)
  | function (function : Function)
  | name (name : Name)

namespace Node

def span : Node → Span
  | .expr tree => tree.span
  | .condition tested => tested.span
  | .function definition => definition.span
  | .name occurrence => occurrence.span

/-- The nodes directly below, in the order of the source. A literal has none, and a variable is
nothing but its name. -/
def children : Node → List Node
  | .expr (.literal _) => []
  | .expr (.var _) => []
  | .expr (.additive _ left right _) => [.expr left, .expr right]
  | .expr (.letIn bound value body _) => [.name bound, .expr value, .expr body]
  | .expr (.lambda definition usage _) => [.function definition, .expr usage]
  | .expr (.call callee arguments _) => .name callee :: arguments.map .expr
  | .expr (.ifThenElse tested whenTrue whenFalse _) =>
    [.condition tested, .expr whenTrue, .expr whenFalse]
  | .condition (.truthy operand _) => [.expr operand]
  | .condition (.comparison _ left right _) => [.expr left, .expr right]
  | .function ⟨defined, parameters, body, _, _⟩ =>
    .name defined :: parameters.map .name ++ [.expr body]
  | .name _ => []

/-- A node at any depth below the root, or the root itself. -/
inductive PartOf (root : Node) : Node → Prop where
  | root : PartOf root root
  | child {parent child} : PartOf root parent → child ∈ parent.children → PartOf root child

/-- The first node ends where the second one starts, or before. -/
def Precedes (first second : Node) : Prop := first.span.stop ≤ second.span.start

def Encloses (parent child : Node) : Prop :=
  parent.span.start ≤ child.span.start ∧ child.span.stop ≤ parent.span.stop

end Node

/-- The node that a declaration consists of. -/
def Declaration.root : Declaration → Node
  | function definition => .function definition
  | expression expr => .expr expr

/-- The span marks a part of the text that is not empty, from one boundary between characters to
another, and quotes that part. -/
structure Span.Marks (source : String) (span : Span) : Prop where
  start_lt_stop : span.start < span.stop
  stop_le : span.stop ≤ source.utf8ByteSize
  start_valid : String.Pos.Raw.IsValid source ⟨span.start⟩
  stop_valid : String.Pos.Raw.IsValid source ⟨span.stop⟩
  text_eq : span.text = String.Pos.Raw.extract source ⟨span.start⟩ ⟨span.stop⟩

/-!
## Words of nodes
-/

/-- The word has the node as its tree, and the node has the extent of the word as its span. -/
inductive Spells (source : List Char) : List Lexeme → Node → Prop where
  | expr {word expr} :
      DerivesExpr source word expr → expr.span = extent source word →
      Spells source word (.expr expr)
  | condition {word tested} :
      DerivesCondition source word tested → Spells source word (.condition tested)
  | function {word letWord row parameters assign valueWord value isLambda} {name : Name} :
      DerivesParameters row parameters → DerivesExpr source valueWord value →
      word = Symbol.letWord.lexeme letWord :: name.lexeme :: row ++
        Symbol.assign.lexeme assign :: valueWord →
      Spells source word (.function ⟨name, parameters, value, isLambda, extent source word⟩)
  | name {name : Name} :
      name.span = extent source [name.lexeme] → Spells source [name.lexeme] (.name name)

theorem Spells.span_eq {source : List Char} {word : List Lexeme} {node : Node}
    (spells : Spells source word node) : node.span = extent source word := by
  cases spells with
  | expr _ place => exact place
  | condition derives => cases derives <;> rfl
  | function => rfl
  | name place => exact place

theorem DerivesCondition.ne_nil {source : List Char} {word : List Lexeme} {tested : Condition}
    (derives : DerivesCondition source word tested) : word ≠ [] := by
  cases derives with
  | truthy derives => exact ne_nil_of_startsAtom (derives.startsAtom [])
  | comparison _ _ whole => simp [whole]

theorem Spells.ne_nil {source : List Char} {word : List Lexeme} {node : Node}
    (spells : Spells source word node) : word ≠ [] := by
  cases spells with
  | expr derives _ => exact List.ne_nil_of_length_pos derives.length_pos
  | condition derives => exact derives.ne_nil
  | function _ _ whole => simp [whole]
  | name => exact List.cons_ne_nil _ _

/-- The nodes are spelled by parts of the word, one behind the other. -/
inductive LaidOut (source : List Char) : List Lexeme → List Node → Prop where
  | nil {word} : LaidOut source word []
  | cons {word gap part rest node nodes} :
      Spells source part node → LaidOut source rest nodes → word = gap ++ part ++ rest →
      LaidOut source word (node :: nodes)

theorem Spells.alone {source : List Char} {word : List Lexeme} {node : Node}
    (spells : Spells source word node) : LaidOut source word [node] := by
  have split : word = [] ++ word ++ [] := by simp
  exact .cons spells .nil split

namespace LaidOut

variable {source : List Char} {word : List Lexeme} {nodes : List Node}

theorem behind (laidOut : LaidOut source word nodes) (before : List Lexeme) :
    LaidOut source (before ++ word) nodes := by
  cases laidOut with
  | nil => exact .nil
  | @cons _ gap part rest _ _ spells others whole =>
      have split : before ++ word = before ++ gap ++ part ++ rest := by
        simp only [whole, List.append_assoc]
      exact .cons spells others split

theorem append {after : List Lexeme} {others : List Node} (first : LaidOut source word nodes)
    (second : LaidOut source after others) : LaidOut source (word ++ after) (nodes ++ others) := by
  induction first with
  | nil => exact second.behind _
  | @cons word gap part rest _ _ spells _ whole ih =>
      have split : word ++ after = gap ++ part ++ (rest ++ after) := by
        rw [whole, List.append_assoc]
      exact .cons spells ih split

theorem before (laidOut : LaidOut source word nodes) (after : List Lexeme) :
    LaidOut source (word ++ after) nodes := by
  have nothing : LaidOut source after [] := .nil
  have whole := laidOut.append nothing
  rwa [List.append_nil] at whole

theorem exists_part (laidOut : LaidOut source word nodes) {node : Node} (member : node ∈ nodes) :
    ∃ part, part <:+: word ∧ Spells source part node := by
  induction laidOut with
  | nil => cases member
  | @cons _ gap part rest _ _ spells _ whole ih =>
      rcases List.mem_cons.mp member with rfl | later
      · exact ⟨part, ⟨gap, rest, whole.symm⟩, spells⟩
      · obtain ⟨other, within, spelled⟩ := ih later
        rw [whole]
        exact ⟨other, within.trans (List.suffix_append _ rest).isInfix, spelled⟩

end LaidOut

/-!
## Children in the word of their parent
-/

/-- Every lexeme of the word carries the place that it has in the source. -/
def Placed (source : List Char) (word : List Lexeme) : Prop :=
  ∀ lexeme ∈ word, extent source [lexeme] = lexeme.span

theorem Placed.part {source : List Char} {word part : List Lexeme} (placed : Placed source word)
    (within : part <:+: word) : Placed source part :=
  fun lexeme member => placed lexeme (within.subset member)

theorem Expr.mem_nodes_self (expr : Expr) : expr ∈ expr.nodes := by
  cases expr <;> exact List.mem_cons_self

section Parts

variable {source : List Char} {word : List Lexeme}

/-- Parentheses around an expression are left out of its own word. -/
theorem DerivesExpr.laidOut {expr : Expr} (derives : DerivesExpr source word expr)
    (placed : Placed source word) : LaidOut source word [.expr expr] := by
  obtain ⟨part, ⟨gap, after, whole⟩, -, inner, place⟩ :=
    derives.owned placed (List.infix_refl word) expr expr.mem_nodes_self
  exact .cons (.expr inner place) .nil whole.symm

theorem DerivesAdditive.laidOut {expr : Expr} (derives : DerivesAdditive source word expr)
    (placed : Placed source word) : LaidOut source word [.expr expr] :=
  (DerivesExpr.additive derives).laidOut placed

theorem Name.laidOut {name : Name} (placed : Placed source [name.lexeme]) :
    LaidOut source [name.lexeme] [.name name] := by
  have place := placed name.lexeme List.mem_cons_self
  exact Spells.alone (.name place.symm)

theorem names_laidOut {names : List Name} (placed : Placed source (names.map Name.lexeme)) :
    LaidOut source (names.map Name.lexeme) (names.map .name) := by
  induction names with
  | nil => exact .nil
  | cons name rest ih =>
      have first : LaidOut source [name.lexeme] [.name name] :=
        Name.laidOut (placed.part (List.prefix_append [name.lexeme] _).isInfix)
      exact first.append (ih (placed.part (List.suffix_cons _ _).isInfix))

theorem DerivesParameters.laidOut {parameters : List Name}
    (derives : DerivesParameters word parameters) (placed : Placed source word) :
    LaidOut source word (parameters.map .name) := by
  cases derives with
  | empty => exact .nil
  | names => exact names_laidOut placed

end Parts

theorem DerivesAtoms.laidOut {source : List Char} {word : List Lexeme} {arguments : List Expr}
    (derives : DerivesAtoms source word arguments) (placed : Placed source word) :
    LaidOut source word (arguments.map .expr) := by
  match derives with
  | .nil => exact .nil
  | @DerivesAtoms.cons _ first _ rest _ atom others =>
      have derivesFirst : DerivesExpr source first _ := .additive (.operand (.atom atom))
      have onFirst := derivesFirst.laidOut (placed.part (List.prefix_append first rest).isInfix)
      have onRest := DerivesAtoms.laidOut others
        (placed.part (List.suffix_append first rest).isInfix)
      exact onFirst.append onRest

/-!
The node at the top of a derivation stands behind any number of parentheses, so the search for its
children follows the rules down to the one that builds the node.
-/

mutual

theorem DerivesAtom.children_laidOut {source : List Char} {word : List Lexeme} {expr : Expr}
    (derives : DerivesAtom source word expr) (placed : Placed source word) :
    LaidOut source word (Node.expr expr).children := by
  match derives with
  | .number value => exact .nil
  | .name name => exact .nil
  | @DerivesAtom.parens _ left inner _ right derives =>
      have within : inner <:+: Symbol.leftParen.lexeme left :: inner ++
          [Symbol.rightParen.lexeme right] := (part_behind rfl).trans (part_before rfl)
      have laidOut := DerivesExpr.children_laidOut derives (placed.part within)
      exact (laidOut.behind [Symbol.leftParen.lexeme left]).before _

theorem DerivesApplication.children_laidOut {source : List Char} {word : List Lexeme} {expr : Expr}
    (derives : DerivesApplication source word expr) (placed : Placed source word) :
    LaidOut source word (Node.expr expr).children := by
  match derives with
  | @DerivesApplication.callEmpty _ _ left right name whole =>
      subst whole
      have own : [name.lexeme] <:+: [name.lexeme, Symbol.leftParen.lexeme left,
          Symbol.rightParen.lexeme right] := (List.prefix_append [name.lexeme] _).isInfix
      exact (Name.laidOut (placed.part own)).before
        [Symbol.leftParen.lexeme left, Symbol.rightParen.lexeme right]
  | @DerivesApplication.call _ _ row arguments name atoms _ whole =>
      subst whole
      have own : [name.lexeme] <:+: name.lexeme :: row :=
        (List.prefix_append [name.lexeme] row).isInfix
      exact (Name.laidOut (placed.part own)).append
        (atoms.laidOut (placed.part (part_behind rfl)))
  | .atom derives => exact DerivesAtom.children_laidOut derives placed

theorem DerivesAdditive.children_laidOut {source : List Char} {word : List Lexeme} {expr : Expr}
    (derives : DerivesAdditive source word expr) (placed : Placed source word) :
    LaidOut source word (Node.expr expr).children := by
  match derives with
  | .operand derives => exact DerivesApplication.children_laidOut derives placed
  | @DerivesAdditive.operation _ _ before _ after _ sign op left right whole =>
      have onLeft := left.laidOut (placed.part (part_before whole))
      have onRight := (DerivesAdditive.operand right).laidOut (placed.part (part_after whole))
      rw [whole]
      exact onLeft.append (onRight.behind [op.symbol.lexeme sign])

theorem DerivesExpr.children_laidOut {source : List Char} {word : List Lexeme} {expr : Expr}
    (derives : DerivesExpr source word expr) (placed : Placed source word) :
    LaidOut source word (Node.expr expr).children := by
  match derives with
  | @DerivesExpr.letIn _ _ headerWord letWord assign inWord valueWord _ bodyWord _ name value body
      header whole =>
      have inHeader := placed.part (part_before whole)
      subst header
      have own : [name.lexeme] <:+: Symbol.letWord.lexeme letWord :: name.lexeme ::
          Symbol.assign.lexeme assign :: valueWord :=
        ⟨[Symbol.letWord.lexeme letWord], Symbol.assign.lexeme assign :: valueWord, rfl⟩
      have ofValue : valueWord <:+: Symbol.letWord.lexeme letWord :: name.lexeme ::
          Symbol.assign.lexeme assign :: valueWord :=
        ⟨[Symbol.letWord.lexeme letWord, name.lexeme, Symbol.assign.lexeme assign], [], by simp⟩
      have onName := (Name.laidOut (inHeader.part own)).behind [Symbol.letWord.lexeme letWord]
      have onValue := (value.laidOut (inHeader.part ofValue)).behind
        [Symbol.assign.lexeme assign]
      have onBody := (body.laidOut (placed.part (part_after whole))).behind
        [Symbol.inWord.lexeme inWord]
      rw [whole]
      exact (onName.append onValue).append onBody
  | @DerivesExpr.lambda _ _ headerWord letWord row parameters assign inWord valueWord _ bodyWord _
      name derivesRow value body header whole =>
      have onFunction : LaidOut source headerWord [.function ⟨name, parameters, _, true,
          extent source headerWord⟩] :=
        Spells.alone (.function derivesRow value header)
      have onBody := (body.laidOut (placed.part (part_after whole))).behind
        [Symbol.inWord.lexeme inWord]
      rw [whole]
      exact onFunction.append onBody
  | @DerivesExpr.ifThenElse _ _ ifWord conditionWord _ thenWord trueWord _ elseWord falseWord _
      condition whenTrue whenFalse whole =>
      have front := placed.part (part_before whole)
      have onCondition : LaidOut source conditionWord [.condition _] :=
        Spells.alone (.condition condition)
      have onTrue := (whenTrue.laidOut (front.part (part_after rfl))).behind
        [Symbol.thenWord.lexeme thenWord]
      have onFalse := (whenFalse.laidOut (placed.part (part_after whole))).behind
        [Symbol.elseWord.lexeme elseWord]
      rw [whole]
      exact ((onCondition.behind [Symbol.ifWord.lexeme ifWord]).append onTrue).append onFalse
  | .additive derives => exact DerivesAdditive.children_laidOut derives placed

end

theorem DerivesCondition.children_laidOut {source : List Char} {word : List Lexeme}
    {tested : Condition} (derives : DerivesCondition source word tested)
    (placed : Placed source word) : LaidOut source word (Node.condition tested).children := by
  cases derives with
  | truthy derives => exact derives.laidOut placed
  | @comparison _ before _ after _ sign op left right whole =>
      have onLeft := left.laidOut (placed.part (part_before whole))
      have onRight := right.laidOut (placed.part (part_after whole))
      rw [whole]
      exact onLeft.append (onRight.behind [op.symbol.lexeme sign])

/-- One step down the tree: the children of a node stand in its word, from left to right. -/
theorem Spells.children_laidOut {source : List Char} {word : List Lexeme} {node : Node}
    (spells : Spells source word node) (placed : Placed source word) :
    LaidOut source word node.children := by
  cases spells with
  | expr derives _ => exact derives.children_laidOut placed
  | condition derives => exact derives.children_laidOut placed
  | @function _ letWord row parameters assign valueWord value _ name derivesRow derives whole =>
      have front : Symbol.letWord.lexeme letWord :: name.lexeme :: row <:+: word :=
        part_before whole
      have own : [name.lexeme] <:+: Symbol.letWord.lexeme letWord :: name.lexeme :: row :=
        ⟨[Symbol.letWord.lexeme letWord], row, rfl⟩
      have ofRow : row <:+: Symbol.letWord.lexeme letWord :: name.lexeme :: row :=
        (part_behind rfl).trans (part_behind rfl)
      have onName := (Name.laidOut (placed.part (own.trans front))).behind
        [Symbol.letWord.lexeme letWord]
      have onRow := derivesRow.laidOut (placed.part (ofRow.trans front))
      have onValue := (derives.laidOut (placed.part (part_after whole))).behind
        [Symbol.assign.lexeme assign]
      rw [whole]
      exact (onName.append onRow).append onValue
  | name => exact .nil

/-- Every node below a spelled one is spelled by a part of the row. -/
theorem Node.PartOf.exists_part {source : List Char} {lexemes : List Lexeme} {root node : Node}
    (part : root.PartOf node) (placed : Placed source lexemes)
    (spelled : ∃ word, word <:+: lexemes ∧ Spells source word root) :
    ∃ word, word <:+: lexemes ∧ Spells source word node := by
  induction part with
  | root => exact spelled
  | child _ member ih =>
      obtain ⟨word, within, spells⟩ := ih
      obtain ⟨inner, inside, spelled⟩ :=
        (spells.children_laidOut (placed.part within)).exists_part member
      exact ⟨inner, inside.trans within, spelled⟩

theorem DerivesDeclaration.laidOut {source : List Char} {word : List Lexeme}
    {declaration : Declaration} (derives : DerivesDeclaration source word declaration)
    (placed : Placed source word) : LaidOut source word [declaration.root] := by
  cases derives with
  | function derivesRow value whole =>
      exact Spells.alone (.function derivesRow value whole)
  | expression derives => exact derives.laidOut placed

theorem DerivesProgram.laidOut {source : List Char} {word : List Lexeme}
    {declarations : List Declaration} (derives : DerivesProgram source word declarations)
    (placed : Placed source word) : LaidOut source word (declarations.map Declaration.root) := by
  induction derives with
  | empty => exact .nil
  | last derives => exact derives.laidOut placed
  | @next _ first _ semicolon rest _ derives _ whole ih =>
      have onFirst := derives.laidOut (placed.part (part_before whole))
      have others := (ih (placed.part (part_after whole))).behind
        [Symbol.semicolon.lexeme semicolon]
      rw [whole]
      exact onFirst.append others

/-!
## Extents of words
-/

/-- Each lexeme ends where the next one starts, or before. -/
structure Ordered (word : List Lexeme) : Prop where
  advances : word.Pairwise fun first second => first.span.stop ≤ second.span.start
  forward : ∀ lexeme ∈ word, lexeme.span.start ≤ lexeme.span.stop

theorem Lexes.ordered {offset : Nat} {chars : List Char} {lexemes : List Lexeme}
    (lexes : Lexes offset chars lexemes) : Ordered lexemes := by
  refine ⟨?_, fun lexeme member => (lexes.le_start member).2⟩
  induction lexes with
  | done => exact .nil
  | token _ _ others _ _ _ ih =>
      refine List.pairwise_cons.mpr ⟨fun later member => ?_, ih⟩
      exact (others.le_start member).1

theorem Ordered.part {word part : List Lexeme} (ordered : Ordered word) (within : part <:+: word) :
    Ordered part :=
  ⟨ordered.advances.sublist within.sublist,
    fun lexeme member => ordered.forward lexeme (within.subset member)⟩

section Extent

variable (source : List Char) {word : List Lexeme}

theorem exists_extent_start (nonempty : word ≠ []) :
    ∃ lexeme ∈ word, (extent source word).start = lexeme.span.start := by
  cases word with
  | nil => exact absurd rfl nonempty
  | cons first more => exact ⟨first, List.mem_cons_self, rfl⟩

theorem exists_extent_stop (nonempty : word ≠ []) :
    ∃ lexeme ∈ word, (extent source word).stop = lexeme.span.stop := by
  cases word with
  | nil => exact absurd rfl nonempty
  | cons first more => exact ⟨more.getLastD first, List.getLastD_mem_cons, rfl⟩

theorem Ordered.extent_start_le (ordered : Ordered word) {lexeme : Lexeme} (member : lexeme ∈ word) :
    (extent source word).start ≤ lexeme.span.start := by
  cases word with
  | nil => cases member
  | cons first more =>
      rcases List.mem_cons.mp member with rfl | later
      · exact Nat.le_refl _
      · exact Nat.le_trans (ordered.forward first List.mem_cons_self)
          ((List.pairwise_cons.mp ordered.advances).1 lexeme later)

theorem Ordered.le_extent_stop (ordered : Ordered word) {lexeme : Lexeme} (member : lexeme ∈ word) :
    lexeme.span.stop ≤ (extent source word).stop := by
  induction word generalizing lexeme with
  | nil => cases member
  | cons first more ih =>
      cases more with
      | nil =>
          cases List.mem_singleton.mp member
          exact Nat.le_refl _
      | cons second more =>
          have rest := ordered.part (List.suffix_cons first (second :: more)).isInfix
          have sameEnd : (extent source (first :: second :: more)).stop =
              (extent source (second :: more)).stop := by
            simp only [extent, List.getLastD_cons]
            rfl
          rw [sameEnd]
          rcases List.mem_cons.mp member with rfl | later
          · calc lexeme.span.stop ≤ second.span.start :=
                  (List.pairwise_cons.mp ordered.advances).1 second List.mem_cons_self
              _ ≤ second.span.stop := rest.forward second List.mem_cons_self
              _ ≤ (extent source (second :: more)).stop := ih rest List.mem_cons_self
          · exact ih rest later

/-- A part of a word lies inside the extent of the word. -/
theorem Ordered.extent_within (ordered : Ordered word) {part : List Lexeme} (within : part <:+: word)
    (nonempty : part ≠ []) :
    (extent source word).start ≤ (extent source part).start ∧
      (extent source part).stop ≤ (extent source word).stop := by
  obtain ⟨first, firstMember, start⟩ := exists_extent_start source nonempty
  obtain ⟨last, lastMember, stop⟩ := exists_extent_stop source nonempty
  rw [start, stop]
  exact ⟨ordered.extent_start_le source (within.subset firstMember),
    ordered.le_extent_stop source (within.subset lastMember)⟩

theorem Ordered.extent_stop_le_start {first second : List Lexeme}
    (ordered : Ordered (first ++ second)) (some : first ≠ []) (others : second ≠ []) :
    (extent source first).stop ≤ (extent source second).start := by
  obtain ⟨last, lastMember, stop⟩ := exists_extent_stop source some
  obtain ⟨next, nextMember, start⟩ := exists_extent_start source others
  rw [stop, start]
  exact (List.pairwise_append.mp ordered.advances).2.2 last lastMember next nextMember

end Extent

/-- Nodes that are laid out in a word lie inside its extent. -/
theorem LaidOut.enclosed {source : List Char} {word : List Lexeme} {nodes : List Node}
    (laidOut : LaidOut source word nodes) (ordered : Ordered word) {node : Node}
    (member : node ∈ nodes) :
    (extent source word).start ≤ node.span.start ∧ node.span.stop ≤ (extent source word).stop := by
  obtain ⟨part, within, spells⟩ := laidOut.exists_part member
  rw [spells.span_eq]
  exact ordered.extent_within source within spells.ne_nil

theorem LaidOut.pairwise_precedes {source : List Char} {word : List Lexeme} {nodes : List Node}
    (laidOut : LaidOut source word nodes) (ordered : Ordered word) :
    nodes.Pairwise Node.Precedes := by
  induction laidOut with
  | nil => exact .nil
  | @cons _ gap part rest first nodes spells others whole ih =>
      have behindGap : Ordered (part ++ rest) := by
        rw [whole, List.append_assoc] at ordered
        exact ordered.part (List.suffix_append gap _).isInfix
      refine List.pairwise_cons.mpr ⟨fun node member => ?_,
        ih (behindGap.part (List.suffix_append part rest).isInfix)⟩
      obtain ⟨later, within, spelled⟩ := others.exists_part member
      obtain ⟨skipped, behind, split⟩ := within
      have together : part ++ skipped ++ later <:+: part ++ rest := ⟨[], behind, by simp [← split]⟩
      have between : (extent source (part ++ skipped)).stop ≤ (extent source later).start :=
        (behindGap.part together).extent_stop_le_start source (by simp [spells.ne_nil])
          spelled.ne_nil
      have inside := (behindGap.part ((List.prefix_append (part ++ skipped) later).isInfix.trans
        together)).extent_within source (List.prefix_append part skipped).isInfix spells.ne_nil
      rw [Node.Precedes, spells.span_eq, spelled.span_eq]
      exact Nat.le_trans inside.2 between

/-!
## Parts of the text
-/

theorem Source.byteLength_eq_utf8Len (chars : List Char) :
    byteLength chars = String.utf8Len chars := by
  induction chars with
  | nil => rfl
  | cons c chars ih => rw [byteLength, String.utf8Len_cons, ih, Nat.add_comm]

theorem Source.byteLength_toList (source : String) :
    byteLength source.toList = source.utf8ByteSize := by
  rw [byteLength_eq_utf8Len, ← String.utf8ByteSize_ofList, String.ofList_toList]

theorem Source.isValid_byteLength (before after : List Char) :
    String.Pos.Raw.IsValid (String.ofList (before ++ after)) ⟨byteLength before⟩ := by
  refine String.Pos.Raw.isValid_iff_exists_append.mpr
    ⟨String.ofList before, String.ofList after, String.ofList_append, ?_⟩
  rw [String.rawEndPos, String.utf8ByteSize_ofList, byteLength_eq_utf8Len]

theorem Source.slice_marks (before middle after : List Char) (some : middle ≠ []) :
    Span.Marks (String.ofList (before ++ middle ++ after))
      ⟨byteLength before, byteLength before + byteLength middle, String.ofList middle⟩ := by
  have pos : 0 < byteLength middle :=
    Nat.pos_of_ne_zero fun none => some (eq_nil_of_byteLength none)
  constructor
  · exact Nat.lt_add_of_pos_right pos
  · rw [String.utf8ByteSize_ofList, ← byteLength_eq_utf8Len, byteLength_append, byteLength_append]
    exact Nat.le_add_right _ _
  · rw [List.append_assoc]
    exact isValid_byteLength before (middle ++ after)
  · rw [← byteLength_append]
    exact isValid_byteLength (before ++ middle) after
  · rw [byteLength_eq_utf8Len, byteLength_eq_utf8Len]
    exact (String.extract_of_valid before middle after).symm

theorem Lexes.nonempty {offset : Nat} {chars : List Char} {lexemes : List Lexeme}
    (lexes : Lexes offset chars lexemes) (some : lexemes ≠ []) : chars ≠ [] := by
  cases lexes with
  | done => exact absurd rfl some
  | @token _ _ _ _ gap text rest _ _ _ found _ _ _ whole =>
      have pos := Token.scan?_length_pos found
      rintro rfl
      simp only [List.nil_eq, List.append_eq_nil_iff] at whole
      simp [whole.2.1] at pos

theorem Lexes.extent_marks {source : String} {lexemes word : List Lexeme}
    (lexes : Lexes 0 source.toList lexemes) (within : word <:+: lexemes) (some : word ≠ []) :
    (extent source.toList word).Marks source := by
  obtain ⟨earlier, later, rfl⟩ := within
  obtain ⟨before, middle, behind, split, alone, place⟩ := lexes.part some
  rw [place, Nat.zero_add, split, slice_append]
  have marks := slice_marks before middle behind (alone.nonempty some)
  rwa [← split, String.ofList_toList] at marks

theorem Lexes.span_marks {source : String} {lexemes : List Lexeme}
    (lexes : Lexes 0 source.toList lexemes) {lexeme : Lexeme} (member : lexeme ∈ lexemes) :
    lexeme.span.Marks source := by
  obtain ⟨earlier, later, split⟩ := List.append_of_mem member
  have within : [lexeme] <:+: lexemes := ⟨earlier, later, by simp [split]⟩
  rw [← lexes.extent_lexeme member]
  exact lexes.extent_marks within (List.cons_ne_nil lexeme [])

/-- Every span of a program marks a part of the source that is not empty and quotes it. The spans of
the nodes below a node lie inside its own and follow one another in the order of the source, and so
do the spans of the declarations. -/
theorem spans_nest_and_advance {source : String} {declarations : List Declaration}
    (parsed : parse source = .ok declarations) :
    (∀ declaration ∈ declarations, ∀ node, declaration.root.PartOf node →
      node.span.Marks source ∧ (∀ child ∈ node.children, node.Encloses child) ∧
        node.children.Pairwise Node.Precedes) ∧
      (declarations.map Declaration.root).Pairwise Node.Precedes := by
  obtain ⟨lexemes, lexes, program⟩ := parse_eq_ok_iff.mp parsed
  have placed : Placed source.toList lexemes := fun lexeme member => lexes.extent_lexeme member
  have roots := program.laidOut placed
  refine ⟨fun declaration member node part => ?_, roots.pairwise_precedes lexes.ordered⟩
  obtain ⟨word, within, spells⟩ :=
    part.exists_part placed (roots.exists_part (List.mem_map_of_mem member))
  have below := spells.children_laidOut (placed.part within)
  have ordered := lexes.ordered.part within
  refine ⟨?_, fun child isChild => ?_, below.pairwise_precedes ordered⟩
  · rw [spells.span_eq]
    exact lexes.extent_marks within spells.ne_nil
  · rw [Node.Encloses, spells.span_eq]
    exact below.enclosed ordered isChild

/-- The call in `#é\nf (a)`. The comment in front of it takes four bytes. -/
def callBehindComment : Expr :=
  .call ⟨"f", ⟨4, 5, "f"⟩⟩ [.var ⟨"a", ⟨7, 8, "a"⟩⟩] ⟨4, 9, "f (a)"⟩

theorem call_behind_comment_is_placed :
    parse "#é\nf (a)" = .ok [.expression callBehindComment] ∧
      Span.Marks "#é\nf (a)" ⟨7, 8, "a"⟩ ∧
      (Node.expr callBehindComment).Encloses (.expr (.var ⟨"a", ⟨7, 8, "a"⟩⟩)) ∧
      (Node.name ⟨"f", ⟨4, 5, "f"⟩⟩).Precedes (.expr (.var ⟨"a", ⟨7, 8, "a"⟩⟩)) := by
  have read : Lexeme.ofSource "#é\nf (a)".toList = .ok [⟨.identifier "f", ⟨4, 5, "f"⟩⟩,
      ⟨.symbol .leftParen, ⟨6, 7, "("⟩⟩, ⟨.identifier "a", ⟨7, 8, "a"⟩⟩,
      ⟨.symbol .rightParen, ⟨8, 9, ")"⟩⟩] := by
    rw [Lexeme.ofSource_eq_within]
    rfl
  have parsed : parse "#é\nf (a)" = .ok [.expression callBehindComment] := by
    rw [parse, read]
    rfl
  have isChild : Node.expr (.var ⟨"a", ⟨7, 8, "a"⟩⟩) ∈ (Node.expr callBehindComment).children :=
    .tail _ (.head _)
  have placed := (spans_nest_and_advance parsed).1 _ (.head _)
  have root := placed _ .root
  have argument := placed _ (.child .root isChild)
  exact ⟨parsed, argument.1, root.2.1 _ isChild,
    (List.pairwise_cons.mp root.2.2).1 _ (.head _)⟩

end FrameLang
