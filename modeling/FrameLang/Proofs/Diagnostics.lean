import FrameLang.Proofs.LongestMatch
import FrameLang.Proofs.Provenance

/-!
Diagnostics point into the source. Results of an accepted program have the spans of its nodes, which
mark parts of the source; a source that is refused is refused for a character, a lexeme, its end, or
the header of a binding that declares nothing.
-/

set_option autoImplicit false

namespace FrameLang

open Source

/-!
## Nodes of an accepted program
-/

/-- Each node of a program is spelled by a word of the source. -/
theorem exists_word_of_node {source : String} {declarations : List Declaration}
    (parsed : parse source = .ok declarations) {node : Node} (member : node ∈ nodesOf declarations) :
    ∃ lexemes word, Lexes 0 source.toList lexemes ∧ word <:+: lexemes ∧
      Spells source.toList word node := by
  obtain ⟨lexemes, lexes, program⟩ := parse_eq_ok_iff.mp parsed
  obtain ⟨declaration, listed, part⟩ := member
  have placed : Placed source.toList lexemes := fun lexeme member => lexes.extent_lexeme member
  have root := (program.laidOut placed).exists_part (List.mem_map_of_mem listed)
  obtain ⟨word, within, spells⟩ := part.exists_part placed root
  exact ⟨lexemes, word, lexes, within, spells⟩

theorem marks_of_node {source : String} {declarations : List Declaration}
    (parsed : parse source = .ok declarations) {node : Node} (member : node ∈ nodesOf declarations) :
    node.span.Marks source := by
  obtain ⟨lexemes, word, lexes, within, spells⟩ := exists_word_of_node parsed member
  rw [spells.span_eq]
  exact lexes.extent_marks within spells.ne_nil

mutual

/-- The name of a variable is a lexeme of its word, inside any number of parentheses. -/
theorem DerivesAtom.var_mem {source : List Char} {word : List Lexeme} {expr : Expr} {name : Name}
    (derives : DerivesAtom source word expr) (isVar : expr = .var name) : name.lexeme ∈ word := by
  match derives with
  | .number value => cases isVar
  | .name name =>
      cases isVar
      exact List.mem_cons_self
  | .parens inner =>
      have member := DerivesExpr.var_mem inner isVar
      exact List.mem_cons_of_mem _ (List.mem_append_left _ member)

theorem DerivesApplication.var_mem {source : List Char} {word : List Lexeme} {expr : Expr}
    {name : Name} (derives : DerivesApplication source word expr) (isVar : expr = .var name) :
    name.lexeme ∈ word := by
  match derives with
  | .callEmpty _ => cases isVar
  | .call _ _ _ => cases isVar
  | .atom inner => exact DerivesAtom.var_mem inner isVar

theorem DerivesAdditive.var_mem {source : List Char} {word : List Lexeme} {expr : Expr} {name : Name}
    (derives : DerivesAdditive source word expr) (isVar : expr = .var name) :
    name.lexeme ∈ word := by
  match derives with
  | .operand inner => exact DerivesApplication.var_mem inner isVar
  | .operation _ _ _ => cases isVar

theorem DerivesExpr.var_mem {source : List Char} {word : List Lexeme} {expr : Expr} {name : Name}
    (derives : DerivesExpr source word expr) (isVar : expr = .var name) : name.lexeme ∈ word := by
  match derives with
  | .letIn _ _ _ _ => cases isVar
  | .lambda _ _ _ _ _ => cases isVar
  | .ifThenElse _ _ _ _ => cases isVar
  | .additive inner => exact DerivesAdditive.var_mem inner isVar

end

theorem Token.Spelled.identifier_text {name : String} {text : List Char}
    (spelled : Spelled (.identifier name) text) : String.ofList text = name := by
  cases spelled
  rfl

/-- The text of an identifier is its name. -/
theorem Lexes.identifier_text {offset : Nat} {chars : List Char} {lexemes : List Lexeme}
    (lexes : Lexes offset chars lexemes) {name : Name} (member : name.lexeme ∈ lexemes) :
    name.span.text = name.text := by
  induction lexes with
  | done => cases member
  | @token _ _ _ _ _ text rest token lexemes _ found _ _ _ _ ih =>
      rcases List.mem_cons.mp member with same | later
      · obtain ⟨token, place⟩ := Lexeme.mk.inj same
        have spelled := Token.spelled_of_scan? found
        rw [List.take_left, ← token] at spelled
        rw [place]
        exact spelled.identifier_text
      · exact ih later

theorem var_text {source : String} {declarations : List Declaration}
    (parsed : parse source = .ok declarations) {name : Name}
    (member : .expr (.var name) ∈ nodesOf declarations) : name.span.text = name.text := by
  obtain ⟨lexemes, word, lexes, within, spells⟩ := exists_word_of_node parsed member
  cases spells with
  | expr derives _ => exact lexes.identifier_text (within.subset (derives.var_mem rfl))

/-!
## Errors of an accepted program
-/

/-- The source has the header as a row of lexemes, and the header has its extent as span. -/
def Parser.Header.StandsIn (source : String) (header : Parser.Header) : Prop :=
  ∃ lexemes word, Lexeme.ofSource source.toList = .ok lexemes ∧ word <:+: lexemes ∧
    DerivesHeader source.toList word header

/-- The definition of a function from its `let` up to and including its body. -/
def Function.header (function : Function) : Parser.Header :=
  ⟨function.name, some function.parameters, function.body, function.span⟩

/-- The error marks a part of the source, and, by its kind, the part of the program it is about. -/
structure Error.PointsInto (source : String) (declarations : List Declaration) (error : Error) :
    Prop where
  marks : error.span.Marks source
  unbound : error.kind = .unboundVariable → error.reason = "no variable with name '" ++
    error.span.text ++ "'"
  undefined : error.kind = .undefinedFunction → ∃ name arguments span,
    .expr (.call name arguments span) ∈ nodesOf declarations ∧
      error.cause = .unknownFunction name.text arguments.length ∧ error.span = name.span
  tooDeep : error.kind = .recursionLimit → ∃ name arguments span,
    .expr (.call name arguments span) ∈ nodesOf declarations ∧ error.span = span
  taken : error.kind = .shadowing →
    (∃ name value body span, .expr (.letIn name value body span) ∈ nodesOf declarations ∧
      error.span = name.span) ∨
    (∃ function : Function, .function function ∈ nodesOf declarations ∧
      ∃ parameter ∈ function.parameters, error.span = parameter.span) ∨
    ∃ function : Function, .function function ∈ nodesOf declarations ∧
      function.header.StandsIn source ∧ error.span = function.header.span

theorem header_of_function {source : String} {declarations : List Declaration}
    (parsed : parse source = .ok declarations) {function : Function}
    (member : .function function ∈ nodesOf declarations) : function.header.StandsIn source := by
  obtain ⟨lexemes, word, lexes, within, spells⟩ := exists_word_of_node parsed member
  cases spells with
  | function derivesRow derives whole =>
      exact ⟨lexemes, word, Lexeme.ofCharsFrom_eq_ok_iff.mpr lexes, within,
        .declaring derivesRow derives whole⟩

theorem Function.parameter_mem_children {function : Function} {parameter : Name}
    (member : parameter ∈ function.parameters) :
    .name parameter ∈ (Node.function function).children := by
  obtain ⟨name, parameters, body, isLambda, span⟩ := function
  exact .tail _ (List.mem_append_left _ (List.mem_map_of_mem member))

/-- Each cause goes with the span of one node. -/
theorem Error.StemsFrom.exists_node {nodes : Set Node} (closed : DownClosed nodes) {error : Error}
    (stems : error.StemsFrom nodes) : ∃ node ∈ nodes, error.span = node.span := by
  cases stems with
  | unknownVariable member => exact ⟨_, member, rfl⟩
  | unknownFunction member => exact ⟨_, closed _ member _ (.head _), rfl⟩
  | argumentCount member => exact ⟨_, member, rfl⟩
  | depthExceeded member => exact ⟨_, member, rfl⟩
  | letTaken member => exact ⟨_, closed _ member _ (.head _), rfl⟩
  | parameterTaken member parameter =>
      exact ⟨_, closed _ member _ (Function.parameter_mem_children parameter), rfl⟩
  | functionTaken member => exact ⟨_, member, rfl⟩
  | lambdaDeclared member => exact ⟨_, member, rfl⟩

theorem Error.StemsFrom.pointsInto {source : String} {declarations : List Declaration}
    (parsed : parse source = .ok declarations) {error : Error}
    (stems : error.StemsFrom (nodesOf declarations)) : error.PointsInto source declarations where
  marks := by
    obtain ⟨node, member, same⟩ := stems.exists_node (nodesOf_downClosed declarations)
    rw [same]
    exact marks_of_node parsed member
  unbound := by
    intro kind
    cases stems with
    | unknownVariable member =>
        rw [var_text parsed member]
        rfl
    | _ => cases kind
  undefined := by
    intro kind
    cases stems with
    | unknownFunction member => exact ⟨_, _, _, member, rfl, rfl⟩
    | _ => cases kind
  tooDeep := by
    intro kind
    cases stems with
    | depthExceeded member => exact ⟨_, _, _, member, rfl⟩
    | _ => cases kind
  taken := by
    intro kind
    cases stems with
    | letTaken member => exact .inl ⟨_, _, _, _, member, rfl⟩
    | parameterTaken member parameter => exact .inr (.inl ⟨_, member, _, parameter, rfl⟩)
    | functionTaken member =>
        exact .inr (.inr ⟨_, member, header_of_function parsed member, rfl⟩)
    | _ => cases kind

/-!
## Sources that are refused
-/

/-- What a refusal is about: a character that starts no token, a token that cannot stand where it
does, the end of the source, or a whole header that declares nothing. -/
inductive Rejection (source : String) (error : Error) : Prop where
  | character (c : Char) :
      error.kind = .syntaxError → error.span.Marks source → error.span.text = String.singleton c →
      error.reason = "unrecognized token '" ++ error.span.text ++ "'" → Rejection source error
  | token {lexemes : List Lexeme} {lexeme : Lexeme} (wanted : Expectation) :
      error.kind = .syntaxError → Lexeme.ofSource source.toList = .ok lexemes →
      lexeme ∈ lexemes → error.span = lexeme.span → error.span.Marks source →
      error.reason = "expected " ++ wanted.description ++ ", found '" ++ error.span.text ++ "'" →
      Rejection source error
  | endOfInput (wanted : Expectation) :
      error.kind = .syntaxError →
      error.span = ⟨source.utf8ByteSize, source.utf8ByteSize, ""⟩ →
      error.reason = "expected " ++ wanted.description ++ ", found end of input" →
      Rejection source error
  | header (header : Parser.Header) :
      error.kind = .malformedProgram → header.StandsIn source → header.parameters = none →
      error.span = header.span → error.span.Marks source → Rejection source error

theorem Rejection.text_eq {source : String} {error : Error} (rejection : Rejection source error) :
    error.span.text =
      String.Pos.Raw.extract source ⟨error.span.start⟩ ⟨error.span.stop⟩ := by
  cases rejection with
  | character _ _ marks _ _ => exact marks.text_eq
  | token _ _ _ _ _ marks _ => exact marks.text_eq
  | endOfInput _ _ place _ =>
      rw [place]
      simp [String.Pos.Raw.extract]
  | header _ _ _ _ _ marks => exact marks.text_eq

namespace Parser

theorem Complaint.of_suffix {source : List Char} {part lexemes : List Lexeme} {error : Error}
    (complaint : Complaint source part error) (suffix : part <:+ lexemes) :
    Complaint source lexemes error := by
  obtain ⟨wanted, rest, behind, rfl⟩ := complaint
  exact ⟨wanted, rest, behind.trans suffix, rfl⟩

theorem declarationsWithin_refuses {source : List Char} {count : Nat} {lexemes : List Lexeme}
    {error : Error} (refused : declarationsWithin source count lexemes = .error error) :
    Complaint source lexemes error ∨
      ∃ rest, rest <:+ lexemes ∧ DeclaresNothing source rest error := by
  induction count generalizing lexemes with
  | zero => cases lexemes <;> cases refused
  | succ count ih =>
      cases lexemes with
      | nil => cases refused
      | cons lexeme lexemes =>
          rcases except_bind_eq_error_iff.mp refused with first | ⟨⟨first, rest⟩, read, later⟩
          · rcases declaration_refuses first with complaint | nothing
            · exact .inl complaint
            · exact .inr ⟨_, List.suffix_refl _, nothing⟩
          -- The first declaration is accepted, so the error is about what stands behind it.
          obtain ⟨word, whole, _⟩ := declaration_accepts read
          have behind : rest <:+ lexeme :: lexemes := ⟨word, whole.symm⟩
          dsimp only at later
          split at later
          · cases later
          next semicolon more =>
            have further : more <:+ lexeme :: lexemes := (List.suffix_cons _ more).trans behind
            rcases except_bind_eq_error_iff.mp later with others | ⟨_, _, made⟩
            · rcases ih others with complaint | ⟨part, suffix, nothing⟩
              · exact .inl (complaint.of_suffix further)
              · exact .inr ⟨part, suffix.trans further, nothing⟩
            · cases made
          · cases later
            exact .inl ⟨.separator, rest, behind, rfl⟩

end Parser

theorem rejection_of_complaint {source : String} {lexemes : List Lexeme} {error : Error}
    (read : Lexeme.ofSource source.toList = .ok lexemes)
    (complaint : Parser.Complaint source.toList lexemes error) : Rejection source error := by
  have lexes := Lexeme.ofCharsFrom_eq_ok_iff.mp read
  obtain ⟨wanted, rest, suffix, rfl⟩ := complaint
  cases rest with
  | nil =>
      apply Rejection.endOfInput wanted rfl
      · rw [← byteLength_toList]
        rfl
      · rfl
  | cons lexeme rest =>
      have member : lexeme ∈ lexemes := suffix.subset List.mem_cons_self
      exact .token wanted rfl read member rfl (lexes.span_marks member) rfl

theorem rejection_of_declaresNothing {source : String} {lexemes rest : List Lexeme} {error : Error}
    (read : Lexeme.ofSource source.toList = .ok lexemes) (suffix : rest <:+ lexemes)
    (nothing : Parser.DeclaresNothing source.toList rest error) : Rejection source error := by
  have lexes := Lexeme.ofCharsFrom_eq_ok_iff.mp read
  obtain ⟨derives, whole, _⟩ := nothing
  have within := (List.prefix_append _ _).isInfix.trans suffix.isInfix
  have some := whole ▸ List.cons_ne_nil _ _
  have stands : Parser.Header.StandsIn source ⟨_, none, _, _⟩ :=
    ⟨lexemes, _, read, within, .plain derives whole⟩
  exact .header _ rfl stands rfl rfl (lexes.extent_marks within some)

theorem rejection_of_parse {source : String} {error : Error} (refused : parse source = .error error) :
    Rejection source error := by
  rcases except_bind_eq_error_iff.mp refused with unread | ⟨lexemes, read, later⟩
  · obtain ⟨before, c, rest, _, split, _, _, rfl⟩ :=
      (Lexeme.ofCharsFrom_eq_iff.mp unread).first_stuck
    have marks := slice_marks before [c] rest (List.cons_ne_nil c [])
    have whole : before ++ [c] ++ rest = source.toList := by
      rw [split, List.append_assoc, List.singleton_append]
    rw [whole, String.ofList_toList] at marks
    rw [Nat.zero_add]
    exact .character c rfl marks rfl rfl
  · rcases Parser.declarationsWithin_refuses later with complaint | ⟨rest, suffix, nothing⟩
    · exact rejection_of_complaint read complaint
    · exact rejection_of_declaresNothing read suffix nothing

/-- What comes of an accepted program points into its source: a value has the span of a part of it,
and an error has that of the part it is about. A source that is refused is refused for a part of it
that the reason quotes, or for what is missing at its end. -/
theorem diagnostics_point_into_source (source : String) :
    (∀ declarations, parse source = .ok declarations → ∀ (config : Config),
      ∀ answer ∈ (Program.ofConfig config declarations).drain.result,
        (∀ value, answer = .ok (some value) → value.span.Marks source) ∧
        ∀ error, answer = .error error → error.PointsInto source declarations) ∧
    ∀ error, parse source = .error error →
      error.span.text =
        String.Pos.Raw.extract source ⟨error.span.start⟩ ⟨error.span.stop⟩ ∧
      Rejection source error := by
  constructor
  · intro declarations parsed config answer listed
    have stems := Program.drain_stems config declarations answer listed
    constructor
    · rintro value rfl
      obtain ⟨expr, member, same⟩ := stems value rfl
      rw [same]
      exact marks_of_node parsed member
    · rintro error rfl
      exact Error.StemsFrom.pointsInto parsed stems
  · intro error refused
    have rejection := rejection_of_parse refused
    exact ⟨rejection.text_eq, rejection⟩

/-- What comes of the one declaration in the source `y`. -/
def unknownY : Error := ⟨.unknownVariable "y", ⟨0, 1, "y"⟩⟩

/-- What is wrong with the source `let x = y`. -/
def bareX : Error := ⟨.bindingWithoutBody "x", ⟨0, 9, "let x = y"⟩⟩

theorem unknown_name_and_bare_binding_are_pointed_at :
    parse "y" = .ok [.expression (.var ⟨"y", ⟨0, 1, "y"⟩⟩)] ∧
      unknownY.PointsInto "y" [.expression (.var ⟨"y", ⟨0, 1, "y"⟩⟩)] ∧
      parse "let x = y" = .error bareX ∧ Rejection "let x = y" bareX := by
  have accepted : parse "y" = .ok [.expression (.var ⟨"y", ⟨0, 1, "y"⟩⟩)] := by
    rw [parse, Lexeme.ofSource_eq_within]
    rfl
  have read : Lexeme.ofSource "let x = y".toList = .ok
      [⟨.symbol .letWord, ⟨0, 3, "let"⟩⟩, ⟨.identifier "x", ⟨4, 5, "x"⟩⟩,
        ⟨.symbol .assign, ⟨6, 7, "="⟩⟩, ⟨.identifier "y", ⟨8, 9, "y"⟩⟩] := by
    rw [Lexeme.ofSource_eq_within]
    rfl
  have refused : parse "let x = y" = .error bareX := by
    rw [parse, read]
    rfl
  have listed : Except.error unknownY ∈
      (Program.ofConfig {} [.expression (.var ⟨"y", ⟨0, 1, "y"⟩⟩)]).drain.result := .head _
  have points := (diagnostics_point_into_source "y").1 _ accepted {} _ listed
  have rejection := (diagnostics_point_into_source "let x = y").2 bareX refused
  exact ⟨accepted, points.2 unknownY rfl, refused, rejection.2⟩

end FrameLang
