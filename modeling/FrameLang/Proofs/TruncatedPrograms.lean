import FrameLang.Proofs.Cutting
import FrameLang.Proofs.Placement
import FrameLang.Proofs.Programs
import FrameLang.Proofs.Truncation

/-!
Programs that are cut off. Behind whichever lexeme a program ends too early, what is left of it is a
program too, or a top-level binding without its body, or the parser asks for more at the end. Only
an opening parenthesis that has lost its partner is blamed itself.
-/

set_option autoImplicit false

namespace FrameLang

namespace Parser

variable {source cut : List Char}

/-!
## Declarations
-/

/-- The error reports a top-level binding that ends in front of its body. It points from the start
of the binding to the end of the row. -/
inductive Unfinished (cut : List Char) (front : List Lexeme) : Declaration → Error → Prop where
  | binding {name : Name} {value body : Expr} {span : Span} :
      span.start = (extent cut front).start →
      Unfinished cut front (.expression (.letIn name value body span))
        ⟨.bindingWithoutBody name.text, extent cut front⟩

/-- The rest of a declaration that starts with `lexemes`, behind the header of a binding. -/
def behindHeader (source : List Char) (lexemes : List Lexeme) (header : Header) :
    Parser Declaration := fun rest =>
  match rest with
  | ⟨.symbol .inWord, _⟩ :: _ => do
    let (expr, rest) ← bindingBody source (expression source) lexemes header rest
    return (.expression expr, rest)
  | _ =>
    match header.parameters with
    | some parameters =>
      .ok (.function ⟨header.name, parameters, header.value, false, header.span⟩, rest)
    | none => .error ⟨.bindingWithoutBody header.name.text, header.span⟩

theorem declaration_let (source : List Char) (letWord : Span) (row : List Lexeme) :
    declaration source (Symbol.letWord.lexeme letWord :: row) =
      (header source (expression source) (Symbol.letWord.lexeme letWord :: row) >>= fun read =>
        behindHeader source (Symbol.letWord.lexeme letWord :: row) read.1 read.2) := by
  rfl

theorem behindHeader_of_noBody {source : List Char} {lexemes rest : List Lexeme} {header : Header}
    (noBody : ∀ inWord more, rest ≠ Symbol.inWord.lexeme inWord :: more) :
    behindHeader source lexemes header rest =
      match header.parameters with
      | some parameters =>
        .ok (.function ⟨header.name, parameters, header.value, false, header.span⟩, rest)
      | none => .error ⟨.bindingWithoutBody header.name.text, header.span⟩ := by
  unfold behindHeader
  split
  next inWord more => exact absurd rfl (noBody inWord more)
  next => rfl

theorem behindHeader_keepsUp {source cut : List Char} (lexemes cutLexemes : List Lexeme)
    {header cutHeader : Header} (same : header.Same cutHeader) {front behind : List Lexeme}
    (some : front ≠ []) :
    KeepsUp cut Whatever front behind (behindHeader source lexemes header (front ++ behind))
      (behindHeader cut cutLexemes cutHeader front) := by
  obtain ⟨lexeme, row, rfl⟩ := List.exists_cons_of_ne_nil some
  by_cases body : ∃ inWord, lexeme = Symbol.inWord.lexeme inWord
  · obtain ⟨inWord, rfl⟩ := body
    have keep := expression_nestedKeepsUp source cut (Symbol.inWord.lexeme inWord :: row).length
    refine (bindingBody_keepsUp keep lexemes cutLexemes (Nat.le_refl _)).bind ?_
    intro _ _ rest more _ _ _ _
    exact .ok trivial
  · have noBody (others : List Lexeme) (inWord : Span) (more : List Lexeme) :
        lexeme :: others ≠ Symbol.inWord.lexeme inWord :: more :=
      fun equal => body ⟨inWord, (List.cons.inj equal).1⟩
    rw [List.cons_append, behindHeader_of_noBody (noBody (row ++ behind)),
      behindHeader_of_noBody (noBody row), same.2]
    cases cutHeader.parameters with
    | none => exact .of_error
    | some parameters => exact .ok trivial

theorem bindingBody_plain {source : List Char} {nested : Parser Expr}
    (follows : Follows source (DerivesExpr source) nested) {lexemes rest more : List Lexeme}
    {header : Header} (plain : header.parameters = none) {expr : Expr}
    (accepted : bindingBody source nested lexemes header rest = .ok (expr, more)) :
    more.length ≤ rest.length ∧
      ∃ body, expr = .letIn header.name header.value body (between source lexemes more) := by
  obtain ⟨⟨_, afterIn⟩, readIn, accepted⟩ := except_bind_eq_ok_iff.mp accepted
  obtain ⟨⟨body, afterBody⟩, readBody, accepted⟩ := except_bind_eq_ok_iff.mp accepted
  have first := (expect_follows .inWord .inWord).length_le readIn
  have second := follows.length_le readBody
  dsimp only at accepted
  rw [plain] at accepted
  cases accepted
  exact ⟨Nat.le_trans second first, body, rfl⟩

theorem between_start (source cut : List Char) {front behind rest : List Lexeme} (some : front ≠ [])
    (shorter : rest.length < (front ++ behind).length) :
    (between source (front ++ behind) rest).start = (extent cut front).start := by
  obtain ⟨lexeme, row, rfl⟩ := List.exists_cons_of_ne_nil some
  obtain ⟨count, same⟩ : ∃ count, (lexeme :: row ++ behind).length - rest.length = count + 1 :=
    ⟨_, (Nat.succ_pred_eq_of_pos (Nat.sub_pos_of_lt shorter)).symm⟩
  rw [between, same]
  rfl

theorem KeepsUp.same_of_ok {α : Type} {Same : α → α → Prop} {front behind rest ahead : List Lexeme}
    {whole cutWhole : Except Error (α × List Lexeme)} {value read : α}
    (keepsUp : KeepsUp cut Same front behind whole cutWhole) (accepted : whole = .ok (value, rest))
    (cutAccepted : cutWhole = .ok (read, ahead)) : Same value read := by
  have stops := keepsUp value rest accepted
  rw [cutAccepted] at stops
  cases stops with
  | level same _ _ => exact same
  | complete same => exact same

/-- The front ends with the header of a plain binding, and the whole row goes on with its body. -/
theorem unfinished_of_plain {source cut : List Char} {front behind rest : List Lexeme}
    {whole : Declaration} {cutHeader : Header}
    (headers : KeepsUp cut Header.Same front behind
      (header source (expression source) (front ++ behind)) (header cut (expression cut) front))
    (readHeader : header cut (expression cut) front = .ok (cutHeader, []))
    (plain : cutHeader.parameters = none)
    (accepted : (header source (expression source) (front ++ behind) >>= fun read =>
      behindHeader source (front ++ behind) read.1 read.2) = .ok (whole, rest)) :
    Unfinished cut front whole ⟨.bindingWithoutBody cutHeader.name.text, cutHeader.span⟩ := by
  obtain ⟨⟨header, afterHeader⟩, readWhole, later⟩ := except_bind_eq_ok_iff.mp accepted
  obtain ⟨sameName, sameParameters⟩ := headers.same_of_ok readWhole readHeader
  rw [plain] at sameParameters
  obtain ⟨word, split, derives⟩ :=
    (header_follows (expression_follows cut) front).accepts readHeader
  rw [List.append_nil] at split
  rw [← split] at derives
  dsimp only at later
  by_cases body : ∃ inWord more, afterHeader = Symbol.inWord.lexeme inWord :: more
  · obtain ⟨inWord, more, rfl⟩ := body
    obtain ⟨⟨expr, afterBody⟩, readBody, later⟩ := except_bind_eq_ok_iff.mp later
    cases later
    have shorter := header_shortens (expression_follows source) readWhole
    obtain ⟨noLonger, body, rfl⟩ :=
      bindingBody_plain (expression_follows source) sameParameters readBody
    have some : front ≠ [] := by
      rintro rfl
      cases readHeader
    have span : cutHeader.span = extent cut front := by
      cases derives
      rfl
    rw [span, ← sameName]
    exact .binding (between_start source cut some (Nat.lt_of_le_of_lt noLonger shorter))
  · rw [behindHeader_of_noBody fun inWord more same => body ⟨inWord, more, same⟩,
      sameParameters] at later
    cases later

theorem declaration_let_keepsUp (source cut : List Char) {letWord : Span}
    {row front behind rest : List Lexeme} (starts : front = Symbol.letWord.lexeme letWord :: row)
    {whole : Declaration} (accepted : declaration source (front ++ behind) = .ok (whole, rest)) :
    Stops cut Whatever front behind whole rest (declaration cut front) ∨
      ∃ error, Unfinished cut front whole error ∧ declaration cut front = .error error := by
  have read : declaration cut front = (header cut (expression cut) front >>= fun read =>
      behindHeader cut front read.1 read.2) := starts ▸ declaration_let cut letWord row
  have readWhole : declaration source (front ++ behind) =
      (header source (expression source) (front ++ behind) >>= fun read =>
        behindHeader source (front ++ behind) read.1 read.2) :=
    starts ▸ declaration_let source letWord (row ++ behind)
  rw [readWhole] at accepted
  rw [read]
  have keep := expression_nestedKeepsUp source cut front.length
  have headers : KeepsUp cut Header.Same front behind
      (header source (expression source) (front ++ behind)) (header cut (expression cut) front) :=
    header_keepsUp keep (Nat.le_succ _)
  by_cases ended : ∃ cutHeader, header cut (expression cut) front = .ok (cutHeader, []) ∧
      cutHeader.parameters = none
  · obtain ⟨cutHeader, readHeader, plain⟩ := ended
    refine .inr ⟨⟨.bindingWithoutBody cutHeader.name.text, cutHeader.span⟩, ?_, ?_⟩
    · exact unfinished_of_plain headers readHeader plain accepted
    · rw [readHeader, except_ok_bind, behindHeader_of_noBody, plain]
      rintro _ _ ⟨⟩
  refine .inl (headers.bind ?_ whole rest accepted)
  intro header cutHeader ahead more _ readHeader _ same
  by_cases some : ahead = []
  · subst some
    cases declared : cutHeader.parameters with
    | none => exact absurd ⟨cutHeader, readHeader, declared⟩ ended
    | some parameters =>
        have declares : behindHeader cut front cutHeader [] = .ok (.function
            ⟨cutHeader.name, parameters, cutHeader.value, false, cutHeader.span⟩, []) := by
          rw [behindHeader, declared]
          rintro _ _ ⟨⟩
        exact declares ▸ .complete
  · exact behindHeader_keepsUp _ _ same some

theorem declaration_keepsUp (source cut : List Char) {front behind rest : List Lexeme}
    {whole : Declaration} (accepted : declaration source (front ++ behind) = .ok (whole, rest)) :
    Stops cut Whatever front behind whole rest (declaration cut front) ∨
      ∃ error, Unfinished cut front whole error ∧ declaration cut front = .error error := by
  cases front with
  | nil => exact .inl (.missing .expression)
  | cons lexeme row =>
      have keep := expression_nestedKeepsUp source cut (lexeme :: row).length
      have asExpression : KeepsUp cut Whatever (lexeme :: row) behind
          (do
            let (expr, rest) ← expression source (lexeme :: row ++ behind)
            return (Declaration.expression expr, rest))
          (do
            let (expr, rest) ← expression cut (lexeme :: row)
            return (Declaration.expression expr, rest)) := by
        refine (keep.keepsUp _ behind (Nat.le_refl _)).bind ?_
        intro _ _ ahead more _ _ _ _
        exact .ok trivial
      obtain ⟨token, span⟩ := lexeme
      cases token with
      | number | identifier => exact .inl (asExpression whole rest accepted)
      | symbol symbol =>
          by_cases binds : symbol = .letWord
          · subst binds
            exact declaration_let_keepsUp source cut rfl accepted
          · refine .inl ?_
            cases symbol with
            | letWord => exact absurd rfl binds
            | _ => exact asExpression whole rest accepted

/-!
## Programs
-/

/-- How reading the front of a row comes out where the whole row makes up declarations. -/
inductive Truncated (cut : List Char) (front : List Lexeme) (declarations : List Declaration) :
    Except Error (List Declaration) → Prop where
  | accepted {read} : Truncated cut front declarations (.ok read)
  | missing (wanted : Expectation) :
      Truncated cut front declarations (.error ⟨.unexpected wanted none, Source.endSpan cut⟩)
  | unfinished {row declaration error} :
      declaration ∈ declarations → row <:+ front → row ≠ [] → Unfinished cut row declaration error →
      Truncated cut front declarations (.error error)
  | opened {left} :
      EndsOpened front left →
      Truncated cut front declarations (.error ⟨.unexpected .assign (some left.text), left⟩)

theorem Truncated.of_suffix {row front : List Lexeme} {declarations : List Declaration}
    {result : Except Error (List Declaration)} (truncated : Truncated cut row declarations result)
    (suffix : row <:+ front) : Truncated cut front declarations result := by
  cases truncated with
  | accepted => exact .accepted
  | missing wanted => exact .missing wanted
  | unfinished member shorter some unfinished =>
      exact .unfinished member (shorter.trans suffix) some unfinished
  | opened opened => exact .opened (opened.of_suffix suffix)

theorem Truncated.cons {front : List Lexeme} {first read : Declaration} {others : List Declaration}
    {result : Except Error (List Declaration)} (truncated : Truncated cut front others result) :
    Truncated cut front (first :: others) (result >>= fun more => .ok (read :: more)) := by
  cases truncated with
  | accepted => exact .accepted
  | missing wanted => exact .missing wanted
  | unfinished member suffix some unfinished =>
      exact .unfinished (List.mem_cons_of_mem first member) suffix some unfinished
  | opened opened => exact .opened opened

/-- Reading the rest of a program behind its first declaration. -/
def behindDeclaration (source : List Char) (count : Nat) (first : Declaration) :
    List Lexeme → Except Error (List Declaration)
  | [] => .ok [first]
  | ⟨.symbol .semicolon, _⟩ :: rest =>
    declarationsWithin source count rest >>= fun more => .ok (first :: more)
  | rest => .error (unexpected source .separator rest)

theorem declarationsWithin_cons (source : List Char) (count : Nat) (lexeme : Lexeme)
    (row : List Lexeme) :
    declarationsWithin source (count + 1) (lexeme :: row) =
      (declaration source (lexeme :: row) >>= fun read =>
        behindDeclaration source count read.1 read.2) := by
  rfl

theorem behindDeclaration_ok {count : Nat} {first : Declaration} {rest : List Lexeme}
    {declarations : List Declaration}
    (accepted : behindDeclaration source count first rest = .ok declarations) :
    ∃ others, declarations = first :: others ∧ (rest = [] ∨
      ∃ semicolon more, rest = Symbol.semicolon.lexeme semicolon :: more ∧
        declarationsWithin source count more = .ok others) := by
  unfold behindDeclaration at accepted
  split at accepted
  · cases accepted
    exact ⟨[], rfl, .inl rfl⟩
  next semicolon more =>
    obtain ⟨others, read, same⟩ := except_bind_eq_ok_iff.mp accepted
    cases same
    exact ⟨others, rfl, .inr ⟨semicolon, more, rfl, read⟩⟩
  · cases accepted

/-- Behind a declaration that both parsers have read, the front goes on with the same separator. -/
theorem behindDeclaration_truncated {count cutCount : Nat} {first read : Declaration} {next : Lexeme}
    {ahead behind : List Lexeme} {declarations : List Declaration}
    (accepted : behindDeclaration source count first (next :: ahead ++ behind) = .ok declarations)
    (rest : ∀ others, declarationsWithin source count (ahead ++ behind) = .ok others →
      Truncated cut ahead others (declarationsWithin cut cutCount ahead)) :
    Truncated cut (next :: ahead) declarations
      (behindDeclaration cut cutCount read (next :: ahead)) := by
  obtain ⟨others, rfl, nothing | ⟨semicolon, more, same, readMore⟩⟩ := behindDeclaration_ok accepted
  · cases nothing
  · obtain ⟨rfl, rfl⟩ := List.cons.inj same
    exact (rest others readMore).cons.of_suffix (List.suffix_cons _ ahead)

theorem declarationsWithin_truncated (source cut : List Char) {count cutCount : Nat}
    {front behind : List Lexeme} {declarations : List Declaration}
    (enough : (front ++ behind).length ≤ count) (cutEnough : front.length ≤ cutCount)
    (accepted : declarationsWithin source count (front ++ behind) = .ok declarations) :
    Truncated cut front declarations (declarationsWithin cut cutCount front) := by
  induction count generalizing cutCount front declarations with
  | zero =>
      obtain ⟨rfl, -⟩ := List.append_eq_nil_iff.mp
        (List.eq_nil_of_length_eq_zero (Nat.le_zero.mp enough))
      cases cutCount <;> exact .accepted
  | succ count ih =>
      cases front with
      | nil => cases cutCount <;> exact .accepted
      | cons lexeme row =>
          cases cutCount with
          | zero => cases cutEnough
          | succ cutCount =>
              rw [List.cons_append, declarationsWithin_cons] at accepted
              rw [declarationsWithin_cons]
              obtain ⟨⟨first, rest⟩, readFirst, later⟩ := except_bind_eq_ok_iff.mp accepted
              change declaration source (lexeme :: row ++ behind) = _ at readFirst
              rcases declaration_keepsUp source cut readFirst with
                stops | ⟨error, unfinished, failed⟩
              · generalize declaration cut (lexeme :: row) = outcome at stops ⊢
                cases stops with
                | @level read ahead _ suffix split =>
                    subst split
                    cases ahead with
                    | nil => exact .accepted
                    | cons next ahead =>
                        have shorter : ahead.length + 1 ≤ row.length + 1 := suffix.length_le
                        simp only [List.length_append, List.length_cons] at enough cutEnough
                        have room : (ahead ++ behind).length ≤ count := by
                          rw [List.length_append]
                          omega
                        have cutRoom : ahead.length ≤ cutCount := by omega
                        refine Truncated.of_suffix ?_ suffix
                        exact behindDeclaration_truncated later fun _ readMore =>
                          ih room cutRoom readMore
                | complete => exact .accepted
                | missing wanted => exact .missing wanted
                | opened opened => exact .opened opened
              · obtain ⟨others, rfl, -⟩ := behindDeclaration_ok later
                rw [failed]
                exact .unfinished (List.mem_cons_self ..) (List.suffix_refl _)
                  (List.cons_ne_nil lexeme row) unfinished

end Parser

/-!
## Source texts
-/

theorem extent_concat (source : List Char) (row : List Lexeme) (last : Lexeme) :
    extent source (row ++ [last]) =
      Source.slice source (extent source (row ++ [last])).start last.span.stop := by
  cases row with
  | nil => rfl
  | cons first more =>
      rw [List.cons_append, extent, List.getLastD_concat]
      rfl

theorem suffix_concat {row before : List Lexeme} {last : Lexeme} (suffix : row <:+ before ++ [last])
    (some : row ≠ []) : ∃ init, row = init ++ [last] := by
  obtain ⟨front, same⟩ := suffix
  obtain ⟨init, final, rfl⟩ := (List.eq_nil_or_concat' row).resolve_left some
  rw [← List.append_assoc] at same
  cases (List.append_inj' same rfl).2
  exact ⟨init, rfl⟩

/-- A text that is cut off behind one of its lexemes has the lexemes up to there. -/
theorem Lexes.cut {chars : List Char} {before behind : List Lexeme} {last : Lexeme}
    (lexes : Lexes 0 chars (before ++ last :: behind)) :
    Lexes 0 (Source.takeBytes last.span.stop chars) (before ++ [last]) ∧
      Source.byteLength (Source.takeBytes last.span.stop chars) = last.span.stop := by
  have split : before ++ last :: behind = before ++ [last] ++ behind := by
    rw [List.append_assoc]
    rfl
  rw [split] at lexes
  obtain ⟨gap, middle, rest, rfl, cut, stands⟩ :=
    lexes.front (List.append_ne_nil_of_right_ne_nil before (List.cons_ne_nil last []))
  have stop : last.span.stop = Source.byteLength (gap ++ middle) := by
    have whole := stands.extent_eq []
    rw [extent_concat, Nat.zero_add] at whole
    have stops := congrArg Span.stop whole
    rw [Source.byteLength_append]
    exact stops
  rw [stop, Source.takeBytes_append]
  exact ⟨cut, rfl⟩

/-- A complaint of the parser that the source has come to its end too early. -/
structure Error.ReportsEnd (source : String) (error : Error) : Prop where
  kind : error.kind = .syntaxError
  span : error.span = ⟨source.utf8ByteSize, source.utf8ByteSize, ""⟩
  reason : ∃ wanted, error.reason = wanted ++ "found end of input"

theorem Error.reportsEnd_unexpected (source : String) (wanted : Expectation) :
    Error.ReportsEnd source ⟨.unexpected wanted none, Source.endSpan source.toList⟩ where
  kind := rfl
  span := by
    rw [Source.endSpan, Source.byteLength_toList]
  reason := ⟨"expected " ++ wanted.description ++ ", ", by
    have parts : (", found end of input" : String) = ", " ++ "found end of input" := by decide
    exact (congrArg ("expected " ++ wanted.description ++ ·) parts).trans
      String.append_assoc.symm⟩

/-- The source text up to the end of a lexeme. -/
def cutBehind (source : String) (last : Lexeme) : String :=
  String.ofList (Source.takeBytes last.span.stop source.toList)

/-- A program that is cut off behind any of its lexemes is read all the same, or the error tells
that something is missing at the end. -/
theorem truncated_programs_are_reported {source : String} {declarations : List Declaration}
    {before behind : List Lexeme} {last : Lexeme} (accepted : parse source = .ok declarations)
    (lexemes : Lexeme.ofSource source.toList = .ok (before ++ last :: behind)) :
    (∃ read, parse (cutBehind source last) = .ok read) ∨
      (∃ error, parse (cutBehind source last) = .error error ∧
        error.ReportsEnd (cutBehind source last)) ∨
      (∃ name value body span, Declaration.expression (.letIn name value body span) ∈ declarations ∧
        parse (cutBehind source last) = .error ⟨.bindingWithoutBody name.text,
          Source.slice (cutBehind source last).toList span.start
            (cutBehind source last).utf8ByteSize⟩) ∨
      (∃ others letWord name left,
        before = others ++ [Symbol.letWord.lexeme letWord, Name.lexeme name] ∧
        last = Symbol.leftParen.lexeme left ∧
        parse (cutBehind source last) = .error ⟨.unexpected .assign (some left.text), left⟩) := by
  have lexes := Lexeme.ofCharsFrom_eq_ok_iff.mp lexemes
  have program :
      Parser.declarations source.toList (before ++ last :: behind) = .ok declarations := by
    rwa [parse, lexemes, except_ok_bind] at accepted
  have split : before ++ last :: behind = before ++ [last] ++ behind := by
    rw [List.append_assoc]
    rfl
  have chars : (cutBehind source last).toList = Source.takeBytes last.span.stop source.toList :=
    String.toList_ofList
  obtain ⟨cutLexes, length⟩ := lexes.cut
  rw [← chars] at cutLexes length
  rw [Source.byteLength_toList] at length
  have cutParse : parse (cutBehind source last) =
      Parser.declarations (cutBehind source last).toList (before ++ [last]) := by
    rw [parse, Lexeme.ofSource, Lexeme.ofCharsFrom_eq_ok_iff.mpr cutLexes, except_ok_bind]
  rw [split] at program
  have truncated := Parser.declarationsWithin_truncated source.toList (cutBehind source last).toList
    (Nat.le_refl _) (Nat.le_refl _) program
  change Parser.Truncated _ _ _ (Parser.declarations _ _) at truncated
  rw [← cutParse] at truncated
  generalize ended : parse (cutBehind source last) = outcome at truncated ⊢
  cases truncated with
  | @accepted read => exact .inl ⟨read, rfl⟩
  | missing wanted => exact .inr (.inl ⟨_, rfl, Error.reportsEnd_unexpected _ wanted⟩)
  | @unfinished row _ _ member suffix some unfinished =>
      obtain ⟨init, rfl⟩ := suffix_concat suffix some
      cases unfinished with
      | @binding name value body span starts =>
          refine .inr (.inr (.inl ⟨name, value, body, span, member, ?_⟩))
          rw [extent_concat, ← starts, length]
  | @opened left opened =>
      obtain ⟨letWord, name, others, same⟩ := opened
      change others ++ ([_, _] ++ [_]) = _ at same
      rw [← List.append_assoc] at same
      obtain ⟨front, ends⟩ := List.append_inj' same.symm rfl
      exact .inr (.inr (.inr ⟨others, letWord, name, left, front, (List.cons.inj ends).1, rfl⟩))

/-- The binding in `let x=y in x`. -/
def bindingOfY : Expr :=
  .letIn ⟨"x", ⟨4, 5, "x"⟩⟩ (.var ⟨"y", ⟨6, 7, "y"⟩⟩) (.var ⟨"x", ⟨11, 12, "x"⟩⟩)
    ⟨0, 12, "let x=y in x"⟩

theorem binding_cut_before_body :
    parse "let x=y in x" = .ok [.expression bindingOfY] ∧
      ∃ error, parse "let x=y in" = .error error ∧ error.ReportsEnd "let x=y in" := by
  have read : Lexeme.ofSource "let x=y in x".toList = .ok
      ([⟨.symbol .letWord, ⟨0, 3, "let"⟩⟩, ⟨.identifier "x", ⟨4, 5, "x"⟩⟩,
        ⟨.symbol .assign, ⟨5, 6, "="⟩⟩, ⟨.identifier "y", ⟨6, 7, "y"⟩⟩] ++
        ⟨.symbol .inWord, ⟨8, 10, "in"⟩⟩ :: [⟨.identifier "x", ⟨11, 12, "x"⟩⟩]) := by
    rw [Lexeme.ofSource_eq_within]
    rfl
  have parsed : parse "let x=y in x" = .ok [.expression bindingOfY] := by
    rw [parse, read]
    rfl
  have cut : cutBehind "let x=y in x" ⟨.symbol .inWord, ⟨8, 10, "in"⟩⟩ = "let x=y in" := rfl
  have readCut : Lexeme.ofSource "let x=y in".toList = .ok
      [⟨.symbol .letWord, ⟨0, 3, "let"⟩⟩, ⟨.identifier "x", ⟨4, 5, "x"⟩⟩,
        ⟨.symbol .assign, ⟨5, 6, "="⟩⟩, ⟨.identifier "y", ⟨6, 7, "y"⟩⟩,
        ⟨.symbol .inWord, ⟨8, 10, "in"⟩⟩] := by
    rw [Lexeme.ofSource_eq_within]
    rfl
  have refused : parse "let x=y in" = .error ⟨.unexpected .expression none, ⟨10, 10, ""⟩⟩ := by
    rw [parse, readCut]
    rfl
  have outcome := truncated_programs_are_reported parsed read
  rw [cut] at outcome
  rcases outcome with
    ⟨_, accepted⟩ | missing | ⟨_, _, _, _, _, unfinished⟩ | ⟨_, _, _, _, _, opened, _⟩
  · cases refused.symm.trans accepted
  · exact ⟨parsed, missing⟩
  · cases refused.symm.trans unfinished
  · cases opened

/-- The parenthesis that opens the parameters is blamed for what is missing behind it. -/
theorem opened_parameters_are_blamed :
    ∃ declarations before last behind, parse "let f()=x" = .ok declarations ∧
      Lexeme.ofSource "let f()=x".toList = .ok (before ++ last :: behind) ∧
      cutBehind "let f()=x" last = "let f(" ∧
      ¬((∃ read, parse "let f(" = .ok read) ∨
        ∃ error, parse "let f(" = .error error ∧
          (error.kind = .malformedProgram ∨ error.ReportsEnd "let f(")) := by
  have read : Lexeme.ofSource "let f()=x".toList = .ok
      ([⟨.symbol .letWord, ⟨0, 3, "let"⟩⟩, ⟨.identifier "f", ⟨4, 5, "f"⟩⟩] ++
        ⟨.symbol .leftParen, ⟨5, 6, "("⟩⟩ :: [⟨.symbol .rightParen, ⟨6, 7, ")"⟩⟩,
          ⟨.symbol .assign, ⟨7, 8, "="⟩⟩, ⟨.identifier "x", ⟨8, 9, "x"⟩⟩]) := by
    rw [Lexeme.ofSource_eq_within]
    rfl
  have parsed : parse "let f()=x" = .ok [.function ⟨⟨"f", ⟨4, 5, "f"⟩⟩, [],
      .var ⟨"x", ⟨8, 9, "x"⟩⟩, false, ⟨0, 9, "let f()=x"⟩⟩] := by
    rw [parse, read]
    rfl
  have cut : cutBehind "let f()=x" ⟨.symbol .leftParen, ⟨5, 6, "("⟩⟩ = "let f(" := rfl
  have readCut : Lexeme.ofSource "let f(".toList = .ok [⟨.symbol .letWord, ⟨0, 3, "let"⟩⟩,
      ⟨.identifier "f", ⟨4, 5, "f"⟩⟩, ⟨.symbol .leftParen, ⟨5, 6, "("⟩⟩] := by
    rw [Lexeme.ofSource_eq_within]
    rfl
  have refused : parse "let f(" = .error ⟨.unexpected .assign (some "("), ⟨5, 6, "("⟩⟩ := by
    rw [parse, readCut]
    rfl
  refine ⟨_, _, _, _, parsed, read, cut, ?_⟩
  rw [refused]
  rintro (⟨_, ⟨⟩⟩ | ⟨_, ⟨⟩, malformed | ends⟩)
  · cases malformed
  · cases ends.span

end FrameLang
