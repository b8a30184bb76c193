import FrameLang.Proofs.Correspondence
import FrameLang.Proofs.LongestMatch
import FrameLang.Proofs.SpanErasure

/-!
Layout is irrelevant. The texts of the lexemes of a source may be set out anew, with whitespace and
comments of any kind between them. No token contains what layout starts with, so each text is read as
the same token again, and the parser does the same with the new lexemes, which stand elsewhere.
-/

set_option autoImplicit false

namespace FrameLang

/-- The texts of the lexemes, each behind some layout, and layout of any kind behind the last. -/
inductive SetApart : List Lexeme → List Char → Prop where
  | done {chars} : TrailingLayout chars → SetApart [] chars
  | next {gap lexeme lexemes rest} :
      Layout gap → gap ≠ [] → SetApart lexemes rest →
      SetApart (lexeme :: lexemes) (gap ++ (lexeme.span.text.toList ++ rest))

/-- The texts of the lexemes, set apart from each other by layout. In front of the first there may be
layout or none. -/
inductive SetOut : List Lexeme → List Char → Prop where
  | nothing {chars} : TrailingLayout chars → SetOut [] chars
  | first {lead lexeme lexemes rest} :
      Layout lead → SetApart lexemes rest →
      SetOut (lexeme :: lexemes) (lead ++ (lexeme.span.text.toList ++ rest))

/-!
## Texts that are set apart
-/

theorem Layout.starts {gap : List Char} (layout : Layout gap) :
    ∀ c ∈ gap.head?, Lexeme.startsLayout c = true := by
  cases layout with
  | nil => simp
  | space white => simp [Lexeme.startsLayout, white]
  | comment => simp [Lexeme.startsLayout]

theorem TrailingLayout.starts {chars : List Char} (layout : TrailingLayout chars) :
    ∀ c ∈ chars.head?, Lexeme.startsLayout c = true := by
  cases layout with
  | whole layout => exact layout.starts
  | @comment gap _ layout _ =>
      cases gap with
      | nil => simp [Lexeme.startsLayout]
      | cons c gap => exact layout.starts

theorem SetApart.starts {lexemes : List Lexeme} {chars : List Char}
    (apart : SetApart lexemes chars) : ∀ c ∈ chars.head?, Lexeme.startsLayout c = true := by
  cases apart with
  | done layout => exact layout.starts
  | @next gap _ _ _ layout some _ =>
      cases gap with
      | nil => exact absurd rfl some
      | cons c gap => exact layout.starts

theorem Lexes.spelled {offset : Nat} {chars : List Char} {lexemes : List Lexeme}
    (lexes : Lexes offset chars lexemes) :
    ∀ lexeme ∈ lexemes, lexeme.token.Spelled lexeme.span.text.toList := by
  induction lexes with
  | done => simp
  | @token _ _ _ _ _ text rest token _ _ found _ _ _ _ ih =>
      have spelled := Token.spelled_of_scan? found
      rw [List.take_left] at spelled
      have first : token.Spelled (String.ofList text).toList := by rwa [String.toList_ofList]
      exact List.forall_mem_cons.mpr ⟨first, ih⟩

/-- Wherever the text stands, it has the tokens of the lexemes, and they have the same texts. -/
def ReadsAs (lexemes : List Lexeme) (chars : List Char) : Prop :=
  ∀ offset, ∃ row : List Twin, row.map Twin.first = lexemes ∧
    (∀ twin ∈ row, twin.here.text = twin.there.text) ∧ Lexes offset chars (row.map Twin.second)

theorem readsAs_nil {chars : List Char} (layout : TrailingLayout chars) : ReadsAs [] chars :=
  fun _ => ⟨[], rfl, by simp, .done layout⟩

theorem ReadsAs.cons {gap rest : List Char} {lexeme : Lexeme} {lexemes : List Lexeme}
    (layout : Layout gap) (spelled : lexeme.token.Spelled lexeme.span.text.toList)
    (starts : ∀ c ∈ rest.head?, Lexeme.startsLayout c = true) (reads : ReadsAs lexemes rest) :
    ReadsAs (lexeme :: lexemes) (gap ++ (lexeme.span.text.toList ++ rest)) := by
  intro offset
  obtain ⟨token, span⟩ := lexeme
  let start := offset + Source.byteLength gap
  let stop := start + Source.byteLength span.text.toList
  obtain ⟨row, rfl, texts, lexes⟩ := reads stop
  have found := Token.scan?_before_layout spelled.scan?_eq starts
  refine ⟨⟨token, span, ⟨start, stop, span.text⟩⟩ :: row, rfl, ?_, ?_⟩
  · exact List.forall_mem_cons.mpr ⟨rfl, texts⟩
  · have whole := Lexes.token layout found lexes rfl rfl rfl
    rwa [String.ofList_toList] at whole

theorem SetApart.readsAs {lexemes : List Lexeme} {chars : List Char}
    (apart : SetApart lexemes chars)
    (spelled : ∀ lexeme ∈ lexemes, lexeme.token.Spelled lexeme.span.text.toList) :
    ReadsAs lexemes chars := by
  induction apart with
  | done layout => exact readsAs_nil layout
  | next layout _ behind ih =>
      obtain ⟨first, others⟩ := List.forall_mem_cons.mp spelled
      exact .cons layout first behind.starts (ih others)

theorem SetOut.readsAs {lexemes : List Lexeme} {chars : List Char} (setOut : SetOut lexemes chars)
    (spelled : ∀ lexeme ∈ lexemes, lexeme.token.Spelled lexeme.span.text.toList) :
    ReadsAs lexemes chars := by
  cases setOut with
  | nothing layout => exact readsAs_nil layout
  | first layout behind =>
      obtain ⟨first, others⟩ := List.forall_mem_cons.mp spelled
      exact .cons layout first behind.starts (behind.readsAs others)

/-!
## Sources that are set out anew
-/

/-- Without spans, lexemes correspond as soon as their texts are the same. -/
theorem Corresponds.erased (source source' : List Char) {row : List Twin}
    (texts : ∀ twin ∈ row, twin.here.text = twin.there.text) :
    Corresponds Span.erase Span.erase source source' row where
  text := texts
  span := fun _ _ => rfl
  between := fun _ _ _ _ => rfl
  finish := rfl

/-- What two parses give is equal up to the spans in the declarations. -/
def SameDeclarations (first second : List Declaration) : Prop :=
  first.map (Declaration.mapSpans Span.erase) = second.map (Declaration.mapSpans Span.erase)

theorem Agree.alike {f g : Span → Span} {α : Type} {Related : α → α → Prop}
    {first second : Except Error α} (agree : Agree f g Related first second) :
    AlikeResults Related first second := by
  cases agree with
  | ok related => exact .ok related
  | error cause _ => exact .error (congrArg Cause.kind cause) (congrArg Cause.reason cause)

theorem parse_alike {source source' : String} {row : List Twin}
    (read : Lexeme.ofSource source.toList = .ok (row.map Twin.first))
    (read' : Lexeme.ofSource source'.toList = .ok (row.map Twin.second))
    (texts : ∀ twin ∈ row, twin.here.text = twin.there.text) :
    AlikeResults SameDeclarations (parse source) (parse source') := by
  have corresponds := Corresponds.erased source.toList source'.toList texts
  have enough : row.length ≤ row.length := Nat.le_refl _
  unfold parse
  rw [read, read']
  simp only [except_ok_bind, Parser.declarations, List.length_map]
  exact (Parser.declarationsWithin_agree corresponds enough enough).alike

/-- However the texts of the lexemes are set out, the tokens are the same, and so are the declarations
up to spans, or the kind and the reason of the error. -/
theorem layout_is_irrelevant {source source' : String} {lexemes : List Lexeme}
    (read : Lexeme.ofSource source.toList = .ok lexemes)
    (setOut : SetOut lexemes source'.toList) :
    (∃ lexemes', Lexeme.ofSource source'.toList = .ok lexemes' ∧
      lexemes'.map Lexeme.token = lexemes.map Lexeme.token) ∧
    AlikeResults SameDeclarations (parse source) (parse source') := by
  have lexes := Lexeme.ofCharsFrom_eq_ok_iff.mp read
  obtain ⟨row, rfl, texts, lexes'⟩ := setOut.readsAs lexes.spelled 0
  have read' := Lexeme.ofCharsFrom_eq_ok_iff.mpr lexes'
  refine ⟨⟨_, read', ?_⟩, parse_alike read read' texts⟩
  rw [List.map_map, List.map_map]
  rfl

theorem comment_separates_tokens :
    (∃ lexemes', Lexeme.ofSource "\tf# é\n( #".toList = .ok lexemes' ∧
      lexemes'.map Lexeme.token = [.identifier "f", .symbol .leftParen]) ∧
    AlikeResults SameDeclarations (parse "f(") (parse "\tf# é\n( #") := by
  let name : Lexeme := ⟨.identifier "f", ⟨0, 1, "f"⟩⟩
  let paren : Lexeme := ⟨.symbol .leftParen, ⟨1, 2, "("⟩⟩
  have read : Lexeme.ofSource "f(".toList = .ok [name, paren] := by
    rw [Lexeme.ofSource_eq_within]
    rfl
  have behind : SetApart [] " #".toList := .done (.comment (.space rfl .nil) List.not_mem_nil)
  have apart : SetApart [paren] ("# é\n".toList ++ ("(".toList ++ " #".toList)) :=
    .next (.comment (by decide : '\n' ∉ " é".toList) .nil) (List.cons_ne_nil _ _) behind
  have setOut : SetOut [name, paren]
      ("\t".toList ++ ("f".toList ++ ("# é\n".toList ++ ("(".toList ++ " #".toList)))) :=
    .first (.space rfl .nil) apart
  exact layout_is_irrelevant read setOut

end FrameLang
