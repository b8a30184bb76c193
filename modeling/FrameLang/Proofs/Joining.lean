import FrameLang.Proofs.Correspondence
import FrameLang.Proofs.LongestMatch
import FrameLang.Proofs.NodeText
import FrameLang.Proofs.Placement
import FrameLang.Proofs.SpanErasure

/-!
Two sources joined by a separator on a line of its own. The end of the line closes a comment that the
first source leaves open, so the lexemes of the whole are those of the first source, the separator, and
those of the second source further to the right. The declarations in front of the separator are read
as they are at the end of a source, and what is behind it is read as it is on its own.
-/

set_option autoImplicit false

namespace FrameLang

open Source

/-!
## Parts of a source behind another one
-/

namespace Source

theorem dropBytes_add_append (count : Nat) (before chars : List Char) :
    dropBytes (count + byteLength before) (before ++ chars) = dropBytes count chars := by
  induction before with
  | nil => rfl
  | cons c before ih =>
      have pos := c.utf8Size_pos
      have some : count + (c.utf8Size + byteLength before) ≠ 0 := by omega
      have behind : count + (c.utf8Size + byteLength before) - c.utf8Size =
          count + byteLength before := by omega
      rw [byteLength, List.cons_append, dropBytes, if_neg some, behind, ih]

theorem slice_add_append (before chars : List Char) (start stop : Nat) :
    slice (before ++ chars) (start + byteLength before) (stop + byteLength before) =
      (slice chars start stop).moveRight (byteLength before) := by
  rw [slice, Nat.add_sub_add_right, dropBytes_add_append]
  rfl

theorem endSpan_append (before chars : List Char) :
    endSpan (before ++ chars) = (endSpan chars).moveRight (byteLength before) := by
  rw [endSpan, byteLength_append, Nat.add_comm]
  rfl

end Source

theorem Span.moveLeft_zero : Span.moveLeft 0 = id := rfl

theorem Lexeme.mapSpan_id : Lexeme.mapSpan id = id := rfl

/-!
## Lexemes
-/

theorem TrailingLayout.newline {chars : List Char} (layout : TrailingLayout chars) :
    Layout (chars ++ ['\n']) := by
  have newline : Layout ['\n'] := .space rfl .nil
  cases layout with
  | whole layout => exact layout.append newline
  | comment layout oneLine =>
      rw [List.append_assoc]
      exact layout.append (.comment oneLine .nil)

namespace Lexeme

/-- What stands behind the end of a line is read as if nothing was in front of it. -/
theorem ofCharsFrom_line {offset : Nat} {chars : List Char} {lexemes : List Lexeme}
    (lexes : Lexes offset chars lexemes) (behind : List Char) :
    ofCharsFrom offset (chars ++ '\n' :: behind) =
      (ofCharsFrom (offset + byteLength chars + 1) behind).map (lexemes ++ ·) := by
  induction lexes with
  | @done offset chars layout =>
      have skipped : skipLayout false offset (chars ++ '\n' :: behind) =
          skipLayout false (offset + byteLength chars + 1) behind := by
        rw [List.append_cons, skipLayout_layout layout.newline, byteLength_append, ← Nat.add_assoc]
        rfl
      rw [ofCharsFrom_of_skipLayout skipped]
      exact (congrFun Except.map_id _).symm
  | @token offset start stop _ gap text rest token lexemes layout found _ atStart atStop split ih =>
      have newline : ∀ c ∈ ('\n' :: behind).head?, startsLayout c = true := by
        simp [startsLayout, isWhitespace]
      have foundFirst := Token.scan?_before_layout found newline
      have place : offset + byteLength (gap ++ (text ++ rest)) = stop + byteLength rest := by
        rw [byteLength_append, byteLength_append, atStop, atStart]
        omega
      rw [List.append_assoc] at foundFirst
      rw [split, place, List.append_assoc, List.append_assoc,
        ofCharsFrom_token layout foundFirst atStart atStop, ih]
      cases ofCharsFrom (stop + byteLength rest + 1) behind <;> rfl

theorem ofCharsFrom_semicolon (offset : Nat) (behind : List Char) :
    ofCharsFrom offset (';' :: behind) = (ofCharsFrom (offset + 1) behind).map
      (Symbol.semicolon.lexeme ⟨offset, offset + 1, ";"⟩ :: ·) := by
  have found : Token.scan? (';' :: behind) = some (.symbol .semicolon, [';'].length) := rfl
  have atStop : offset + 1 = offset + byteLength [';'] := rfl
  have read := ofCharsFrom_token .nil found (Nat.add_zero offset).symm atStop
  cases others : ofCharsFrom (offset + 1) behind <;> rw [others] at read <;> exact read

end Lexeme

/-- A text reads the same wherever it stands. -/
theorem MaximalMunch.moved {offset : Nat} {chars : List Char} {result : Except Error (List Lexeme)}
    (munch : MaximalMunch offset chars result) (distance : Nat) :
    MaximalMunch (offset + distance) chars
      (mapResult (Span.moveRight distance) (List.map (Lexeme.mapSpan (Span.moveRight distance)))
        result) := by
  induction munch with
  | finish => exact .finish
  | space white _ ih =>
      rw [Nat.add_right_comm] at ih
      exact .space white ih
  | comment oneLine ends _ ih =>
      rw [Nat.add_right_comm] at ih
      exact .comment oneLine ends ih
  | @token offset stop text rest token result longest atStop _ ih =>
      have atStop : stop + distance = offset + distance + byteLength text := by omega
      have first := MaximalMunch.token longest atStop ih
      cases result with
      | ok => exact first
      | error => exact first
  | @stuck offset c rest noSpace noComment free =>
      have stuck := @MaximalMunch.stuck (offset + distance) c rest noSpace noComment free
      rw [Nat.add_right_comm] at stuck
      exact stuck

/-- The lexemes of the whole, or the error of the second source. -/
theorem Lexeme.ofSource_joined {first : List Char} {lexemes : List Lexeme}
    (lexes : Lexes 0 first lexemes) (second : List Char) :
    ofSource (first ++ '\n' :: ';' :: second) =
      (mapResult (Span.moveRight (byteLength first + 2))
        (List.map (mapSpan (Span.moveRight (byteLength first + 2)))) (ofSource second)).map
      fun others => lexemes ++
        Symbol.semicolon.lexeme ⟨byteLength first + 1, byteLength first + 2, ";"⟩ :: others := by
  have moved := (maximalMunch_ofCharsFrom 0 second).moved (byteLength first + 2)
  rw [Nat.zero_add] at moved
  rw [ofSource, ofCharsFrom_line lexes, Nat.zero_add, ofCharsFrom_semicolon,
    ofCharsFrom_of_maximalMunch moved, ofSource]
  cases ofCharsFrom 0 second <;> rfl

/-!
## Declarations in front of the separator
-/

theorem DerivesProgram.length_le {source : List Char} {word : List Lexeme}
    {declarations : List Declaration} (derives : DerivesProgram source word declarations) :
    declarations.length ≤ word.length := by
  induction derives with
  | empty => exact Nat.le_refl 0
  | last derives => exact derives.length_pos
  | next derives _ whole ih =>
      rw [whole, List.length_append, List.length_cons, List.length_cons]
      omega

/-- Where all words keep their extents, the same program is derived. -/
theorem DerivesProgram.kept {source source' : List Char} {word : List Lexeme}
    {declarations : List Declaration} (derives : DerivesProgram source word declarations)
    (keeps : KeepsExtents id source source' word) : DerivesProgram source' word declarations := by
  have same {word : List Lexeme} {value : Declaration}
      (derives : DerivesDeclaration source word value)
      (keeps : KeepsExtents id source source' word) : DerivesDeclaration source' word value := by
    have moved := derives.moved keeps
    rwa [Lexeme.mapSpan_id, List.map_id, Declaration.mapSpans_id] at moved
  induction derives with
  | empty => exact .empty
  | last derives => exact .last (same derives keeps)
  | next derives _ whole ih =>
      have first := same derives (keeps.part (part_before whole))
      exact .next first (ih (keeps.part (part_after whole))) whole

theorem keepsExtents_append {first : List Char} {lexemes : List Lexeme}
    (lexes : Lexes 0 first lexemes) (behind : List Char) :
    KeepsExtents id first (first ++ behind) lexemes := by
  intro part within some
  have same := (@extent_moveLeft [] first behind lexemes lexes part within some).1
  rw [byteLength, Span.moveLeft_zero, Lexeme.mapSpan_id, List.map_id] at same
  rw [Lexeme.mapSpan_id, List.map_id]
  exact same.symm

namespace Parser

/-- The declarations of a word that no separator ends, and what is read behind the next one. -/
theorem declarationsWithin_append {source : List Char} {word : List Lexeme}
    {declarations : List Declaration} (derives : DerivesProgram source word declarations)
    (some : declarations ≠ [])
    (noSeparator : ∀ before last, word ≠ before ++ [Symbol.semicolon.lexeme last])
    (count : Nat) (semicolon : Span) (rest : List Lexeme) :
    declarationsWithin source (count + declarations.length)
        (word ++ Symbol.semicolon.lexeme semicolon :: rest) =
      (declarationsWithin source count rest).map (declarations ++ ·) := by
  induction derives with
  | empty => exact absurd rfl some
  | last derives => exact declarationsWithin_next derives count semicolon rest
  | @next word first value span behind others derives derivesOthers whole ih =>
      -- With nothing behind it, this separator would be the last lexeme.
      have someOthers : others ≠ [] := by
        rintro rfl
        cases derivesOthers
        exact noSeparator first span whole
      have noneBehind : ∀ before last, behind ≠ before ++ [Symbol.semicolon.lexeme last] := by
        rintro before last rfl
        refine noSeparator (first ++ Symbol.semicolon.lexeme span :: before) last ?_
        rw [whole, List.append_assoc, List.cons_append]
      rw [whole, List.append_assoc, List.cons_append, List.length_cons, ← Nat.add_assoc,
        declarationsWithin_next derives, ih someOthers noneBehind]
      cases declarationsWithin source count rest <;> rfl

end Parser

/-!
## Declarations behind the separator
-/

/-- A lexeme of a source, and where it stands when the source has another one in front of it. -/
def Lexeme.movedTwin (distance : Nat) (lexeme : Lexeme) : Twin :=
  ⟨lexeme.token, lexeme.span, lexeme.span.moveRight distance⟩

theorem Corresponds.behind (before chars : List Char) (lexemes : List Lexeme) :
    Corresponds (Span.moveRight (byteLength before)) id chars (before ++ chars)
      (lexemes.map (Lexeme.movedTwin (byteLength before))) where
  text := by
    intro twin member
    obtain ⟨lexeme, _, rfl⟩ := List.mem_map.mp member
    rfl
  span := by
    intro twin member
    obtain ⟨lexeme, _, rfl⟩ := List.mem_map.mp member
    rfl
  between := by
    intro first member last member'
    obtain ⟨lexeme, _, rfl⟩ := List.mem_map.mp member
    obtain ⟨lexeme', _, rfl⟩ := List.mem_map.mp member'
    exact (slice_add_append before chars lexeme.span.start lexeme'.span.stop).symm
  finish := (endSpan_append before chars).symm

theorem Agree.eq_mapResult {f : Span → Span} {first second : Except Error (List Declaration)}
    (agree : Agree f id (fun one other =>
      one.map (Declaration.mapSpans f) = other.map (Declaration.mapSpans id)) first second) :
    second = mapResult f (List.map (Declaration.mapSpans f)) first := by
  cases agree with
  | ok same =>
      rw [Declaration.mapSpans_id, List.map_id] at same
      exact congrArg Except.ok same.symm
  | @error one other cause span =>
      obtain ⟨_, _⟩ := other
      cases cause
      cases span
      rfl

theorem Parser.declarationsWithin_behind (before chars : List Char) {lexemes : List Lexeme}
    {count : Nat} (enough : lexemes.length ≤ count) :
    declarationsWithin (before ++ chars) count
        (lexemes.map (Lexeme.mapSpan (Span.moveRight (byteLength before)))) =
      mapResult (Span.moveRight (byteLength before))
        (List.map (Declaration.mapSpans (Span.moveRight (byteLength before))))
        (declarations chars lexemes) := by
  have corresponds := Corresponds.behind before chars lexemes
  have row : (lexemes.map (Lexeme.movedTwin (byteLength before))).length = lexemes.length :=
    List.length_map _
  have agree := declarationsWithin_agree corresponds (Nat.le_of_eq row) (row ▸ enough)
  rw [List.map_map, List.map_map] at agree
  have first : Twin.first ∘ Lexeme.movedTwin (byteLength before) = id := rfl
  rw [first, List.map_id] at agree
  exact agree.eq_mapResult

/-!
## The whole
-/

theorem Parser.declarations_joined {first second : List Char} {lexemes others : List Lexeme}
    {read : List Declaration} (lexes : Lexes 0 first lexemes)
    (derives : DerivesProgram first lexemes read) (some : read ≠ [])
    (noSeparator : ∀ before last, lexemes ≠ before ++ [Symbol.semicolon.lexeme last])
    (semicolon : Span) :
    declarations (first ++ '\n' :: ';' :: second) (lexemes ++ Symbol.semicolon.lexeme semicolon ::
        others.map (Lexeme.mapSpan (Span.moveRight (byteLength first + 2)))) =
      mapResult (Span.moveRight (byteLength first + 2))
        (fun behind => read ++
          behind.map (Declaration.mapSpans (Span.moveRight (byteLength first + 2))))
        (declarations second others) := by
  have inFront := derives.kept (keepsExtents_append lexes ('\n' :: ';' :: second))
  have distance : byteLength (first ++ ['\n', ';']) = byteLength first + 2 := byteLength_append ..
  have whole : first ++ '\n' :: ';' :: second = first ++ ['\n', ';'] ++ second := by
    rw [List.append_assoc]
    rfl
  -- Each declaration takes a lexeme at least, so what the first source leaves of the bound suffices.
  obtain ⟨spare, fewer⟩ := Nat.le.dest derives.length_le
  have count : (lexemes ++ Symbol.semicolon.lexeme semicolon :: others.map
      (Lexeme.mapSpan (Span.moveRight (byteLength first + 2)))).length =
      spare + 1 + others.length + read.length := by
    rw [List.length_append, List.length_cons, List.length_map]
    omega
  have enough : others.length ≤ spare + 1 + others.length := Nat.le_add_left ..
  rw [declarations, count, declarationsWithin_append inFront some noSeparator, whole, ← distance,
    declarationsWithin_behind _ _ enough]
  cases declarations second others <;> rfl

/-- Sources compose at a separator. If the first has declarations and does not end with a separator,
then the whole has its declarations and those of the second source, or the error of the second source,
with all spans of the second source moved to the right. -/
theorem parse_joined {first : String} {lexemes : List Lexeme} {declarations : List Declaration}
    (read : Lexeme.ofSource first.toList = .ok lexemes)
    (parsed : parse first = .ok declarations) (some : declarations ≠ [])
    (noSeparator : lexemes.getLast?.map Lexeme.token ≠ .some (.symbol .semicolon))
    (second : String) :
    parse (first ++ "\n;" ++ second) =
      mapResult (Span.moveRight (first.utf8ByteSize + 2))
        (fun others => declarations ++
          others.map (Declaration.mapSpans (Span.moveRight (first.utf8ByteSize + 2))))
        (parse second) := by
  have lexes := Lexeme.ofCharsFrom_eq_ok_iff.mp read
  have derives : DerivesProgram first.toList lexemes declarations := by
    rw [parse, read] at parsed
    exact Parser.declarations_eq_ok_iff.mp parsed
  have noneLast : ∀ before last, lexemes ≠ before ++ [Symbol.semicolon.lexeme last] := by
    rintro before last rfl
    exact noSeparator (by rw [List.getLast?_concat]; rfl)
  have whole : (first ++ "\n;" ++ second).toList = first.toList ++ '\n' :: ';' :: second.toList := by
    rw [String.toList_append, String.toList_append, List.append_assoc]
    rfl
  rw [parse, whole, Lexeme.ofSource_joined lexes, ← byteLength_toList, parse]
  cases Lexeme.ofSource second.toList with
  | error error => rfl
  | ok others => exact Parser.declarations_joined lexes derives some noneLast _

def identityFunction : Function :=
  ⟨⟨"f", ⟨4, 5, "f"⟩⟩, [⟨"x", ⟨6, 7, "x"⟩⟩], .var ⟨"x", ⟨8, 9, "x"⟩⟩, false, ⟨0, 9, "let f x=x"⟩⟩

theorem open_comment_before_separator :
    parse "let f x=x#é\n;f" =
        .ok [.function identityFunction, .expression (.var ⟨"f", ⟨14, 15, "f"⟩⟩)] ∧
      parse "let f x=x#é\n;in" = .error ⟨.unexpected .expression (some "in"), ⟨14, 16, "in"⟩⟩ := by
  have read : Lexeme.ofSource "let f x=x#é".toList = .ok
      [⟨.symbol .letWord, ⟨0, 3, "let"⟩⟩, ⟨.identifier "f", ⟨4, 5, "f"⟩⟩,
        ⟨.identifier "x", ⟨6, 7, "x"⟩⟩, ⟨.symbol .assign, ⟨7, 8, "="⟩⟩,
        ⟨.identifier "x", ⟨8, 9, "x"⟩⟩] := by
    rw [Lexeme.ofSource_eq_within]
    rfl
  have parsed : parse "let f x=x#é" = .ok [.function identityFunction] := by
    rw [parse, read]
    rfl
  have joined := parse_joined read parsed (List.cons_ne_nil _ _) (by decide)
  have name : parse "f" = .ok [.expression (.var ⟨"f", ⟨0, 1, "f"⟩⟩)] := by
    rw [parse, Lexeme.ofSource_eq_within]
    rfl
  have body : parse "in" = .error ⟨.unexpected .expression (some "in"), ⟨0, 2, "in"⟩⟩ := by
    rw [parse, Lexeme.ofSource_eq_within]
    rfl
  have onName := joined "f"
  have onBody := joined "in"
  rw [name] at onName
  rw [body] at onBody
  exact ⟨onName, onBody⟩

end FrameLang
