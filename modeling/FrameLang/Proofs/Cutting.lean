import FrameLang.Proofs.Lexing
import FrameLang.Proofs.Spans

/-!
Cutting a part out of a source text. The text from the first character of one token to the last
character of another has the lexemes in between, moved to the left by the length of what was in
front of it. So every word of the text keeps its extent, up to that move.
-/

set_option autoImplicit false

namespace FrameLang

open Source

/-- The word stands at `middle`, behind `before` in a text that starts at `offset`. -/
structure StandsAt (offset : Nat) (before middle : List Char) (word : List Lexeme) : Prop where
  lexes : Lexes (offset + byteLength before) middle word
  extent_eq : ∀ source, extent source word = slice source (offset + byteLength before)
    (offset + byteLength before + byteLength middle)

theorem StandsAt.after {offset : Nat} {first before middle : List Char} {word : List Lexeme}
    (stands : StandsAt (offset + byteLength first) before middle word) :
    StandsAt offset (first ++ before) middle word := by
  obtain ⟨lexes, extent_eq⟩ := stands
  constructor
  · rwa [byteLength_append, ← Nat.add_assoc]
  · intro source
    rw [extent_eq, byteLength_append, ← Nat.add_assoc]

theorem Lexes.of_token {start stop : Nat} {text rest rest' : List Char} {token : Token}
    {more : List Lexeme} (found : Token.scan? (text ++ rest) = some (token, text.length))
    (cut : rest' <+: rest) (lexes : Lexes stop rest' more) (atStop : stop = start + byteLength text) :
    Lexes start (text ++ rest') (⟨token, ⟨start, stop, String.ofList text⟩⟩ :: more) :=
  .token .nil (Token.scan?_cut found cut) lexes rfl atStop rfl

/-- Behind the last lexeme of a word the text may be cut off, and in front of the first one too. -/
theorem Lexes.front {offset : Nat} {chars : List Char} {word after : List Lexeme}
    (lexes : Lexes offset chars (word ++ after)) (some : word ≠ []) :
    ∃ gap middle behind, chars = gap ++ middle ++ behind ∧ Lexes offset (gap ++ middle) word ∧
      StandsAt offset gap middle word := by
  induction word generalizing offset chars with
  | nil => exact absurd rfl some
  | cons first more ih =>
      cases lexes with
      | @token _ start stop _ gap text rest token _ layout found others atStart atStop split =>
        cases more with
        | nil =>
            have alone : Lexes stop [] [] := .done (.whole .nil)
            have cut := Token.scan?_cut found List.nil_prefix
            refine ⟨gap, text, rest, split.trans (List.append_assoc ..).symm, ?_, ?_, ?_⟩
            · exact .token layout cut alone atStart atStop (by rw [List.append_nil])
            · have lexes := Lexes.of_token found List.nil_prefix alone atStop
              rw [List.append_nil] at lexes
              rwa [← atStart]
            · intro source
              rw [← atStart, ← atStop]
              rfl
        | cons second more =>
            obtain ⟨between, middle, behind, splitRest, lexesRest, stands⟩ :=
              ih others (List.cons_ne_nil second more)
            have cut : between ++ middle <+: rest := ⟨behind, splitRest.symm⟩
            refine ⟨gap, text ++ (between ++ middle), behind, ?_, ?_, ?_, ?_⟩
            · rw [split, splitRest]
              simp only [List.append_assoc]
            · exact .token layout (Token.scan?_cut found cut) lexesRest atStart atStop rfl
            · rw [← atStart]
              exact .of_token found cut lexesRest atStop
            · intro source
              have last := congrArg Span.stop (stands.extent_eq source)
              have whole : start + byteLength (text ++ (between ++ middle)) =
                  stop + byteLength between + byteLength middle := by
                rw [byteLength_append, byteLength_append, atStop]
                omega
              rw [← atStart, whole, extent, List.getLastD_cons]
              exact congrArg (slice source start) last

/-- A word stands somewhere in every text that it is part of. -/
theorem Lexes.part {offset : Nat} {chars : List Char} {before word after : List Lexeme}
    (lexes : Lexes offset chars (before ++ word ++ after)) (some : word ≠ []) :
    ∃ first middle behind, chars = first ++ middle ++ behind ∧ StandsAt offset first middle word := by
  induction before generalizing offset chars with
  | nil =>
      obtain ⟨gap, middle, behind, split, -, stands⟩ := lexes.front some
      exact ⟨gap, middle, behind, split, stands⟩
  | cons lexeme before ih =>
      cases lexes with
      | @token _ start stop _ gap text rest token _ _ _ others atStart atStop split =>
        obtain ⟨first, middle, behind, splitRest, stands⟩ := ih others
        refine ⟨gap ++ text ++ first, middle, behind, ?_, ?_⟩
        · rw [split, splitRest]
          simp only [List.append_assoc]
        · rw [atStop, atStart, Nat.add_assoc, ← byteLength_append] at stands
          exact stands.after

theorem Lexes.moveLeft {offset distance : Nat} {chars : List Char} {lexemes : List Lexeme}
    (lexes : Lexes (offset + distance) chars lexemes) :
    Lexes offset chars (lexemes.map (Lexeme.mapSpan (Span.moveLeft distance))) := by
  generalize same : offset + distance = place at lexes
  induction lexes generalizing offset with
  | done layout => exact .done layout
  | @token place start stop _ gap text rest token _ layout found _ atStart atStop split ih =>
      have others : Lexes (stop - distance) rest _ := ih (by omega)
      exact .token layout found others (by dsimp only [Span.moveLeft]; omega)
        (by dsimp only [Span.moveLeft]; omega) split

theorem Lexes.le_start {offset : Nat} {chars : List Char} {lexemes : List Lexeme}
    (lexes : Lexes offset chars lexemes) {lexeme : Lexeme} (member : lexeme ∈ lexemes) :
    offset ≤ lexeme.span.start ∧ lexeme.span.start ≤ lexeme.span.stop := by
  induction lexes with
  | done => cases member
  | token _ _ _ atStart atStop _ ih =>
      rcases List.mem_cons.mp member with rfl | later
      · dsimp only
        omega
      · have bounds := ih later
        omega

theorem Span.moveRight_moveLeft {distance : Nat} {span : Span} (start : distance ≤ span.start)
    (stop : distance ≤ span.stop) : (span.moveLeft distance).moveRight distance = span := by
  rw [moveLeft, moveRight, Nat.sub_add_cancel start, Nat.sub_add_cancel stop]

theorem map_moveRight_moveLeft {distance : Nat} {word : List Lexeme}
    (bounds : ∀ lexeme ∈ word, distance ≤ lexeme.span.start ∧
      lexeme.span.start ≤ lexeme.span.stop) :
    (word.map (Lexeme.mapSpan (Span.moveLeft distance))).map
      (Lexeme.mapSpan (Span.moveRight distance)) = word := by
  rw [List.map_map, List.map_congr_left (g := id), List.map_id]
  intro lexeme member
  obtain ⟨start, stop⟩ := bounds lexeme member
  exact congrArg (Lexeme.mk lexeme.token)
    (Span.moveRight_moveLeft start (Nat.le_trans start stop))

/-- The extent of a word is made of where its first and its last lexeme stand. -/
theorem extent_map_moveLeft (source source' : List Char) (distance : Nat) {word : List Lexeme}
    (some : word ≠ []) :
    extent source (word.map (Lexeme.mapSpan (Span.moveLeft distance))) =
      slice source ((extent source' word).start - distance)
        ((extent source' word).stop - distance) := by
  cases word with
  | nil => exact absurd rfl some
  | cons first more => 
      rw [List.map_cons, extent, List.getLastD_map]
      rfl

/-- Moving the lexemes of a part makes them the lexemes of that part alone, and the extents of its
words move with them. -/
theorem extent_moveLeft {before middle : List Char} (behind : List Char) {word : List Lexeme}
    (lexes : Lexes (byteLength before) middle word) {part : List Lexeme} (within : part <:+: word)
    (some : part ≠ []) :
    extent middle (part.map (Lexeme.mapSpan (Span.moveLeft (byteLength before)))) =
        (extent (before ++ middle ++ behind) part).moveLeft (byteLength before) ∧
      byteLength before ≤ (extent (before ++ middle ++ behind) part).start ∧
      byteLength before ≤ (extent (before ++ middle ++ behind) part).stop := by
  obtain ⟨earlier, later, rfl⟩ := within
  obtain ⟨first, chars, last, rfl, stands⟩ := lexes.part some
  have whole : before ++ (first ++ chars ++ last) ++ behind =
      before ++ first ++ chars ++ (last ++ behind) := by
    simp only [List.append_assoc]
  have place := slice_append (before ++ first) chars (last ++ behind)
  rw [byteLength_append, ← whole, ← stands.extent_eq] at place
  have alone := slice_append first chars last
  rw [extent_map_moveLeft _ _ _ some, place]
  dsimp only [Span.moveLeft]
  rw [Nat.add_sub_cancel_left, Nat.add_assoc (byteLength before), Nat.add_sub_cancel_left, alone]
  exact ⟨rfl, Nat.le_add_right .., Nat.le_add_right ..⟩

/-- Each lexeme of a text carries the place that it has in it. -/
theorem Lexes.extent_lexeme {source : List Char} {lexemes : List Lexeme}
    (lexes : Lexes 0 source lexemes) {lexeme : Lexeme} (member : lexeme ∈ lexemes) :
    extent source [lexeme] = lexeme.span := by
  obtain ⟨earlier, later, rfl⟩ := List.append_of_mem member
  rw [List.append_cons] at lexes
  obtain ⟨first, middle, behind, rfl, alone, extent_eq⟩ := lexes.part (List.cons_ne_nil lexeme [])
  have place := extent_eq (first ++ middle ++ behind)
  rw [Nat.zero_add] at alone place
  cases alone with
  | @token _ start stop _ gap text rest token _ _ _ others atStart atStop split =>
    have sameStart : start = byteLength first := congrArg Span.start place
    have sameStop : stop = byteLength first + byteLength middle := congrArg Span.stop place
    rw [split, byteLength_append, byteLength_append] at sameStop
    have noGap : gap = [] := eq_nil_of_byteLength (by omega)
    have noRest : rest = [] := eq_nil_of_byteLength (by omega)
    subst noGap noRest
    rw [List.nil_append, List.append_nil] at split
    rw [place, slice_append, atStop, atStart, split]
    rfl

end FrameLang
