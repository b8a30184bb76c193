import FrameLang.Proofs.Opening

/-!
Which functions a context knows, and under which signatures. A scope adds at most the function that
it is about, so what holds of all registered functions is kept inside every scope.
-/

set_option autoImplicit false

namespace FrameLang

namespace Context

/-- Some frame holds the function under the signature. Deeper entries that a look-up never reaches
count as well. -/
def Registers (context : Context) (signature : Signature) (function : Function) : Prop :=
  ∃ frame ∈ context.frames, (signature, function) ∈ frame.functions.entries

/-- Every function is stored under its own name and number of parameters. -/
def WellKeyed (context : Context) : Prop :=
  ∀ signature function, context.Registers signature function → function.signature = signature

variable {context inner : Context} {signature : Signature} {function : Function}

theorem registers_of_findFunction? (found : context.findFunction? signature = some function) :
    context.Registers signature function := by
  rw [findFunction?, findInFrames?_eq] at found
  obtain ⟨frame, member, held⟩ := List.exists_of_findSome?_eq_some found
  exact ⟨frame, member, Bindings.mem_entries_of_find? held⟩

private theorem foldl_max_le_iff (heights : List Nat) (start bound : Nat) :
    heights.foldl max start ≤ bound ↔ start ≤ bound ∧ ∀ height ∈ heights, height ≤ bound := by
  induction heights generalizing start with
  | nil => simp
  | cons height rest ih =>
      simp only [List.foldl_cons, ih, Nat.max_le, List.mem_cons, forall_eq_or_imp, and_assoc]

theorem bodyHeight_le_iff {bound : Nat} :
    context.bodyHeight ≤ bound ↔
      ∀ signature function, context.Registers signature function → function.height ≤ bound := by
  simp only [bodyHeight, foldl_max_le_iff, Nat.zero_le, true_and, List.mem_flatMap, Bindings.values,
    List.map_map, List.mem_map]
  constructor
  · rintro low signature function ⟨frame, member, entry⟩
    exact low _ ⟨frame, member, (signature, function), entry, rfl⟩
  · rintro low _ ⟨frame, member, ⟨signature, function⟩, entry, rfl⟩
    exact low signature function ⟨frame, member, entry⟩

theorem registers_iff :
    context.Registers signature function ↔
      (signature, function) ∈ context.current.functions.entries ∨
        ∃ frame ∈ context.frames.tail, (signature, function) ∈ frame.functions.entries := by
  rw [Registers, context.frames_eq]
  simp only [List.mem_cons, exists_eq_or_imp, List.tail_cons]

theorem registers_mapCurrent_iff {change : Frame → Frame}
    (kept : (change context.current).functions = context.current.functions) :
    (context.mapCurrent change).Registers signature function ↔
      context.Registers signature function := by
  simp only [registers_iff, current_mapCurrent, frames_mapCurrent, List.tail_cons, kept]

theorem registers_withVariable_iff (name : String) (value : Value) :
    (context.withVariable name value).Registers signature function ↔
      context.Registers signature function :=
  registers_mapCurrent_iff rfl

theorem registers_withArguments_iff {pairs : List (Name × Value)}
    (arrives : context.withArguments pairs = .ok inner) :
    inner.Registers signature function ↔ context.Registers signature function := by
  induction pairs generalizing context with
  | nil =>
      cases arrives
      exact Iff.rfl
  | cons pair rest ih =>
      rw [withArguments] at arrives
      split at arrives
      · cases arrives
      · exact (ih arrives).trans (registers_withVariable_iff _ _)

theorem registers_withFunction_iff (added : Function) :
    (context.withFunction added).Registers signature function ↔
      (signature = added.signature ∧ function = added) ∨
        context.Registers signature function := by
  simp only [registers_iff, withFunction, current_mapCurrent, frames_mapCurrent, List.tail_cons,
    Bindings.insert, List.mem_cons, Prod.mk.injEq, or_assoc]

end Context

/-- A scope registers at most the function it is about. -/
theorem Scope.registers_of_opened {scope : Scope} {context inner : Context}
    {signature : Signature} {function : Function} (opens : scope.opened context = .ok inner)
    (registered : inner.Registers signature function) :
    context.Registers signature function ∨
      (scope = .function function ∧ signature = function.signature) := by
  cases scope with
  | call span =>
      obtain ⟨_, rfl⟩ := opened_call_ok_iff.mp opens
      exact .inl registered
  | frame span =>
      obtain ⟨_, rfl⟩ := opened_frame_ok_iff.mp opens
      obtain ⟨holder, member, entry⟩ := registered
      rcases List.mem_cons.mp member with rfl | lower
      · cases entry
      · exact .inl ⟨holder, lower, entry⟩
  | var name value => exact .inl ((Context.registers_withArguments_iff opens).mp registered)
  | arguments parameters values =>
      obtain ⟨_, arrives⟩ := opened_arguments_ok_iff.mp opens
      exact .inl ((Context.registers_withArguments_iff arrives).mp registered)
  | function definition =>
      obtain ⟨_, rfl⟩ := opened_function_ok_iff.mp opens
      rcases (Context.registers_withFunction_iff definition).mp registered with ⟨rfl, rfl⟩ | old
      · exact .inr ⟨rfl, rfl⟩
      · exact .inl old

/-- A call registers nothing. -/
theorem ArmedCall.registers_of_opened {call : ArmedCall} {context inner : Context}
    {signature : Signature} {function : Function} (opens : call.opened context = .ok inner)
    (registered : inner.Registers signature function) : context.Registers signature function := by
  obtain ⟨counted, framed, counts, frames, binds⟩ := scopes_of_opened opens
  have beforeArguments : framed.Registers signature function := by
    simpa using Scope.registers_of_opened binds registered
  have beforeFrame : counted.Registers signature function := by
    rw [ArmedCall.framed] at frames
    split at frames
    · cases frames
      exact beforeArguments
    · simpa using Scope.registers_of_opened frames beforeArguments
  simpa using Scope.registers_of_opened counts beforeFrame

theorem Scope.wellKeyed_of_opened {scope : Scope} {context inner : Context}
    (opens : scope.opened context = .ok inner) (wellKeyed : context.WellKeyed) :
    inner.WellKeyed := by
  intro signature function registered
  rcases registers_of_opened opens registered with old | ⟨_, own⟩
  · exact wellKeyed signature function old
  · exact own.symm

theorem ArmedCall.wellKeyed_of_opened {call : ArmedCall} {context inner : Context}
    (opens : call.opened context = .ok inner) (wellKeyed : context.WellKeyed) :
    inner.WellKeyed :=
  fun signature function registered =>
    wellKeyed signature function (registers_of_opened opens registered)

end FrameLang
