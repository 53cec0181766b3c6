import ScopedConfig.Nesting
import ScopedConfig.Proofs.Faults
import ScopedConfig.Proofs.RenderedLines
import ScopedConfig.Proofs.Renumbering

/-!
A text that is put into a group is read there as it is read alone. The two readings differ in one
open group below all others, with a frame that stays empty, so that nothing is ever found in it. Only
a brace too many is not a fault in a group: it closes the group itself.
-/

namespace ScopedConfig

def Scopes.raised (scopes : Scopes) : Scopes := ⟨scopes.frames ++ [[]]⟩

namespace Scopes

variable (scopes : Scopes)

theorem innermost_raised : scopes.raised.innermost = scopes.innermost := by
  obtain ⟨frames⟩ := scopes
  cases frames <;> rfl

theorem local?_raised (name : Text) : scopes.raised.local? name = scopes.local? name := by
  rw [local?, innermost_raised, local?]

theorem resolve?_raised (name : Text) : scopes.raised.resolve? name = scopes.resolve? name := by
  simp [raised, resolve?, List.findSome?_append]

variable {scopes}

theorem exit_raised (inside : scopes.frames ≠ []) : scopes.exit.raised = scopes.raised.exit := by
  rw [exit, raised, exit, raised, List.tail_append_of_ne_nil inside]

theorem extend_raised (inside : scopes.frames ≠ []) (name : Text) (declared : Variable) :
    (scopes.extend name declared).raised = scopes.raised.extend name declared := by
  have below : scopes.raised.frames.tail = scopes.frames.tail ++ [[]] :=
    List.tail_append_of_ne_nil inside
  rw [extend, extend, innermost_raised, below, raised, List.cons_append]

end Scopes

/-- A state outside every group, and the same state in a group that was opened first of all. -/
structure State.Nested (same : Nat → Nat → Prop) (name : Text) (left right : State) : Prop where
  inside : left.scopes.frames ≠ []
  scopes : Scopes.Alike same left.scopes.raised right.scopes
  outer : right.outer = left.outer ++ [⟨name, .empty⟩]
  entries : left.entries = right.entries

namespace State

theorem nested_start (same : Nat → Nat → Prop) (name : Text) :
    Nested same name start (start.openGroup name) :=
  ⟨List.cons_ne_nil _ _, .cons .nil (.cons .nil .nil), rfl, rfl⟩

variable {same : Nat → Nat → Prop} {name : Text} {left right : State}

theorem Nested.qualified (nested : Nested same name left right) (key : Text) :
    right.qualified key = name ++ '/' :: left.qualified key := by
  have path : right.path = name :: left.path := by
    rw [path, nested.outer, List.map_append, List.reverse_append]
    rfl
  rw [State.qualified, State.qualified, path, List.cons_append,
    List.intercalate_cons_of_ne_nil (List.append_ne_nil_of_right_ne_nil _ (List.cons_ne_nil _ _)),
    List.append_assoc, List.singleton_append]

theorem Nested.closed (nested : Nested same name left right) (sound : left.Sound)
    {correspondence : Correspondence} {line line' : Nat} :
    AgreeUnless (fun error => ∃ number, error = .strayClose number)
      (ParseError.Alike correspondence) (Nested same name) (left.closeGroup line)
      (right.closeGroup line') := by
  have depth := sound.frames
  cases groups : left.outer with
  | nil =>
    left
    refine ⟨.strayClose line, ?_, line, rfl⟩
    rw [closeGroup, groups]
  | cons group outer =>
    right
    have groups' : right.outer = group :: (outer ++ [⟨name, .empty⟩]) := by
      rw [nested.outer, groups, List.cons_append]
    rw [closeGroup_inside groups, closeGroup_inside groups', ← nested.entries]
    have inside : left.scopes.exit.frames ≠ [] := by
      rw [← List.length_pos_iff, Scopes.exit, List.length_tail, depth, groups, List.length_cons]
      omega
    have scopes := nested.scopes.exit
    rw [← Scopes.exit_raised nested.inside] at scopes
    exact .ok ⟨inside, scopes, rfl, rfl⟩

/-- Where a reading alone has come to its end, the closing brace ends the reading in the group. -/
theorem Beside.step_closing {correspondence : Correspondence}
    (beside : Beside correspondence (Nested same name) left right) (clear : left.pending = none)
    (outermost : left.outer = []) (number : Nat) :
    right.step ⟨number, closingLine⟩ =
      .ok ⟨right.scopes.exit, [], .nested name left.entries .empty, none⟩ := by
  have readings := beside.pending
  rw [clear] at readings
  have clear' : right.pending = none := by
    generalize right.pending = reading at readings ⊢
    cases readings
    rfl
  have alone : right.outer = [⟨name, .empty⟩] := by
    rw [beside.related.outer, outermost, List.nil_append]
  rw [step_close clear' rfl, closeGroup_inside alone, ← beside.related.entries]
  rfl

end State

theorem nesting (name : Text) :
    SimulationUnless (fun error => ∃ line, error = .strayClose line) (insideGroup name)
      (State.Nested (insideGroup name).line name) where
  pending nested _ _ := ⟨nested.inside, nested.scopes, nested.outer, nested.entries⟩
  qualified nested := nested.qualified
  contains nested key := by rw [nested.entries]
  local? nested key := by
    rw [← Scopes.local?_raised]
    exact nested.scopes.local? key
  resolve? nested key := by
    rw [← Scopes.resolve?_raised]
    exact nested.scopes.resolve? key
  opened nested key _ := by
    refine ⟨List.cons_ne_nil _ _, nested.scopes.enter, ?_, rfl⟩
    rw [State.openGroup, State.openGroup, nested.outer, nested.entries, List.cons_append]
  inserted nested key value _ :=
    ⟨nested.inside, nested.scopes, nested.outer, by rw [nested.entries]⟩
  declared nested key value _ _ lines := by
    refine ⟨List.cons_ne_nil _ _, ?_, nested.outer, nested.entries⟩
    rw [Scopes.extend_raised nested.inside]
    exact nested.scopes.extend key value lines
  closed nested sound _ _ _ := nested.closed sound

theorem run_enclosing {name : Text} (named : IsName name) :
    State.start.run (contentLines [name ++ [' ', '{']] 1) = .ok (State.start.openGroup name) := by
  have ends : trimEnd (name ++ [' ', '{']) = name ++ [' ', '{'] := by
    have last := trimEnd_of_last (name ++ [' ']) '{' (by decide)
    rwa [List.append_assoc] at last
  have content : contentLines [name ++ [' ', '{']] 1 = [⟨1, name ++ [' ', '{']⟩] :=
    content_of_name 0 1 name [' ', '{'] [' ', '{'] named ends
  have shown : Statement.ofText? (name ++ [' ', '{']) = some (.opening .key name) :=
    Statement.ofText?_key name [' ', '{'] named (by simp [show isNameChar ' ' = false by decide])
  rw [content, State.run_cons, State.step_opening rfl shown rfl, ok_bind, State.run_nil]

theorem parse_enclosed_eq {name : Text} (named : IsName name) (text : Text) :
    parse (enclosed name text) =
      (State.start.openGroup name).run (contentLines (physicalLines text) 2) >>= fun state =>
        state.step ⟨(physicalLines text).length + 2, closingLine⟩ >>=
          State.finish ((physicalLines text).length + 2) := by
  have first : physicalLines (name ++ [' ', '{']) = [name ++ [' ', '{']] := by
    apply physicalLines_clean
    simp [named.clean]
  have later : contentLines (physicalLines (text ++ '\n' :: ['}'])) 2 =
      contentLines (physicalLines text) 2 ++ [⟨(physicalLines text).length + 2, closingLine⟩] := by
    rw [physicalLines_append, contentLines_append, Nat.add_comm 2]
    exact congrArg _ (content_closingLine 0 _)
  have total : 1 + (physicalLines (text ++ '\n' :: ['}'])).length =
      (physicalLines text).length + 2 := by
    rw [physicalLines_append, List.length_append, Nat.add_comm 1]
    rfl
  rw [enclosed, parse_append, Source.ofText, first, run_enclosing named, ok_bind,
    List.length_singleton, later, total, State.run_append, bind_assoc]
  simp only [State.run_cons, State.run_nil, bind_assoc]
  rfl

/-- A whole text in a group is the group of its entries, in their order. A fault of a text stays
that fault in a group, one line later and with the name of the group before its path, unless the
text closes too many groups or stops too early. -/
theorem parse_enclosed (name text : Text) (named : IsName name) :
    (∀ tree, parse text = .ok tree →
      parse (enclosed name text) = .ok (.nested name tree .empty)) ∧
    ∀ error, parse text = .error error → (∀ line, error ≠ .strayClose line) →
      (∀ line, error ≠ .unfinished line) →
      ∃ error', parse (enclosed name text) = .error error' ∧
        error.Alike (insideGroup name) error' := by
  have lines := alike_contentLines (insideGroup name).line (physicalLines text) 1 2
    fun place _ => Nat.add_right_comm 1 1 place
  have start : State.Beside (insideGroup name) (State.Nested (insideGroup name).line name) .start
      (State.start.openGroup name) := ⟨State.nested_start _ name, .none⟩
  have agree := (nesting name).run start State.sound_start lines
  rw [parse_enclosed_eq named]
  constructor
  · intro tree read
    obtain ⟨final, ran, clear, outermost, rfl⟩ := parse_eq_ok_iff.mp read
    obtain ⟨final', ranInside, beside⟩ := agree.of_ok ran
    rw [ranInside, ok_bind, beside.step_closing clear outermost, ok_bind]
    rfl
  · intro error failed notStray notUnfinished
    rcases parse_eq_error_cases failed with ⟨stopped, -⟩ | ⟨final, -, early⟩
    · have strict : ¬ ∃ line, error = .strayClose line := fun ⟨line, stray⟩ => notStray line stray
      obtain ⟨error', stoppedInside, alike⟩ := agree.of_error stopped strict
      exact ⟨error', by rw [stoppedInside, error_bind], alike⟩
    · exact absurd early (notUnfinished _)

theorem parse_enclosed_hidden :
    let hidden : Text := "$x = 1\nh \x7b\n$x = 2\na = $x\n\x7d\nb = $x".toList
    let twice : Text := "h \x7b\n$x = 1\n$x = 2\n\x7d".toList
    IsName ['g'] ∧
      parse (enclosed ['g'] hidden) =
        .ok (.nested ['g'] (.nested ['h'] (.scalar ['a'] ['2'] .empty) (.scalar ['b'] ['1'] .empty))
          .empty) ∧
      parse twice = .error (.duplicateVariable "h/x".toList 3 2) ∧
      parse (enclosed ['g'] twice) = .error (.duplicateVariable "g/h/x".toList 4 3) := by
  intro hidden twice
  have named : IsName ['g'] := by decide
  have read : parse hidden =
      .ok (.nested ['h'] (.scalar ['a'] ['2'] .empty) (.scalar ['b'] ['1'] .empty)) := by
    decide +kernel
  have failed : parse twice = .error (.duplicateVariable "h/x".toList 3 2) := by decide +kernel
  refine ⟨named, (parse_enclosed _ hidden named).1 _ read, failed, ?_⟩
  obtain ⟨error, enclosedFailed, alike⟩ := (parse_enclosed _ twice named).2 _ failed
    (fun line => by simp) (fun line => by simp)
  rw [enclosedFailed]
  cases alike with
  | duplicateVariable paths lines firsts =>
    rw [paths, lines, firsts]
    rfl

end ScopedConfig
