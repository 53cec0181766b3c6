import ScopedConfig.Group.Render
import ScopedConfig.Proofs.Grammar
import ScopedConfig.Proofs.Records

/-!
A text and what may follow it. The first fault decides, whatever comes after it; what has been read
to an end stays at the front; and a text that stops too early can be completed, since every value
can be ended and every open group closed.
-/

namespace ScopedConfig

def endingLine : Text := ['\x22', '\x22']

namespace State

variable {state : State}

def closeAll : List OpenGroup → Group → Group
  | [], entries => entries
  | group :: outer, entries => closeAll outer (group.before.insert group.name (.group entries))

theorem run_closing (clear : state.pending = none) (lines : List Line)
    (braces : lines.map Line.text = List.replicate state.outer.length closingLine) :
    ∃ scopes, state.run lines = .ok ⟨scopes, [], closeAll state.outer state.entries, none⟩ := by
  induction lines generalizing state with
  | nil =>
    have depth := congrArg List.length braces
    rw [List.length_replicate, List.map_nil, List.length_nil] at depth
    have outermost := List.eq_nil_of_length_eq_zero depth.symm
    refine ⟨state.scopes, ?_⟩
    rw [run_nil, outermost, closeAll, ← outermost, ← clear]
  | cons line lines ih =>
    obtain ⟨number, text⟩ := line
    cases inside : state.outer with
    | nil => simp [inside] at braces
    | cons group outer =>
      rw [inside, List.length_cons, List.replicate_succ, List.map_cons, List.cons.injEq] at braces
      obtain ⟨rfl, later⟩ := braces
      obtain ⟨scopes, ran⟩ := @ih ⟨state.scopes.exit, outer,
        group.before.insert group.name (.group state.entries), none⟩ rfl later
      refine ⟨scopes, ?_⟩
      rw [run_cons, step_close clear rfl, closeGroup_inside inside, ok_bind, ran, closeAll]

/-- A value that is being read ends on a line of its own, if the variables that it mentions are
known. -/
theorem step_ending (sound : state.Sound) {pending : Pending}
    (reading : state.pending = some pending) (number : Nat) :
    (∃ next, state.step ⟨number, endingLine⟩ = .ok next ∧ next.pending = none ∧
        next.outer = state.outer) ∨
      ∃ token ∈ pending.segment.tokens, ∃ name, state.step ⟨number, endingLine⟩ =
        .error (.unknownVariable name (state.qualified pending.name) token.line) := by
  have free := sound.awaited pending reading
  obtain ⟨target, name, line, segment⟩ := pending
  have nothing : lex number true endingLine = .ok ⟨[⟨.quoted [], true, number⟩], false⟩ := by
    have read := lex_quoted number true '\x22' [] [] (by decide) List.not_mem_nil
    rw [lex_nil] at read
    exact read
  have ended : state.step ⟨number, endingLine⟩ = state.assign
      ⟨target, name, line, ⟨segment.tokens ++ [⟨.quoted [], true, number⟩], false⟩⟩ := by
    rw [step_pending reading, Segment.extend, nothing]
    rfl
  rw [ended]
  cases joined : join state.scopes (state.qualified name)
      (segment.tokens ++ [⟨.quoted [], true, number⟩]) with
  | error error =>
    obtain ⟨token, member, missing, reference, rfl⟩ := joinAfter_error joined
    rcases List.mem_append.mp member with member | last
    · exact Or.inr ⟨token, member, missing, by rw [assign, joined, error_bind]⟩
    · rw [List.mem_singleton.mp last] at reference
      contradiction
  | ok value =>
    left
    cases target with
    | key => exact ⟨_, assign_key joined, rfl, rfl⟩
    | binding => exact ⟨_, assign_binding joined (unbound_of_checkNew free), rfl, rfl⟩

theorem run_completed (sound : state.Sound) :
    ∃ texts : List Text, (∀ text ∈ texts, contentTexts text = [text]) ∧
      ∀ lines : List Line, lines.map Line.text = texts →
        (∃ final, state.run lines = .ok final ∧ final.pending = none ∧ final.outer = []) ∨
          ∃ pending ∈ state.pending, ∃ token ∈ pending.segment.tokens, ∃ name path,
            state.run lines = .error (.unknownVariable name path token.line) := by
  have plainBrace : contentTexts closingLine = [closingLine] := by decide +kernel
  have plainEnd : contentTexts endingLine = [endingLine] := by decide +kernel
  have plain : ∀ text ∈ List.replicate state.outer.length closingLine,
      contentTexts text = [text] := by
    intro text member
    rw [List.eq_of_mem_replicate member, plainBrace]
  cases reading : state.pending with
  | none =>
    refine ⟨_, plain, fun lines braces => Or.inl ?_⟩
    obtain ⟨scopes, ran⟩ := run_closing reading lines braces
    exact ⟨_, ran, rfl, rfl⟩
  | some pending =>
    refine ⟨endingLine :: List.replicate state.outer.length closingLine, ?_, ?_⟩
    · intro text member
      rcases List.mem_cons.mp member with rfl | member
      · exact plainEnd
      · exact plain text member
    · intro lines shape
      obtain ⟨⟨number, text⟩, braces, rfl, rfl, rest⟩ := List.map_eq_cons_iff.mp shape
      rcases step_ending sound reading number with ⟨next, ended, clear, same⟩ |
        ⟨token, member, name, unknown⟩
      · obtain ⟨scopes, ran⟩ := run_closing clear braces (by rw [rest, same])
        exact Or.inl ⟨_, by rw [run_cons, ended, ok_bind, ran], rfl, rfl⟩
      · refine Or.inr ⟨pending, rfl, token, member, name, state.qualified pending.name, ?_⟩
        rw [run_cons, unknown, error_bind]

end State

theorem line_of_pending {text : Text} {final : State} {pending : Pending}
    (ran : State.start.run (Source.ofText text).lines = .ok final)
    (reading : final.pending = some pending) (token : Token)
    (member : token ∈ pending.segment.tokens) :
    1 ≤ token.line ∧ token.line ≤ (physicalLines text).length := by
  have recorded := recorded_of_run (List.append_nil _).symm ran
  obtain ⟨line, present, number, -⟩ := (recorded.reading pending reading).spelled token member
  obtain ⟨positive, bounded, -⟩ := mem_source present
  rw [← number]
  exact ⟨positive, bounded⟩

theorem State.Sound.outermost {state : State} (sound : state.Sound) (clear : state.pending = none)
    (outermost : state.outer = []) : ∃ own, state.Within [] own state.entries.keys := by
  have depth := sound.frames
  rw [outermost] at depth
  obtain ⟨frame, alone⟩ := List.length_eq_one_iff.mp depth
  refine ⟨frame.bindings, clear, by rw [Scopes.bindings, alone]; rfl, fun key => ?_⟩
  rw [Group.contains_iff]

/-- A fault stays the first one however the text goes on. A text that only stops too early says how
many lines it has, and can be completed unless a value in it mentions an unknown variable. What a
whole text says comes first in every longer text. -/
theorem parse_extended (text : Text) :
    (∀ error, parse text = .error error → (∀ line, error ≠ .unfinished line) →
      ∀ more, parse (text ++ '\n' :: more) = .error error) ∧
    (∀ line, parse text = .error (.unfinished line) → line = (physicalLines text).length ∧
      ∃ more, (∃ tree, parse (text ++ '\n' :: more) = .ok tree) ∨
        ∃ name path place, 1 ≤ place ∧ place ≤ (physicalLines text).length ∧
          parse (text ++ '\n' :: more) = .error (.unknownVariable name path place)) ∧
    ∀ tree more longer, parse text = .ok tree → parse (text ++ '\n' :: more) = .ok longer →
      tree.entries <+: longer.entries := by
  refine ⟨?_, ?_, ?_⟩
  · intro error failed fault more
    rcases parse_eq_error_cases failed with ⟨stopped, -⟩ | ⟨final, -, early⟩
    · rw [parse_append, stopped, error_bind]
    · exact absurd early (fault _)
  · intro line failed
    rcases parse_eq_error_cases failed with ⟨-, fault⟩ | ⟨final, ran, early⟩
    · exact absurd rfl (fault line)
    · refine ⟨ParseError.unfinished.inj early, ?_⟩
      obtain ⟨texts, plain, completed⟩ := State.run_completed (State.sound_start.run _ ran)
      refine ⟨texts.flatMap (· ++ ['\n']), ?_⟩
      rw [parse_append, ran, ok_bind]
      have shape := texts_contentLines (physicalLines (texts.flatMap (· ++ ['\n'])))
        ((physicalLines text).length + 1)
      rw [← contentTexts, contentTexts_ended texts plain] at shape
      rcases completed _ shape with ⟨last, ended, clear, outermost⟩ |
        ⟨pending, reading, token, member, name, path, unknown⟩
      · rw [ended, ok_bind]
        exact Or.inl ⟨last.entries, State.finish_eq_ok_iff.mpr ⟨clear, outermost, rfl⟩⟩
      · rw [unknown, error_bind]
        obtain ⟨positive, bounded⟩ := line_of_pending ran reading token member
        exact Or.inr ⟨name, path, token.line, positive, bounded, rfl⟩
  · intro tree more longer read readLonger
    obtain ⟨middle, ran, clear, outermost, rfl⟩ := parse_eq_ok_iff.mp read
    obtain ⟨own, within⟩ := (State.sound_start.run _ ran).outermost clear outermost
    rw [parse_append, ran, ok_bind] at readLonger
    obtain ⟨final, ranOn, finished⟩ := bind_eq_ok.mp readLonger
    obtain ⟨finalClear, finalOutermost, rfl⟩ := State.finish_eq_ok_iff.mp finished
    obtain ⟨others, -, entries⟩ :=
      State.body_of_whole_run within outermost ranOn finalClear finalOutermost
    rw [entries, Group.entries_append]
    exact List.prefix_append _ _

/-- A key given twice, a continued value in a group that mentions an unknown variable, and a text
with a group after which another key comes. -/
theorem parse_extended_twice :
    let twice : Text := "a = 1\n\na".toList
    let stopped : Text := "g \x7b\n$x = $y \\\n\n".toList
    let whole : Text := "g \x7b\na = 1\n\x7d".toList
    parse (twice ++ '\n' :: whole) = .error (.duplicateKey ['a'] 3) ∧
      (∃ more, (∃ tree, parse (stopped ++ '\n' :: more) = .ok tree) ∨
        ∃ name path place, 1 ≤ place ∧ place ≤ (physicalLines stopped).length ∧
          parse (stopped ++ '\n' :: more) = .error (.unknownVariable name path place)) ∧
      (Group.nested ['g'] (.scalar ['a'] ['1'] .empty) .empty).entries <+:
        (Group.nested ['g'] (.scalar ['a'] ['1'] .empty) (.scalar ['a'] ['2'] .empty)).entries := by
  intro twice stopped whole
  have failed : parse twice = .error (.duplicateKey ['a'] 3) := by decide +kernel
  have early : parse stopped = .error (.unfinished 4) := by decide +kernel
  have read : parse whole = .ok (.nested ['g'] (.scalar ['a'] ['1'] .empty) .empty) := by
    decide +kernel
  have longer : parse (whole ++ '\n' :: "a = 2".toList) =
      .ok (.nested ['g'] (.scalar ['a'] ['1'] .empty) (.scalar ['a'] ['2'] .empty)) := by
    decide +kernel
  refine ⟨?_, ?_, ?_⟩
  · exact (parse_extended twice).1 _ failed (fun line => by simp) whole
  · exact ((parse_extended stopped).2.1 4 early).2
  · exact (parse_extended whole).2.2 _ _ _ read longer

end ScopedConfig
