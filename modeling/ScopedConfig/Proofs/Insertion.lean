import ScopedConfig.Insertion
import ScopedConfig.Proofs.Enclosure
import ScopedConfig.Proofs.Forgetting
import ScopedConfig.Proofs.RenderedLines

namespace ScopedConfig

variable {text name value : Text} {count : Nat} {state : State}

theorem declarationLine_eq (name value : Text) :
    declarationLine name value =
      '$' :: (name ++ assignment ('\x22' :: (value ++ ['\x22']))) := by
  simp [declarationLine, assignment]

theorem declarationLine_clean (named : IsName name) (clean : '\n' ∉ value) :
    '\n' ∉ declarationLine name value := by
  simp [declarationLine, named.clean, clean]

theorem ofText?_declarationLine (value : Text) (named : IsName name) :
    Statement.ofText? (declarationLine name value) =
      some (.value .binding name ('\x22' :: (value ++ ['\x22']))) := by
  have blank : isNameChar ' ' = false := by decide
  rw [declarationLine_eq, Statement.ofText?_binding name _ named (by simp [assignment, blank]),
    dropSeparator_assignment '\x22' _ (by decide), Statement.ofParts, if_neg (by simp)]

theorem content_declarationLine (name value : Text) :
    LineKind.ofText (declarationLine name value) = .content ∧
      trim (declarationLine name value) = declarationLine name value := by
  have visible : ∀ c ∈ (declarationLine name value).head?, isSpace c = false := by
    intro c first
    obtain rfl : '$' = c := Option.some.inj first
    decide
  have ends : trimEnd (declarationLine name value) = declarationLine name value :=
    trimEnd_of_last ('$' :: (name ++ " = ".toList ++ '\x22' :: value)) '\x22' (by decide)
  have trimmed := trim_line [] (declarationLine name value) (blank_replicate 0) visible ends
  exact ⟨LineKind.ofText_content _ _ '$' trimmed (by decide), trimmed⟩

theorem State.step_declarationLine (number : Nat) (named : IsName name) (free : '\x22' ∉ value)
    (clear : state.pending = none) (fresh : state.scopes.local? name = none) :
    state.step ⟨number, declarationLine name value⟩ =
      .ok { state with scopes := state.scopes.extend name ⟨value, number⟩ } := by
  have tokens : lex number false ('\x22' :: (value ++ ['\x22'])) =
      .ok ⟨[⟨.quoted value, false, number⟩], false⟩ := by
    rw [lex_quoted number false '\x22' value [] (by decide) free, lex_nil]
    rfl
  have joined : join state.scopes (state.qualified name) [⟨.quoted value, false, number⟩] =
      .ok value := by
    simp [join, joinAfter, Token.text, Token.separator, ok_bind, pure, Except.pure]
  have settled : state.settle ⟨.binding, name, number, ⟨_, false⟩⟩ = _ :=
    settle_binding rfl joined fresh
  rw [step_value clear (ofText?_declarationLine value named) (checkNew_binding fresh), tokens,
    ok_bind, settled, ← clear]

theorem undeclared_of_absent (within : count ≤ (physicalLines text).length)
    (read : stateAfter text count = .ok state) (absent : ¬ '$' :: name <:+: text) :
    ∀ frame ∈ state.scopes.frames, ∀ entry ∈ frame, entry.1 ≠ name := by
  have recorded := recorded_of_run (source_split text count within) read
  rintro frame member entry inside rfl
  obtain ⟨line, present, -, shown⟩ := recorded.scopes.declared frame member entry inside
  obtain ⟨physical, found, trimmed⟩ := mem_contentLines present
  have part := infix_of_mem_physicalLines (List.mem_of_mem_take found)
  rw [← trimmed] at shown
  exact absent ((shown.isInfix.trans (trim_inside physical)).trans part)

theorem unmentioned_of_absent (absent : ¬ '$' :: name <:+: text) (count first : Nat) :
    ∀ line ∈ contentLines ((physicalLines text).drop count) first,
      ¬ '$' :: name <:+: line.text := by
  intro line present mentioned
  obtain ⟨physical, found, trimmed⟩ := mem_contentLines present
  have part := infix_of_mem_physicalLines (List.mem_of_mem_drop found)
  rw [← trimmed] at mentioned
  exact absent ((mentioned.trans (trim_inside physical)).trans part)

theorem physicalLines_withLine (text line : Text) (count : Nat) (clean : '\n' ∉ line) :
    physicalLines (withLine text count line) =
      (physicalLines text).take count ++ line :: (physicalLines text).drop count := by
  apply List.splitOn_intercalate
  · intro part member
    rcases List.mem_append.mp member with kept | member
    · exact splitOn_free '\n' text part (List.mem_of_mem_take kept)
    · rcases List.mem_cons.mp member with rfl | kept
      · exact clean
      · exact splitOn_free '\n' text part (List.mem_of_mem_drop kept)
  · simp

theorem lines_withLine (text line : Text) (count : Nat) (clean : '\n' ∉ line)
    (within : count ≤ (physicalLines text).length) :
    (physicalLines (withLine text count line)).drop (count + 1) =
        (physicalLines text).drop count ∧
      (physicalLines (withLine text count line)).length = (physicalLines text).length + 1 := by
  have front : ((physicalLines text).take count).length = count := List.length_take_of_le within
  rw [physicalLines_withLine text line count clean]
  constructor
  · rw [← List.drop_drop, List.drop_left' front, List.drop_one, List.tail_cons]
  · rw [List.length_append, List.length_cons, front, List.length_drop]
    omega

theorem stateAfter_withLine (within : count ≤ (physicalLines text).length)
    (before : stateAfter text count = .ok state) (clear : state.pending = none)
    (fresh : state.scopes.local? name = none) (named : IsName name) (clean : '\n' ∉ value)
    (free : '\x22' ∉ value) :
    stateAfter (withLine text count (declarationLine name value)) (count + 1) =
      .ok { state with scopes := state.scopes.extend name ⟨value, count + 1⟩ } := by
  have shape := physicalLines_withLine text _ count (declarationLine_clean named clean)
  have front : ((physicalLines text).take count).length = count := List.length_take_of_le within
  have same : stateAfter (withLine text count (declarationLine name value)) count = .ok state := by
    rw [← before, stateAfter, stateAfter, shape, List.take_left' front]
  have next : (physicalLines (withLine text count (declarationLine name value)))[count]? =
      some (declarationLine name value) := by
    rw [shape, List.getElem?_append_right (Nat.le_of_eq front), front, Nat.sub_self,
      List.getElem?_cons_zero]
  obtain ⟨content, trimmed⟩ := content_declarationLine name value
  have lines : contentLines (some (declarationLine name value)).toList (count + 1) =
      [⟨count + 1, declarationLine name value⟩] := by
    simp [contentLines, content, trimmed]
  rw [stateAfter_succ, same, ok_bind, next, lines, State.run_cons,
    State.step_declarationLine (count + 1) named free clear fresh]
  rfl

theorem State.forget_extended (sound : state.Sound) (declared : Variable)
    (undeclared : ∀ frame ∈ state.scopes.frames, ∀ entry ∈ frame, entry.1 ≠ name) :
    ({ state with scopes := state.scopes.extend name declared } : State).forget name = state := by
  have inside : state.scopes.frames ≠ [] := by
    intro none
    have depth := sound.frames
    rw [none] at depth
    contradiction
  rw [forget, Scopes.forget_extend_self state.scopes declared inside undeclared]

/-- A declaration of a variable that the text does not mention, put where a statement may begin,
changes nothing: the text is read as the same tree, or with the same error, one line further down if
it comes after the declaration. -/
theorem parse_withLine (text name value : Text) (count : Nat)
    (between : BetweenStatements text count) (named : IsName name)
    (absent : ¬ '$' :: name <:+: text) (clean : '\n' ∉ value) (free : '\x22' ∉ value) :
    Agree (ParseError.Alike (movedDown count)) Eq (parse text)
      (parse (withLine text count (declarationLine name value))) := by
  obtain ⟨within, state, before, clear⟩ := between
  have sound := sound_of_stateAfter before
  have undeclared := undeclared_of_absent within before absent
  have fresh : state.scopes.local? name = none := by
    rw [Option.eq_none_iff_forall_ne_some]
    intro declared found
    obtain ⟨frame, member, inside⟩ := Scopes.mem_of_local? found
    exact undeclared frame member _ inside rfl
  have after := stateAfter_withLine within before clear fresh named clean free
  have forgotten := State.forget_extended sound ⟨value, count + 1⟩ undeclared
  have unmentioned := unmentioned_of_absent absent count (count + 1 + 1)
  have lineClean : '\n' ∉ declarationLine name value := declarationLine_clean named clean
  obtain ⟨later, total⟩ := lines_withLine text _ count lineClean within
  -- Both texts are read from the same state, but for a variable that no line mentions.
  rw [parse_split text count within, before, ok_bind,
    parse_split (withLine text count (declarationLine name value)) (count + 1) (by omega), after,
    ok_bind, later, total, State.finish_run_of_forget forgotten clear unmentioned]
  have numbers : ∀ place < ((physicalLines text).drop count).length,
      (movedDown count).line (count + 1 + place) (count + 1 + 1 + place) := by
    intro place _
    exact Or.inr ⟨by omega, by omega⟩
  have lines := alike_contentLines (movedDown count).line _ (count + 1) (count + 1 + 1) numbers
  have simulation := renumbering (movedDown count) fun _ => rfl
  have start : State.Beside (movedDown count) (State.Renumbered (movedDown count).line)
      state state := by
    have scopes : Scopes.Alike (movedDown count).line state.scopes state.scopes :=
      alike_stateAfter (fun line here => Or.inl ⟨here, rfl⟩) before
    refine ⟨⟨scopes, rfl, rfl⟩, ?_⟩
    rw [clear]
    exact .none
  apply (simulation.run start sound lines).bind
  intro final final' _ _ beside
  refine beside.finish ?_ ?_ rfl
  · rw [beside.related.outer]
  · intro _
    exact beside.related.entries

theorem parse_withLine_inside :
    let text : Text := "g \x7b\n$x = 1\n\na = $x\n$x = 2\n\x7d".toList
    BetweenStatements text 3 ∧ IsName ['n'] ∧ ¬ ['$', 'n'] <:+: text ∧
      Agree (ParseError.Alike (movedDown 3)) Eq (parse text)
        (parse (withLine text 3 (declarationLine ['n'] "'$x' \\".toList))) := by
  intro text
  have read : stateAfter text 3 =
      .ok ⟨⟨[[(['x'], ⟨['1'], 2⟩)], []]⟩, [⟨['g'], .empty⟩], .empty, none⟩ := by decide +kernel
  have between : BetweenStatements text 3 := ⟨by decide +kernel, _, read, rfl⟩
  have named : IsName ['n'] := by decide
  have absent : ¬ ['$', 'n'] <:+: text := by decide +kernel
  exact ⟨between, named, absent,
    parse_withLine text ['n'] _ 3 between named absent (by decide +kernel) (by decide +kernel)⟩

end ScopedConfig
