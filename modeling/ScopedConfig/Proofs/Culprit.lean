import ScopedConfig.Config
import ScopedConfig.Culprit
import ScopedConfig.Proofs.Paths
import ScopedConfig.Proofs.Records

namespace ScopedConfig

theorem named_path {read : List Line} {state : State} (recorded : state.Recorded read)
    {name : Text} (named : IsName name) : ∀ key ∈ state.path ++ [name], IsName key := by
  intro key member
  rcases List.mem_append.mp member with member | member
  · obtain ⟨group, within, rfl⟩ := List.mem_map.mp (List.mem_reverse.mp member)
    exact recorded.named group within
  · rw [List.mem_singleton.mp member]
    exact named

theorem splitOn_qualified {read : List Line} {state : State} (recorded : state.Recorded read)
    {name : Text} (named : IsName name) :
    (state.qualified name).splitOn '/' = state.path ++ [name] := by
  apply List.splitOn_intercalate
  · intro key member
    exact (named_path recorded named key member).noSlash
  · simp

theorem ownName_qualified {read : List Line} {state : State} (recorded : state.Recorded read)
    {name : Text} (named : IsName name) : ownName (state.qualified name) = name := by
  rw [ownName, splitOn_qualified recorded named, List.getLastD_concat]

theorem nameless_of_refused {line : Text} (refused : Statement.ofText? line = none) :
    line ≠ ['}'] ∧ ∀ c ∈ (afterDollar line).head?, isNameChar c = false := by
  have nameless {target : Target} {text : Text}
      (refused : Statement.ofNamed? target text = none) : ∀ c ∈ text.head?, isNameChar c = false := by
    unfold Statement.ofNamed? at refused
    split at refused
    · next unnamed =>
      have nothing := (splitName?_eq_none text).mp unnamed
      have dropped := head?_dropWhile isNameChar text
      have whole := List.takeWhile_append_dropWhile (p := isNameChar) (l := text)
      rw [nothing, List.nil_append] at whole
      rwa [whole] at dropped
    · split at refused <;> contradiction
  unfold Statement.ofText? at refused
  split at refused
  · contradiction
  · exact ⟨by simp, nameless refused⟩
  · next noBrace noDollar =>
    refine ⟨noBrace, ?_⟩
    unfold afterDollar
    split
    · next rest => exact (noDollar rest rfl).elim
    · exact nameless refused

theorem Unreadable.foundOn {number : Nat} {text : Text} {error : ParseError}
    (unreadable : Unreadable number text error) : error.line = number ∧ error.FoundOn text := by
  cases unreadable with
  | unmatchedQuote part isQuoted unclosed =>
    exact ⟨rfl, (isQuote_iff _).mp isQuoted, part.subset List.mem_cons_self⟩
  | @unrecognizedToken rest part nameless =>
    refine ⟨rfl, ⟨_, rfl, ?_⟩, ?_, ?_⟩
    · intro c first
      cases rest with
      | nil => simp at first
      | cons other rest =>
        rw [List.takeWhile_cons] at first
        split at first
        · exact nameless c first
        · contradiction
    · intro c member
      rcases List.mem_cons.mp member with rfl | member
      · decide
      · exact (isVisible_iff c).mp (List.mem_takeWhile_imp member)
    · have front : '$' :: rest.takeWhile isVisible <+: '$' :: rest :=
        List.cons_prefix_cons.mpr ⟨rfl, List.takeWhile_prefix isVisible⟩
      exact front.isInfix.trans part.isInfix

namespace State

variable {read : List Line} {state : State} {line : Line} {error : ParseError}

theorem written_of_refused (recorded : state.Recorded read) {statement : Statement}
    {target : Target} {name : Text} (shown : Statement.ofText? line.text = some statement)
    (defined : statement.defined? = some (target, name)) :
    target.written (ownName (state.qualified name)) <+: line.text := by
  obtain ⟨value, head⟩ := head_of_defined shown defined
  rw [ownName_qualified recorded head.named]
  exact head.written

theorem Recorded.spelled (recorded : state.Recorded read) {token : Token}
    (reads : state.Reads line token) :
    ∃ place ∈ read ++ [line], place.number = token.line ∧ token.kind.spelling <:+: place.text := by
  rcases reads with ⟨pending, reading, member⟩ | ⟨spaced, part, segment, within, lexed, member⟩
  · obtain ⟨place, known, spelled⟩ := (recorded.reading pending reading).spelled token member
    exact ⟨place, List.mem_append_left [line] known, spelled⟩
  · have present : line ∈ read ++ [line] := List.mem_append_right read List.mem_cons_self
    exact spelled_on_line lexed within present token member

/-- Whatever a line is refused for is to be seen on it, or on a line before it that the same value
stands on. -/
theorem Refuses.foundOn (refuses : state.Refuses line error) (recorded : state.Recorded read) :
    ∃ culprit ∈ read ++ [line], culprit.number = error.line ∧ error.FoundOn culprit.text := by
  have present : line ∈ read ++ [line] := List.mem_append_right read List.mem_cons_self
  cases refuses with
  | strayClose clear shown outermost =>
    exact ⟨line, present, rfl, Statement.eq_brace_of_close shown⟩
  | nameExpected clear shown => exact ⟨line, present, rfl, nameless_of_refused shown⟩
  | duplicateKey clear shown defined taken =>
    exact ⟨line, present, rfl, written_of_refused recorded shown defined⟩
  | duplicateVariable clear shown defined found =>
    exact ⟨line, present, rfl, written_of_refused recorded shown defined⟩
  | variableHoldsGroup clear shown =>
    exact ⟨line, present, rfl, written_of_refused recorded shown rfl⟩
  | unreadable fault =>
    obtain ⟨number, found⟩ := fault.foundOn
    exact ⟨line, present, number.symm, found⟩
  | unknownVariable reads reference =>
    obtain ⟨place, known, number, spelled⟩ := recorded.spelled reads
    rw [reference] at spelled
    exact ⟨place, known, number, spelled⟩

theorem Refuses.first_declared {path : Text} {number first : Nat}
    (refuses : state.Refuses line (.duplicateVariable path number first))
    (recorded : state.Recorded read) :
    number = line.number ∧
      ∃ place ∈ read, place.number = first ∧ '$' :: ownName path <+: place.text := by
  cases refuses with
  | unreadable fault => cases fault
  | @duplicateVariable statement name declared clear shown defined found =>
    obtain ⟨value, head⟩ := head_of_defined shown defined
    rw [ownName_qualified recorded head.named]
    obtain ⟨frame, member, within⟩ := Scopes.mem_of_local? found
    exact ⟨rfl, recorded.scopes.declared frame member _ within⟩

end State

/-- A text that does not parse has one of the nine faults of texts. The fault names a line of the
text, the last one if the text stops too early, and otherwise a content line on which the fault is to
be seen. A variable that is declared twice was declared first on a line further up. -/
theorem ofText_error_culprit (text : Text) (error : Error)
    (failed : Config.ofText text = .error error) :
    ∃ fault : ParseError, error = .parse fault ∧
      1 ≤ fault.line ∧ fault.line ≤ (physicalLines text).length ∧
      (fault = .unfinished (physicalLines text).length ∨
        ∃ line, (physicalLines text)[fault.line - 1]? = some line ∧
          LineKind.ofText line = .content ∧ fault.FoundOn (trim line)) ∧
      ∀ path number first, fault = .duplicateVariable path number first →
        1 ≤ first ∧ first < number ∧ ∃ line, (physicalLines text)[first - 1]? = some line ∧
          '$' :: ownName path <+: trim line := by
  unfold Config.ofText at failed
  split at failed
  · contradiction
  · next fault refused =>
    cases failed
    refine ⟨fault, rfl, ?_⟩
    rcases parse_eq_error_cases refused with ⟨stopped, -⟩ | ⟨final, -, rfl⟩
    · obtain ⟨before, line, after, reached, shape, ran, refuses⟩ :=
        State.run_error State.sound_start stopped
      have recorded := recorded_of_run shape ran
      have front : before ++ [line] <+: (Source.ofText text).lines := ⟨after, by simp [shape]⟩
      have inside := front.subset
      obtain ⟨culprit, member, number, found⟩ := refuses.foundOn recorded
      obtain ⟨positive, bounded, physical, place, content, trimmed⟩ := mem_source (inside member)
      rw [← trimmed] at found
      rw [number] at positive bounded place
      refine ⟨positive, bounded, Or.inr ⟨physical, place, content, found⟩, ?_⟩
      rintro path number first rfl
      obtain ⟨rfl, earlier, known, rfl, written⟩ := refuses.first_declared recorded
      obtain ⟨first, -, physical, place, -, trimmed⟩ :=
        mem_source (inside (List.mem_append_left [line] known))
      rw [← trimmed] at written
      have increasing := source_increasing text
      rw [shape] at increasing
      have ordered := (List.pairwise_append.mp increasing).2.2 earlier known line List.mem_cons_self
      exact ⟨first, ordered, physical, place, written⟩
    · have lines := Source.total_pos text
      refine ⟨lines, Nat.le_refl _, Or.inl rfl, ?_⟩
      intro path number first same
      contradiction

theorem ofText_error_culprit_continued :
    let twice : Text := "g \x7b\n$x = 1\n# again\n  $x = 2".toList
    let continued : Text := "a = b \\\n\n  $c".toList
    (∃ line, (physicalLines twice)[1]? = some line ∧ ['$', 'x'] <+: trim line) ∧
      ∃ line, (physicalLines continued)[2]? = some line ∧ LineKind.ofText line = .content ∧
        ['$', 'c'] <:+: trim line := by
  intro twice continued
  have failed : Config.ofText twice =
      .error (.parse (.duplicateVariable "g/x".toList 4 2)) := by decide +kernel
  have failedToo : Config.ofText continued =
      .error (.parse (.unknownVariable ['c'] ['a'] 3)) := by decide +kernel
  constructor
  · obtain ⟨fault, same, -, -, -, firsts⟩ := ofText_error_culprit twice _ failed
    cases same
    obtain ⟨-, -, line, place, written⟩ := firsts _ _ _ rfl
    exact ⟨line, place, written⟩
  · obtain ⟨fault, same, -, -, found, -⟩ := ofText_error_culprit continued _ failedToo
    cases same
    rcases found with early | ⟨line, place, content, shown⟩
    · contradiction
    · exact ⟨line, place, content, shown⟩

end ScopedConfig
