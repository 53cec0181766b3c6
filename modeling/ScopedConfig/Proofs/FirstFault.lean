import ScopedConfig.Enclosure
import ScopedConfig.Proofs.Culprit
import ScopedConfig.Proofs.Prefixes

/-!
A fault at the front of a statement is the first one of its text: the lines before it are read, and
with every open group closed they are a text of their own.
-/

namespace ScopedConfig

theorem stateAfter_of_run {text : Text} {before after : List Line} {line : Line} {reached : State}
    (shape : (Source.ofText text).lines = before ++ line :: after)
    (ran : State.start.run before = .ok reached) :
    stateAfter text (line.number - 1) = .ok reached := by
  obtain ⟨earlier, physical, later, whole, read, rfl, -⟩ := contentLines_cut shape
  have place : (1 + earlier.length) - 1 = earlier.length := Nat.add_sub_cancel_left 1 _
  rw [stateAfter, whole, place, List.take_left, read, ran]

namespace State

theorem follow_closeAll (outer : List OpenGroup) (entries : Group) (keys : List Text) :
    (Entry.group (closeAll outer entries)).follow ((outer.map (·.name)).reverse ++ keys) =
      (Entry.group entries).follow keys := by
  induction outer generalizing entries keys with
  | nil => rfl
  | cons group outer ih =>
    rw [closeAll, List.map_cons, List.reverse_cons, List.append_assoc, List.singleton_append, ih,
      Entry.follow, Group.get?_insert_same]
    rfl

theorem parse_closedAfter {text : Text} {count : Nat} {state : State}
    (read : stateAfter text count = .ok state) (clear : state.pending = none) :
    parse (closedAfter text count state.outer.length) =
      .ok (closeAll state.outer state.entries) := by
  have clean : ∀ line ∈ (physicalLines text).take count ++
      List.replicate state.outer.length ['}'], '\n' ∉ line := by
    intro line member
    rcases List.mem_append.mp member with member | member
    · exact splitOn_free '\n' text line (List.mem_of_mem_take member)
    · rw [List.eq_of_mem_replicate member]
      decide
  have braces (first : Nat) : (contentLines (List.replicate state.outer.length ['}']) first).map
      Line.text = List.replicate state.outer.length closingLine := by
    rw [texts_contentLines, List.map_replicate, List.filter_replicate]
    exact if_pos (by decide +kernel)
  obtain ⟨scopes, ran⟩ := run_closing clear _ (braces (1 + ((physicalLines text).take count).length))
  refine parse_eq_ok_iff.mpr
    ⟨⟨scopes, [], closeAll state.outer state.entries, none⟩, ?_, rfl, rfl, rfl⟩
  rw [Source.ofText, closedAfter, contentLines_intercalate _ clean, contentLines_append, run_append,
    ← stateAfter, read, ok_bind, ran]

theorem follow_path (state : State) :
    (Entry.group (closeAll state.outer state.entries)).follow state.path =
      some (.group state.entries) := by
  have whole := follow_closeAll state.outer state.entries []
  rwa [List.append_nil] at whole

variable {read : List Line} {state : State} {line : Line} {error : ParseError}

/-- A fault at the front of a statement names the line that is refused. No value is being read there,
and its path, if it names one, leads from the open groups to a name. -/
theorem Refuses.atFront (refuses : state.Refuses line error) (front : error.atFront = true) :
    state.pending = none ∧ error.line = line.number ∧
      ∀ path, error.path? = some path → ∃ name, IsName name ∧ path = state.qualified name := by
  cases refuses with
  | strayClose clear shown outermost => exact ⟨clear, rfl, by simp [ParseError.path?]⟩
  | nameExpected clear shown => exact ⟨clear, rfl, by simp [ParseError.path?]⟩
  | duplicateKey clear shown defined taken =>
    obtain ⟨value, head⟩ := head_of_defined shown defined
    exact ⟨clear, rfl, fun path same => ⟨_, head.named, (Option.some.inj same).symm⟩⟩
  | duplicateVariable clear shown defined found =>
    obtain ⟨value, head⟩ := head_of_defined shown defined
    exact ⟨clear, rfl, fun path same => ⟨_, head.named, (Option.some.inj same).symm⟩⟩
  | variableHoldsGroup clear shown =>
    have head := Statement.head_of_opening shown
    exact ⟨clear, rfl, fun path same => ⟨_, head.named, (Option.some.inj same).symm⟩⟩
  | unreadable fault => cases fault <;> contradiction
  | unknownVariable reads reference => contradiction

theorem count_slashes (recorded : state.Recorded read) {name : Text} (named : IsName name) :
    (state.qualified name).count '/' = state.outer.length := by
  have pieces := length_splitOn '/' (state.qualified name)
  rw [splitOn_qualified recorded named] at pieces
  simpa [State.path] using pieces.symm

theorem find?_qualified (recorded : state.Recorded read) {name : Text} (named : IsName name) :
    (closeAll state.outer state.entries).find? (state.qualified name) = state.entries.get? name := by
  have segments : ∀ key ∈ state.path ++ [name], IsSegment key := fun key member =>
    (named_path recorded named key member).isSegment
  rw [Group.find?, qualified, pathKeys_intercalate segments, State.path, follow_closeAll]
  cases found : state.entries.get? name <;> simp [Entry.follow, found]

end State

/-- A fault at the front of a statement is the first one: the lines before it are read once some
groups are closed, none for a brace too many, and as many as the path of the fault has slashes. The
path of a key that is given twice names the groups that are open before the line and then the key; it
leads to the entry that the innermost of them has already. -/
theorem parse_before_fault (text : Text) (error : ParseError) (failed : parse text = .error error)
    (front : error.atFront = true) :
    ∃ braces tree, parse (closedAfter text (error.line - 1) braces) = .ok tree ∧
      (∀ line, error = .strayClose line → braces = 0) ∧
      (∀ path, error.path? = some path → braces = path.count '/') ∧
      ∀ path line, error = .duplicateKey path line → ∃ outer name group entry,
        pathAfter text (line - 1) = .ok outer ∧ path = ['/'].intercalate (outer ++ [name]) ∧
        (Entry.group tree).follow outer = some (.group group) ∧ group.get? name = some entry ∧
        tree.find? path = some entry := by
  rcases parse_eq_error_cases failed with ⟨stopped, -⟩ | ⟨final, -, rfl⟩
  · obtain ⟨before, line, after, state, shape, ran, refuses⟩ :=
      State.run_error State.sound_start stopped
    have recorded := recorded_of_run shape ran
    obtain ⟨clear, number, paths⟩ := refuses.atFront front
    have read := stateAfter_of_run shape ran
    rw [← number] at read
    refine ⟨state.outer.length, _, State.parse_closedAfter read clear, ?_, ?_, ?_⟩
    · rintro number rfl
      cases refuses with
      | strayClose clear shown outermost => rw [outermost, List.length_nil]
      | unreadable fault => cases fault
    · intro path named
      obtain ⟨name, proper, rfl⟩ := paths path named
      exact (State.count_slashes recorded proper).symm
    · rintro path number rfl
      cases refuses with
      | duplicateKey clear shown defined taken =>
        obtain ⟨value, head⟩ := head_of_defined shown defined
        obtain ⟨entry, found⟩ := Option.isSome_iff_exists.mp taken
        refine ⟨state.path, _, state.entries, entry, ?_, rfl, state.follow_path, found, ?_⟩
        · exact map_eq_ok.mpr ⟨state, read, rfl⟩
        · rw [State.find?_qualified recorded head.named, found]
      | unreadable fault => cases fault
  · contradiction

theorem parse_before_fault_nested :
    let text : Text := "g \x7b\nh \x7b\na = 1\n\na \x7b\n\x7d\n\x7d\n\x7d".toList
    parse text = .error (.duplicateKey "g/h/a".toList 5) ∧
      ∃ tree, parse (closedAfter text 4 2) = .ok tree ∧
        tree.find? "g/h/a".toList = some (.scalar ['1']) ∧
        (Entry.group tree).follow [['g'], ['h']] =
          some (.group (.scalar ['a'] ['1'] .empty)) := by
  intro text
  have failed : parse text = .error (.duplicateKey "g/h/a".toList 5) := by decide +kernel
  obtain ⟨braces, tree, read, -, slashes, present⟩ := parse_before_fault text _ failed rfl
  have two : braces = 2 := slashes _ rfl
  rw [two] at read
  obtain ⟨outer, name, group, entry, opened, path, inside, -, found⟩ := present _ _ rfl
  have groups : pathAfter text 4 = .ok [['g'], ['h']] := by decide +kernel
  obtain rfl : [['g'], ['h']] = outer := Except.ok.inj (groups.symm.trans opened)
  have whole : parse (closedAfter text 4 2) =
      .ok (.nested ['g'] (.nested ['h'] (.scalar ['a'] ['1'] .empty) .empty) .empty) := by
    decide +kernel
  obtain rfl := Except.ok.inj (whole.symm.trans read)
  have first : Group.find? (.nested ['g'] (.nested ['h'] (.scalar ['a'] ['1'] .empty) .empty) .empty)
      "g/h/a".toList = some (.scalar ['1']) := by decide +kernel
  cases first.symm.trans found
  cases inside
  exact ⟨failed, _, read, found, rfl⟩

end ScopedConfig
