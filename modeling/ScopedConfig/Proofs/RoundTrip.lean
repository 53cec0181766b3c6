import ScopedConfig.Proofs.RenderedLines

/-!
Reading what was written. The canonical text of a group with proper keys reads back as the group,
entry by entry, if no scalar of it holds a line feed. The first scalar that does ends the reading
with an unmatched quote, on the line on which that scalar starts.
-/

namespace ScopedConfig

namespace Group

def indented (depth : Nat) (group : Group) : Text := (group.lines depth).flatMap (· ++ ['\n'])

theorem count_indented (group : Group) (depth other : Nat) :
    (group.indented depth).count '\n' = (group.indented other).count '\n' := by
  induction group generalizing depth other with
  | empty => rfl
  | scalar key value rest ih =>
    have later := ih depth other
    simp only [indented] at later
    simp only [indented, lines, List.flatMap_cons, List.count_append, count_indentation, later]
  | nested key body rest bodyIH ih =>
    have within := bodyIH (depth + 1) (other + 1)
    have later := ih depth other
    simp only [indented] at within later
    simp only [indented, lines, List.cons_append, List.flatMap_cons, List.flatMap_append,
      List.count_append, count_indentation, within, later]

theorem indented_scalar (depth : Nat) (key value : Text) (rest : Group) :
    (scalar key value rest).indented depth =
      indentation depth ++ scalarLine key value ++ '\n' :: rest.indented depth := by
  simp [indented, lines]

theorem indented_nested (depth : Nat) (key : Text) (body rest : Group) :
    (nested key body rest).indented depth =
      indentation depth ++ openingLine key ++ '\n' :: (body.indented (depth + 1) ++
        (indentation depth ++ closingLine ++ '\n' :: rest.indented depth)) := by
  simp [indented, lines]

theorem length_physical (group : Group) (depth : Nat) :
    ((group.lines depth).flatMap physicalLines).length = group.height := by
  have ended := congrArg List.length (physicalLines_ended (group.lines depth))
  rw [length_physicalLines, List.length_append, List.length_singleton] at ended
  have level := count_indented group depth 0
  simp only [indented] at level
  rw [height, render]
  omega

theorem length_physical_scalar (depth : Nat) (key value : Text) :
    (physicalLines (indentation depth ++ scalarLine key value)).length =
      (scalarLine key value).count '\n' + 1 := by
  rw [length_physicalLines, List.count_append, count_indentation, Nat.zero_add]

theorem content_nested (depth first : Nat) (key : Text) (body rest : Group) (named : IsName key) :
    contentLines (((nested key body rest).lines depth).flatMap physicalLines) first =
      ⟨first, openingLine key⟩ ::
        (contentLines ((body.lines (depth + 1)).flatMap physicalLines) (first + 1) ++
          ⟨first + 1 + body.height, closingLine⟩ ::
            contentLines ((rest.lines depth).flatMap physicalLines) (first + body.height + 2)) := by
  have number : first + 1 + body.height + 1 = first + body.height + 2 := by omega
  rw [lines, List.cons_append, List.flatMap_cons, physicalLines_openingLine depth key named,
    List.flatMap_append, List.flatMap_cons, physicalLines_closingLine, List.singleton_append,
    contentLines_cons, content_openingLine depth first key named, contentLines_append,
    length_physical, List.singleton_append, List.singleton_append, contentLines_cons,
    content_closingLine, number]
  rfl

def firstBroken? (group : Group) (first : Nat) : Option (Nat × Text) :=
  (group.placedScalars first).find? fun place => '\n' ∈ place.2

theorem firstBroken?_scalar (key value : Text) (rest : Group) (first : Nat) :
    (scalar key value rest).firstBroken? first =
      if '\n' ∈ value then some (first, value)
      else rest.firstBroken? (first + (scalarLine key value).count '\n' + 1) := by
  by_cases broken : '\n' ∈ value <;> simp [firstBroken?, placedScalars, broken]

theorem firstBroken?_nested (key : Text) (body rest : Group) (first : Nat) :
    (nested key body rest).firstBroken? first =
      (body.firstBroken? (first + 1)).or (rest.firstBroken? (first + body.height + 2)) := by
  simp [firstBroken?, placedScalars, List.find?_append]

end Group

namespace State

def afterLines (state : State) (group : Group) (first : Nat) : Except ParseError State :=
  match group.firstBroken? first with
  | none => .ok { state with entries := state.entries.append group }
  | some (line, value) => .error (.unmatchedQuote (breakQuote value) line)

theorem run_scalarLine (state : State) (depth first : Nat) (key value : Text) (later : List Line)
    (named : IsName key) (clear : state.pending = none)
    (fresh : state.entries.contains key = false) :
    state.run (contentLines (physicalLines (indentation depth ++ scalarLine key value)) first ++
        later) =
      if '\n' ∈ value then .error (.unmatchedQuote (breakQuote value) first)
      else run { state with entries := state.entries.insert key (.scalar value) } later := by
  by_cases broken : '\n' ∈ value
  · obtain ⟨whole, opened, more, content, sound, isQuoted, free⟩ :=
      content_cutLine depth first key value named broken
    rw [if_pos broken, content, List.cons_append, run_cons,
      step_cutLine first key opened whole _ named clear fresh sound isQuoted free]
    rfl
  · rw [if_neg broken, content_scalarLine depth first key value named broken,
      List.singleton_append, run_cons, step_scalarLine first key value named clear fresh]
    rfl

theorem fresh_after_insert (entries rest : Group) (key : Text) (entry : Entry)
    (unique : key ∉ rest.keys) (fresh : ∀ other ∈ rest.keys, entries.contains other = false) :
    ∀ other ∈ rest.keys, (entries.insert key entry).contains other = false := by
  intro other member
  have different : key ≠ other := fun same => unique (same ▸ member)
  rw [Group.contains_insert_new key other entry entries different]
  exact fresh other member

/-- Reading the lines of a group adds its entries one after the other and leaves everything else
as it was. -/
theorem run_lines (group : Group) (named : group.WellNamed) (state : State)
    (clear : state.pending = none)
    (fresh : ∀ key ∈ group.keys, state.entries.contains key = false) (depth first : Nat) :
    state.run (contentLines ((group.lines depth).flatMap physicalLines) first) =
      state.afterLines group first := by
  induction group generalizing state depth first with
  | empty =>
    simp [Group.lines, afterLines, Group.firstBroken?, Group.placedScalars, contentLines, run_nil,
      Group.append_empty]
  | scalar key value rest ih =>
    obtain ⟨proper, unique, restNamed⟩ := named
    have new : state.entries.contains key = false := fresh key (by simp)
    have others := fresh_after_insert state.entries rest key (.scalar value) unique
      fun other member => fresh other (by simp [member])
    rw [Group.lines, List.flatMap_cons, contentLines_append, run_scalarLine state depth first key
      value _ proper clear new, afterLines, Group.firstBroken?_scalar]
    by_cases broken : '\n' ∈ value
    · simp only [if_pos broken]
    · simp only [if_neg broken, Group.length_physical_scalar]
      rw [ih restNamed { state with entries := state.entries.insert key (.scalar value) } clear
        others, afterLines]
      simp only [Group.append_insert_new key _ state.entries rest new, Group.cons, Nat.add_assoc]
  | nested key body rest bodyIH ih =>
    obtain ⟨proper, unique, bodyNamed, restNamed⟩ := named
    have new : state.entries.contains key = false := fresh key (by simp)
    have others := fresh_after_insert state.entries rest key (.group body) unique
      fun other member => fresh other (by simp [member])
    have inside := bodyIH bodyNamed (state.openGroup key) rfl (fun _ _ => rfl) (depth + 1) (first + 1)
    rw [Group.content_nested depth first key body rest proper, run_cons,
      step_openingLine first key proper clear new, ok_bind, run_append, inside, afterLines,
      afterLines, Group.firstBroken?_nested]
    cases body.firstBroken? (first + 1) with
    | some place => rfl
    | none =>
      have later := ih restNamed { state with entries := state.entries.insert key (.group body) }
        clear others depth (first + body.height + 2)
      rw [Option.none_or, ok_bind, run_cons, step_close rfl rfl, closeGroup_inside rfl, ok_bind]
      simp only [afterLines, Group.append_insert_new key _ state.entries rest new, clear] at later
      simp only [clear]
      exact later

end State

theorem source_render (group : Group) :
    (Source.ofText group.render).lines =
      contentLines ((group.lines 0).flatMap physicalLines) 1 := by
  have ended := physicalLines_ended (group.lines 0)
  rw [Source.ofText, Group.render, ended, contentLines_append, contentLines_blank, List.append_nil]

theorem parse_render_eq (group : Group) (named : group.WellNamed) :
    parse group.render =
      match group.firstBroken? 1 with
      | none => .ok group
      | some (line, value) => .error (.unmatchedQuote (breakQuote value) line) := by
  have read := State.run_lines group named State.start rfl (fun _ _ => rfl) 0 1
  rw [parse, source_render, read, State.afterLines]
  cases group.firstBroken? 1 with
  | none => rfl
  | some place => rfl

theorem Group.placed_in_text (group : Group) (named : group.WellNamed) (depth first : Nat) :
    ∀ place ∈ group.placedScalars first, place.2 ≠ [] →
      ∃ before after, group.indented depth = before ++ quoteValue place.2 ++ after ∧
        place.1 = first + before.count '\n' := by
  induction group generalizing depth first with
  | empty => simp [placedScalars]
  | scalar key value rest ih =>
    obtain ⟨proper, -, restNamed⟩ := named
    intro place member written
    rw [placedScalars, List.mem_cons] at member
    rcases member with rfl | member
    · refine ⟨indentation depth ++ key ++ [' ', '=', ' '], '\n' :: rest.indented depth, ?_, ?_⟩
      · rw [indented_scalar, scalarLine_eq key value written]
        simp [assignment]
      · have unbroken : key.count '\n' = 0 := List.count_eq_zero.mpr proper.clean
        simp [List.count_append, count_indentation, unbroken]
    · obtain ⟨before, after, text, line⟩ := ih restNamed depth _ place member written
      refine ⟨indentation depth ++ scalarLine key value ++ '\n' :: before, after, ?_, ?_⟩
      · rw [indented_scalar, text]
        simp
      · rw [line, List.count_append, List.count_append, count_indentation, List.count_cons_self]
        omega
  | nested key body rest bodyIH ih =>
    obtain ⟨proper, -, bodyNamed, restNamed⟩ := named
    have opening : (openingLine key).count '\n' = 0 :=
      List.count_eq_zero.mpr (openingLine_clean key proper.clean)
    intro place member written
    rw [placedScalars, List.mem_append] at member
    rcases member with member | member
    · obtain ⟨before, after, text, line⟩ := bodyIH bodyNamed (depth + 1) _ place member written
      refine ⟨indentation depth ++ openingLine key ++ '\n' :: before, after ++
        (indentation depth ++ closingLine ++ '\n' :: rest.indented depth), ?_, ?_⟩
      · rw [indented_nested, text]
        simp
      · rw [line, List.count_append, List.count_append, count_indentation, List.count_cons_self,
          opening]
        omega
    · obtain ⟨before, after, text, line⟩ := ih restNamed depth _ place member written
      have within := count_indented body (depth + 1) 0
      have closing : closingLine.count '\n' = 0 := by decide
      refine ⟨indentation depth ++ openingLine key ++ '\n' :: (body.indented (depth + 1) ++
        (indentation depth ++ closingLine ++ '\n' :: before)), after, ?_, ?_⟩
      · rw [indented_nested, text]
        simp
      · simp only [line, List.count_append, count_indentation, List.count_cons_self, opening,
          closing, within]
        rw [height, render, indented]
        omega

/-- Reading the text of a group gives the group, or fails on the line of its first scalar with a
line feed. -/
theorem parse_render (tree : Group) (named : tree.WellNamed) :
    ((∀ place ∈ tree.placedScalars 1, '\n' ∉ place.2) → parse tree.render = .ok tree) ∧
    ((∃ place ∈ tree.placedScalars 1, '\n' ∈ place.2) →
      ∃ line value before after,
        (tree.placedScalars 1).find? (fun place => '\n' ∈ place.2) = some (line, value) ∧
        tree.render = before ++ quoteValue value ++ after ∧ line = before.count '\n' + 1 ∧
        parse tree.render = .error (.unmatchedQuote
          (if '\x22' ∈ value ∧ '\x27' ∉ value then '\x27' else '\x22') line)) ∧
    ∀ other, parse tree.render = .ok other → other = tree := by
  have outcome := parse_render_eq tree named
  refine ⟨?_, ?_, ?_⟩
  · intro clean
    have unbroken : tree.firstBroken? 1 = none := by
      simpa [Group.firstBroken?] using clean
    rw [outcome, unbroken]
  · rintro ⟨place, member, broken⟩
    have found : (tree.firstBroken? 1).isSome = true := by
      rw [Group.firstBroken?, List.find?_isSome]
      exact ⟨place, member, by simpa using broken⟩
    obtain ⟨⟨line, value⟩, first⟩ := Option.isSome_iff_exists.mp found
    have within := List.mem_of_find?_eq_some first
    have feed : '\n' ∈ value := by simpa using List.find?_some first
    obtain ⟨before, after, text, number⟩ := tree.placed_in_text named 0 1 (line, value) within
      (List.ne_nil_of_mem feed)
    refine ⟨line, value, before, after, first, text, by simpa [Nat.add_comm] using number, ?_⟩
    rw [outcome, first]
    rfl
  · intro other read
    rw [outcome] at read
    split at read
    · exact (Except.ok.inj read).symm
    · contradiction

/-- Both quotes in one scalar of an inner group read back; a line feed after a double quote stops
the reading on the fourth line, where its scalar starts. -/
theorem parse_render_quotes :
    let inner : Group := .scalar ['v'] ['\'', ' ', '\x22', '#'] .empty
    let clean : Group := .nested ['g'] inner (.scalar ['e'] [] .empty)
    let broken : Group := .nested ['g'] inner (.scalar ['w'] ['\x22', '\n', '$'] .empty)
    parse clean.render = .ok clean ∧
      parse broken.render = .error (.unmatchedQuote '\'' 4) := by
  intro inner clean broken
  refine ⟨(parse_render clean (by decide +kernel)).1 (by decide +kernel), ?_⟩
  obtain ⟨line, value, before, after, first, -, -, failed⟩ :=
    (parse_render broken (by decide +kernel)).2.1
      ⟨(4, ['\x22', '\n', '$']), by decide +kernel, by decide +kernel⟩
  have found : some (4, ['\x22', '\n', '$']) = some (line, value) :=
    Eq.trans (by decide +kernel) first
  cases found
  exact failed

end ScopedConfig
