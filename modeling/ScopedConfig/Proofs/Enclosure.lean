import ScopedConfig.Enclosure
import ScopedConfig.Proofs.Emptying
import ScopedConfig.Proofs.Lines

/-!
A group that is closed leaves nothing behind but its entries. Between its lines the frames and the
groups around it are untouched, so that the text without these lines is read alike.
-/

namespace ScopedConfig

namespace State

variable {base state next : State} {name : Text}

/-- A state in the group that was opened under a name in the state `base`: the groups and the frames
of `base` lie below those of the state. -/
structure Inside (base : State) (name : Text) (state : State) : Prop where
  outer : ⟨name, base.entries⟩ :: base.outer <:+ state.outer
  frames : base.scopes.frames <:+ state.scopes.exit.frames

theorem inside_openGroup (base : State) (name : Text) : Inside base name (base.openGroup name) :=
  ⟨List.suffix_refl _, List.suffix_refl _⟩

theorem Inside.path (inside : Inside base name state) :
    ∃ inner, state.path = base.path ++ name :: inner := by
  obtain ⟨groups, shape⟩ := inside.outer
  refine ⟨(groups.map (·.name)).reverse, ?_⟩
  rw [State.path, State.path, ← shape]
  simp

theorem suffix_tail {short long : List Frame} (within : short <:+ long)
    (shorter : short.length < long.length) : short <:+ long.tail := by
  cases long with
  | nil => exact absurd shorter (Nat.not_lt_zero _)
  | cons frame long =>
    rcases List.suffix_cons_iff.mp within with rfl | within
    · exact absurd shorter (Nat.lt_irrefl _)
    · exact within

/-- What a line can do inside a group: stay there, or close it and give back the frames and the
groups that were there when it was opened. -/
theorem Inside.step (inside : Inside base name state) (sound : state.Sound) (baseSound : base.Sound)
    {line : Line} (stepped : state.step line = .ok next) :
    Inside base name next ∨
      (Statement.ofText? line.text = some .close ∧ next =
        ⟨base.scopes, base.outer, base.entries.insert name (.group state.entries), none⟩) := by
  have depth := sound.frames
  have baseDepth := baseSound.frames
  have exits : state.scopes.exit.frames.length = state.scopes.frames.length - 1 := List.length_tail
  rcases step_cases stepped with ⟨outer, frames⟩ | ⟨other, -, rfl⟩ |
    ⟨shown, group, outer, groups, rfl⟩
  · exact Or.inl ⟨by rw [outer]; exact inside.outer, by rw [frames]; exact inside.frames⟩
  · refine Or.inl ⟨inside.outer.trans (List.suffix_cons _ _), ?_⟩
    exact inside.frames.trans (List.tail_suffix _)
  · have within := inside.outer
    rw [groups] at within
    -- Either the group itself is closed, or one that was opened in it.
    rcases List.suffix_cons_iff.mp within with same | within
    · obtain ⟨rfl, rfl⟩ := List.cons.inj same
      have lengths : base.scopes.frames.length = state.scopes.exit.frames.length := by
        rw [groups, List.length_cons] at depth
        omega
      have scopes : state.scopes.exit = base.scopes :=
        congrArg Scopes.mk (inside.frames.eq_of_length lengths).symm
      exact Or.inr ⟨shown, by rw [scopes]⟩
    · have deeper := within.length_le
      rw [List.length_cons] at deeper
      rw [groups, List.length_cons] at depth
      have shorter : base.scopes.frames.length < state.scopes.exit.frames.length := by omega
      exact Or.inl ⟨within, suffix_tail inside.frames shorter⟩

theorem run_line {found : Option Text} {number : Nat}
    (ran : state.run (contentLines found.toList number) = .ok next) :
    next = state ∨ ∃ line, found = some line ∧ LineKind.ofText line = .content ∧
      state.step ⟨number, trim line⟩ = .ok next := by
  cases found with
  | none =>
    cases ran
    exact Or.inl rfl
  | some line =>
    by_cases content : LineKind.ofText line = .content
    · have shape : contentLines (some line).toList number = [⟨number, trim line⟩] := by
        simp [contentLines, content]
      rw [shape, run_cons] at ran
      obtain ⟨after, stepped, ended⟩ := bind_eq_ok.mp ran
      cases ended
      exact Or.inr ⟨line, rfl, content, stepped⟩
    · have shape : contentLines (some line).toList number = [] := by
        simp [contentLines, content]
      rw [shape] at ran
      cases ran
      exact Or.inl rfl

end State

theorem stateAfter_succ (text : Text) (count : Nat) :
    stateAfter text (count + 1) = stateAfter text count >>= fun state =>
      state.run (contentLines (physicalLines text)[count]?.toList (count + 1)) := by
  rw [stateAfter, List.take_add_one, contentLines_append, State.run_append, ← stateAfter]
  by_cases within : count < (physicalLines text).length
  · rw [List.length_take_of_le (Nat.le_of_lt within), Nat.add_comm 1]
  · rw [List.getElem?_eq_none (Nat.le_of_not_lt within)]
    rfl

theorem sound_of_stateAfter {text : Text} {count : Nat} {state : State}
    (read : stateAfter text count = .ok state) : state.Sound :=
  State.sound_start.run _ read

theorem pathAfter_eq_ok_iff {text : Text} {count : Nat} {path : List Text} :
    pathAfter text count = .ok path ↔
      ∃ state, stateAfter text count = .ok state ∧ state.path = path :=
  map_eq_ok

namespace Encloses

variable {text : Text} {outer : List Text} {name : Text} {first last : Nat}

theorem opening (encloses : Encloses text outer name first last) :
    ∃ base, stateAfter text (first - 1) = .ok base ∧ base.path = outer ∧
      base.entries.contains name = false ∧ stateAfter text first = .ok (base.openGroup name) := by
  obtain ⟨base, before, path⟩ := pathAfter_eq_ok_iff.mp encloses.before
  obtain ⟨state, opened, statePath⟩ := pathAfter_eq_ok_iff.mp encloses.opened
  refine ⟨base, before, path, ?_⟩
  have deeper : state.path = base.path ++ [name] := by rw [statePath, path]
  cases first with
  | zero =>
    cases before.symm.trans opened
    simp at deeper
  | succ count =>
    rw [Nat.add_sub_cancel] at before
    rw [opened]
    rw [stateAfter_succ, before, ok_bind] at opened
    rcases State.run_line opened with rfl | ⟨line, -, -, stepped⟩
    · simp at deeper
    · rcases State.step_cases stepped with ⟨kept, -⟩ | ⟨other, fresh, rfl⟩ |
        ⟨-, group, groups, shape, rfl⟩
      · simp [State.path, kept] at deeper
      · have same : other = name := by simpa [State.path, State.openGroup] using deeper
        subst same
        exact ⟨fresh, rfl⟩
      · have lengths := congrArg List.length deeper
        simp [State.path, shape] at lengths

theorem staying (encloses : Encloses text outer name first last) {base : State}
    (path : base.path = outer) (baseSound : base.Sound)
    (opened : stateAfter text first = .ok (base.openGroup name)) (count : Nat)
    (started : first ≤ count) (ongoing : count < last) :
    ∃ state, stateAfter text count = .ok state ∧ State.Inside base name state := by
  induction count, started using Nat.le_induction with
  | base => exact ⟨_, opened, State.inside_openGroup base name⟩
  | succ count started ih =>
    obtain ⟨state, read, inside⟩ := ih (by omega)
    obtain ⟨inner, innerPath⟩ := encloses.inside (count + 1) (by omega) ongoing
    obtain ⟨next, after, nextPath⟩ := pathAfter_eq_ok_iff.mp innerPath
    refine ⟨next, after, ?_⟩
    rw [stateAfter_succ, read, ok_bind] at after
    rcases State.run_line after with rfl | ⟨line, -, -, stepped⟩
    · exact inside
    · rcases inside.step (sound_of_stateAfter read) baseSound stepped with stays | ⟨-, rfl⟩
      · exact stays
      · have shallow : base.path = outer ++ name :: inner := nextPath
        rw [path] at shallow
        simp at shallow

theorem closing (encloses : Encloses text outer name first last) {base : State}
    (path : base.path = outer) (baseSound : base.Sound)
    (opened : stateAfter text first = .ok (base.openGroup name)) :
    ∃ line body, (physicalLines text)[last - 1]? = some line ∧
      LineKind.ofText line = .content ∧ Statement.ofText? (trim line) = some .close ∧
      stateAfter text last =
        .ok ⟨base.scopes, base.outer, base.entries.insert name (.group body), none⟩ := by
  obtain ⟨count, rfl⟩ : ∃ count, last = count + 1 :=
    Nat.exists_eq_add_one_of_ne_zero (by have := encloses.ordered; omega)
  obtain ⟨state, read, inside⟩ := encloses.staying path baseSound opened count
    (Nat.lt_succ_iff.mp encloses.ordered) (Nat.lt_succ_self count)
  obtain ⟨next, after, nextPath⟩ := pathAfter_eq_ok_iff.mp encloses.closed
  have outside (still : State.Inside base name next) : False := by
    obtain ⟨inner, deep⟩ := still.path
    rw [nextPath, path] at deep
    simp at deep
  rw [after, Nat.add_sub_cancel]
  rw [stateAfter_succ, read, ok_bind] at after
  rcases State.run_line after with rfl | ⟨line, found, content, stepped⟩
  · exact (outside inside).elim
  · rcases inside.step (sound_of_stateAfter read) baseSound stepped with stays | ⟨shown, rfl⟩
    · exact (outside stays).elim
    · exact ⟨line, state.entries, found, content, shown, rfl⟩

end Encloses

theorem source_split (text : Text) (count : Nat) (within : count ≤ (physicalLines text).length) :
    (Source.ofText text).lines = contentLines ((physicalLines text).take count) 1 ++
      contentLines ((physicalLines text).drop count) (count + 1) := by
  have joined := contentLines_append ((physicalLines text).take count)
    ((physicalLines text).drop count) 1
  rwa [List.take_append_drop, List.length_take_of_le within, Nat.add_comm 1] at joined

theorem parse_split (text : Text) (count : Nat) (within : count ≤ (physicalLines text).length) :
    parse text = stateAfter text count >>= fun state =>
      state.run (contentLines ((physicalLines text).drop count) (count + 1)) >>= fun final =>
        final.finish (physicalLines text).length := by
  rw [parse, stateAfter, source_split text count within]
  simp only [State.run_append, bind_assoc]
  rfl

theorem physicalLines_withoutBetween (text : Text) (first last : Nat)
    (within : last - 1 < (physicalLines text).length) :
    physicalLines (withoutBetween text first last) =
      (physicalLines text).take first ++ (physicalLines text).drop (last - 1) := by
  apply List.splitOn_intercalate
  · intro line member
    apply splitOn_free '\n' text
    rcases List.mem_append.mp member with kept | kept
    · exact List.mem_of_mem_take kept
    · exact List.mem_of_mem_drop kept
  · intro nothing
    have lengths := congrArg List.length nothing
    simp only [List.length_append, List.length_drop, List.length_nil] at lengths
    omega

theorem length_withoutBetween (text : Text) (first last : Nat) (ordered : first < last)
    (within : last - 1 < (physicalLines text).length) :
    (physicalLines (withoutBetween text first last)).length =
      (physicalLines text).length - (last - first - 1) := by
  rw [physicalLines_withoutBetween text first last within, List.length_append, List.length_take,
    List.length_drop]
  omega

theorem drop_withoutBetween (text : Text) (first last : Nat) (ordered : first < last)
    (within : last - 1 < (physicalLines text).length) :
    (physicalLines (withoutBetween text first last)).drop (first + 1) =
      (physicalLines text).drop last := by
  have front : ((physicalLines text).take first).length = first :=
    List.length_take_of_le (by omega)
  calc
    (physicalLines (withoutBetween text first last)).drop (first + 1) =
        ((physicalLines text).take first ++ (physicalLines text).drop (last - 1)).drop
          (first + 1) := by
      rw [physicalLines_withoutBetween text first last within]
    _ = ((physicalLines text).drop (last - 1)).drop (first + 1 - first) := by
      rw [List.drop_append, front, List.drop_of_length_le (by omega), List.nil_append]
    _ = (physicalLines text).drop last := by
      rw [List.drop_drop]
      congr 1
      omega

theorem alike_stateAfter {same : Nat → Nat → Prop} {text : Text} {count : Nat} {state : State}
    (kept : ∀ line ≤ count, same line line) (read : stateAfter text count = .ok state) :
    Scopes.Alike same state.scopes state.scopes := by
  have simulation := renumbering ⟨Eq, same, Eq⟩ fun _ => rfl
  have start : State.Beside ⟨Eq, same, Eq⟩ (State.Renumbered same) .start .start :=
    ⟨renumbered_start, .none⟩
  have numbers : ∀ place < ((physicalLines text).take count).length,
      same (1 + place) (1 + place) := by
    intro place before
    rw [List.length_take] at before
    exact kept (1 + place) (by omega)
  have lines := alike_contentLines same ((physicalLines text).take count) 1 1 numbers
  have agree := simulation.run start State.sound_start lines
  rw [← stateAfter, read] at agree
  cases agree with
  | ok beside => exact beside.related.scopes

theorem stateAfter_withoutBetween {text line : Text} {name : Text} {first last : Nat} {base : State}
    (ordered : first < last) (opened : stateAfter text first = .ok (base.openGroup name))
    (found : (physicalLines text)[last - 1]? = some line)
    (content : LineKind.ofText line = .content)
    (shown : Statement.ofText? (trim line) = some .close) :
    stateAfter (withoutBetween text first last) (first + 1) =
      .ok ⟨base.scopes, base.outer, base.entries.insert name (.group .empty), none⟩ := by
  obtain ⟨within, -⟩ := List.getElem?_eq_some_iff.mp found
  have shape := physicalLines_withoutBetween text first last within
  have front : ((physicalLines text).take first).length = first :=
    List.length_take_of_le (by omega)
  have same : stateAfter (withoutBetween text first last) first = .ok (base.openGroup name) := by
    rw [← opened, stateAfter, stateAfter, shape, List.take_left' front]
  have next : (physicalLines (withoutBetween text first last))[first]? = some line := by
    rw [shape, List.getElem?_append_right (Nat.le_of_eq front), front, Nat.sub_self,
      List.getElem?_drop, Nat.add_zero, found]
  have lines : contentLines (some line).toList (first + 1) = [⟨first + 1, trim line⟩] := by
    simp [contentLines, content]
  rw [stateAfter_succ, same, ok_bind, next, lines, State.run_cons, State.step_close rfl shown,
    State.closeGroup_inside rfl]
  rfl

theorem beside_closed {text name : Text} {first : Nat} {base : State} (last : Nat) (body : Group)
    (before : stateAfter text (first - 1) = .ok base)
    (fresh : base.entries.contains name = false) :
    State.Beside (movedUp first last) (State.Emptied (Moved first last) (base.path ++ [name]))
      ⟨base.scopes, base.outer, base.entries.insert name (.group body), none⟩
      ⟨base.scopes, base.outer, base.entries.insert name (.group .empty), none⟩ := by
  have declared : Scopes.Alike (Moved first last) base.scopes base.scopes :=
    alike_stateAfter (fun line here => Or.inl ⟨by omega, rfl⟩) before
  have place : base.path ++ [name] = (base.outer.map (·.name)).reverse ++ [name] := rfl
  have groups := EmptiedAt.added place (rfl : (Entry.group body).follow [] = _) fresh
  rw [Group.emptyAt_nil] at groups
  exact ⟨⟨declared, groups⟩, .none⟩

/-- Taking out the lines inside a group empties the group and changes nothing else: the text is read
as the same tree without the entries of that group, or with the same error further up. -/
theorem parse_withoutBetween (text : Text) (outer : List Text) (name : Text) (first last : Nat)
    (encloses : Encloses text outer name first last) :
    Agree (ParseError.Alike (movedUp first last))
      (fun tree shorter =>
        (∃ body, (Entry.group tree).follow (outer ++ [name]) = some (.group body)) ∧
          shorter = tree.emptyAt (outer ++ [name]))
      (parse text) (parse (withoutBetween text first last)) := by
  obtain ⟨base, before, rfl, fresh, opened⟩ := encloses.opening
  have baseSound := sound_of_stateAfter before
  obtain ⟨line, body, found, content, shown, closed⟩ := encloses.closing rfl baseSound opened
  have ordered := encloses.ordered
  obtain ⟨within, -⟩ := List.getElem?_eq_some_iff.mp found
  have closed' := stateAfter_withoutBetween ordered opened found content shown
  have total' := length_withoutBetween text first last ordered within
  have numbers : ∀ place < ((physicalLines text).drop last).length,
      Moved first last (last + 1 + place) (first + 1 + 1 + place) := by
    intro place _
    exact Or.inr ⟨by omega, by omega⟩
  have lines := alike_contentLines (Moved first last) _ (last + 1) (first + 1 + 1) numbers
  -- Both readings have closed the group; from there on they take the same lines.
  have simulation := emptying (movedUp first last) (fun _ => rfl) (base.path ++ [name])
  rw [parse_split text last (by omega), closed, ok_bind,
    parse_split (withoutBetween text first last) (first + 1) (by omega), closed', ok_bind,
    drop_withoutBetween text first last ordered within]
  have start := beside_closed last body before fresh
  apply (simulation.run start (sound_of_stateAfter closed) lines).bind
  intro final final' _ _ beside
  have groups := beside.related.groups
  apply beside.finish
  · rw [← List.map_eq_nil_iff, groups.names, List.map_eq_nil_iff]
  · intro outermost
    rw [outermost] at groups
    exact groups.outermost
  · exact Or.inr ⟨by omega, total'⟩

theorem parse_withoutBetween_hidden :
    let text : Text :=
      "h \x7b\n$x = 1\ng \x7b\n$x = 2\na = $x\n\x7d\nb = $x\n\x7d".toList
    Encloses text [['h']] ['g'] 3 6 ∧
      Agree (ParseError.Alike (movedUp 3 6))
        (fun tree shorter =>
          (∃ body, (Entry.group tree).follow [['h'], ['g']] = some (.group body)) ∧
            shorter = tree.emptyAt [['h'], ['g']])
        (parse text) (parse (withoutBetween text 3 6)) := by
  intro text
  have encloses : Encloses text [['h']] ['g'] 3 6 := by
    refine ⟨by decide +kernel, by decide +kernel, ?_, by decide +kernel, by decide⟩
    intro line started ongoing
    obtain rfl | rfl | rfl : line = 3 ∨ line = 4 ∨ line = 5 := by omega
    · exact ⟨[], by decide +kernel⟩
    · exact ⟨[], by decide +kernel⟩
    · exact ⟨[], by decide +kernel⟩
  exact ⟨encloses, parse_withoutBetween text [['h']] ['g'] 3 6 encloses⟩

end ScopedConfig
