import Mathlib.Data.List.Nodup
import ScopedConfig.Group.Outline
import ScopedConfig.Proofs.Keys
import ScopedConfig.Proofs.Paths
import ScopedConfig.Proofs.RoundTrip

namespace ScopedConfig

theorem indentation_add (extra depth : Nat) :
    indentation (extra + depth) = indentation extra ++ indentation depth := by
  rw [indentation, Nat.mul_add, ← List.replicate_append_replicate]
  rfl

theorem length_indentation (depth : Nat) : (indentation depth).length = 4 * depth :=
  List.length_replicate

theorem endedLines_flatMap (lines : List Text) (clean : ∀ line ∈ lines, '\n' ∉ line) :
    endedLines (lines.flatMap (· ++ ['\n'])) = lines := by
  have single : lines.flatMap physicalLines = lines.flatMap ([·]) :=
    List.flatMap_congr fun line member => physicalLines_clean line (clean line member)
  rw [endedLines, physicalLines_ended, single, List.flatMap_singleton', List.dropLast_concat]

namespace Group

variable {group : Group}

theorem lines_add (group : Group) (extra depth : Nat) :
    group.lines (extra + depth) = (group.lines depth).map (indentation extra ++ ·) := by
  induction group generalizing depth with
  | empty => rfl
  | scalar key value rest ih => simp [lines, ih, indentation_add]
  | nested key body rest bodyIH ih =>
    simp [lines, ih, Nat.add_assoc, bodyIH, indentation_add]

theorem lines_eq_map (group : Group) (depth : Nat) :
    group.lines depth = (group.lines 0).map (indentation depth ++ ·) :=
  lines_add group depth 0

theorem length_lines (group : Group) (depth : Nat) :
    (group.lines depth).length = group.scalarCount + 2 * group.groupCount := by
  induction group generalizing depth with
  | empty => rfl
  | scalar key value rest ih =>
    simp only [lines, List.length_cons, ih, scalarCount, groupCount]
    omega
  | nested key body rest bodyIH ih =>
    simp only [lines, List.length_cons, List.length_append, bodyIH, ih, scalarCount, groupCount]
    omega

theorem clean_of_mem_lines (plain : group.AllKeys ('\n' ∉ ·)) (oneLine : group.OneLine)
    (depth : Nat) : ∀ line ∈ group.lines depth, '\n' ∉ line := by
  induction group generalizing depth with
  | empty => simp [lines]
  | scalar key value rest ih =>
    rw [lines, List.forall_mem_cons]
    exact ⟨clean_behind_indentation depth (scalarLine_clean key value plain.1 oneLine.1),
      ih plain.2 oneLine.2 depth⟩
  | nested key body rest bodyIH ih =>
    rw [lines, List.forall_mem_append, List.forall_mem_cons, List.forall_mem_cons]
    exact ⟨⟨clean_behind_indentation depth (openingLine_clean key plain.1),
        bodyIH plain.2.1 oneLine.1 (depth + 1)⟩,
      clean_behind_indentation depth (by decide), ih plain.2.2 oneLine.2 depth⟩

theorem endedLines_indented (plain : group.AllKeys ('\n' ∉ ·)) (oneLine : group.OneLine)
    (depth : Nat) : endedLines (group.indented depth) = group.lines depth :=
  endedLines_flatMap _ (clean_of_mem_lines plain oneLine depth)

theorem endedLines_render (plain : group.AllKeys ('\n' ∉ ·)) (oneLine : group.OneLine) :
    endedLines group.render = group.lines 0 :=
  endedLines_indented plain oneLine 0

theorem texts_outline (group : Group) (outer : List Text) :
    (group.outline outer).map OutlineLine.text = group.lines outer.length := by
  induction group generalizing outer with
  | empty => rfl
  | scalar key value rest ih => simp [outline, lines, ih, OutlineLine.scalar]
  | nested key body rest bodyIH ih =>
    simp [outline, lines, ih, bodyIH, OutlineLine.opening, OutlineLine.closing, openingLine,
      closingLine]

theorem matched_outline (group : Group) (outer : List Text) :
    Matched ((group.outline outer).map OutlineLine.role) := by
  induction group generalizing outer with
  | empty => exact .nil
  | scalar key value rest ih => exact .scalar (ih outer)
  | nested key body rest bodyIH ih =>
    rw [outline, List.map_cons, List.map_append, List.map_cons]
    exact .nested (bodyIH (outer ++ [key])) (ih outer)

theorem outline_append (first last : Group) (outer : List Text) :
    (first.append last).outline outer = first.outline outer ++ last.outline outer := by
  induction first with
  | empty => rfl
  | scalar key value rest ih => simp [append, outline, ih]
  | nested key body rest bodyIH ih => simp [append, outline, ih]

theorem place_of_mem_outline (group : Group) (outer : List Text) :
    ∀ line ∈ group.outline outer, ∃ key ∈ group.keys, outer ++ [key] <+: line.place := by
  induction group generalizing outer with
  | empty => simp [outline]
  | scalar key value rest ih =>
    have here : ∃ other ∈ key :: rest.keys, outer ++ [other] <+: outer ++ [key] :=
      List.exists_mem_cons_of _ (List.prefix_refl _)
    rw [outline, keys_scalar, List.forall_mem_cons]
    exact ⟨here, fun line member => List.exists_mem_cons_of_exists (ih outer line member)⟩
  | nested key body rest bodyIH ih =>
    have here : ∃ other ∈ key :: rest.keys, outer ++ [other] <+: outer ++ [key] :=
      List.exists_mem_cons_of _ (List.prefix_refl _)
    have inside : ∀ line ∈ body.outline (outer ++ [key]),
        ∃ other ∈ key :: rest.keys, outer ++ [other] <+: line.place := by
      intro line member
      obtain ⟨inner, -, below⟩ := bodyIH (outer ++ [key]) line member
      exact List.exists_mem_cons_of _ ((List.prefix_append _ _).trans below)
    rw [outline, keys_nested, List.forall_mem_cons, List.forall_mem_append, List.forall_mem_cons]
    exact ⟨here, inside, here,
      fun line member => List.exists_mem_cons_of_exists (ih outer line member)⟩

theorem place_of_absent {key : Text} (absent : key ∉ group.keys) (outer more : List Text) :
    ∀ line ∈ group.outline outer, ¬ outer ++ key :: more <+: line.place := by
  intro line member below
  obtain ⟨other, within, belowOther⟩ := place_of_mem_outline group outer line member
  have nested : outer ++ [other] <+: outer ++ key :: more :=
    List.prefix_of_prefix_length_le belowOther below (by simp)
  rw [List.prefix_append_right_inj, List.cons_prefix_cons] at nested
  exact absent (nested.1 ▸ within)

theorem outline_of_get? (distinct : group.Distinct) {key : Text} {body : Group}
    (found : group.get? key = some (.group body)) (outer : List Text) :
    ∃ before after,
      group.outline outer = before ++ .opening outer key ::
        (body.outline (outer ++ [key]) ++ .closing outer key :: after) ∧
      ∀ line ∈ before ++ after, ∀ more, ¬ outer ++ key :: more <+: line.place := by
  obtain ⟨first, rest, rfl⟩ := exists_append_of_get? found
  have unique := distinct.nodup
  rw [keys_append, keys_cons, List.nodup_middle, List.nodup_cons, List.mem_append, not_or] at unique
  refine ⟨first.outline outer, rest.outline outer, outline_append _ _ _, ?_⟩
  intro line member more
  rcases List.mem_append.mp member with member | member
  · exact place_of_absent unique.1.1 outer more line member
  · exact place_of_absent unique.1.2 outer more line member

theorem follow_append_singleton {tree body : Group} {step key : Text} {outer : List Text}
    (found : (Entry.group tree).follow (step :: outer ++ [key]) = some (.group body)) :
    ∃ next, tree.get? step = some (.group next) ∧
      (Entry.group next).follow (outer ++ [key]) = some (.group body) := by
  cases outer with
  | nil => exact (Entry.follow_cons_cons_eq_some_iff tree _ step key []).mp found
  | cons second outer => exact (Entry.follow_cons_cons_eq_some_iff tree _ step second _).mp found

/-- The lines of a group inside another one, at whatever depth, stand between its opening line and its
closing line, and no other line stands for it or for anything in it. -/
theorem outline_of_follow {tree body : Group} (distinct : tree.Distinct) {key : Text}
    (outer : List Text) (found : (Entry.group tree).follow (outer ++ [key]) = some (.group body))
    (base : List Text) :
    ∃ before after,
      tree.outline base = before ++ .opening (base ++ outer) key ::
        (body.outline (base ++ outer ++ [key]) ++ .closing (base ++ outer) key :: after) ∧
      ∀ line ∈ before ++ after, ¬ base ++ outer ++ [key] <+: line.place := by
  induction outer generalizing tree base with
  | nil =>
    rw [List.nil_append, Entry.follow_group_singleton] at found
    obtain ⟨before, after, shape, apart⟩ := outline_of_get? distinct found base
    rw [List.append_nil]
    exact ⟨before, after, shape, fun line member => apart line member []⟩
  | cons step outer ih =>
    obtain ⟨next, here, below⟩ := follow_append_singleton found
    obtain ⟨first, last, whole, apart⟩ := outline_of_get? distinct here base
    obtain ⟨before, after, inside, apartInside⟩ :=
      ih (distinct_of_get? tree step next distinct here) below (base ++ [step])
    have path : base ++ [step] ++ outer = base ++ step :: outer := by simp
    rw [path] at inside apartInside
    have far (line : OutlineLine) (member : line ∈ first ++ last) :
        ¬ base ++ step :: outer ++ [key] <+: line.place := by
      rw [List.append_assoc, List.cons_append]
      exact apart line member (outer ++ [key])
    have above (line : OutlineLine) (place : line.place = base ++ [step]) :
        ¬ base ++ step :: outer ++ [key] <+: line.place := by
      intro nested
      simpa [place] using nested.length_le
    refine ⟨first ++ .opening base step :: before, after ++ .closing base step :: last, ?_, ?_⟩
    · rw [whole, inside]
      simp
    · intro line member
      simp only [List.mem_append, List.mem_cons] at member
      rcases member with (member | rfl | member) | (member | rfl | member)
      · exact far line (List.mem_append_left last member)
      · exact above _ rfl
      · exact apartInside line (List.mem_append_left after member)
      · exact apartInside line (List.mem_append_right before member)
      · exact above _ rfl
      · exact far line (List.mem_append_right first member)

theorem render_eq_outline (group : Group) (outer : List Text) :
    group.render = ((group.outline outer).map OutlineLine.text).flatMap
      (fun line => line.drop (4 * outer.length) ++ ['\n']) := by
  have dropped (line : Text) :
      (indentation outer.length ++ line).drop (4 * outer.length) = line :=
    List.drop_left' (length_indentation outer.length)
  rw [texts_outline, lines_eq_map, List.flatMap_map]
  simp only [dropped]
  rfl

theorem indented_of_mem_outline (group : Group) (outer : List Text) :
    ∀ line ∈ group.outline outer, indentation outer.length <+: line.text := by
  intro line member
  have text : line.text ∈ group.lines outer.length := by
    rw [← texts_outline]
    exact List.mem_map_of_mem member
  rw [lines_eq_map] at text
  obtain ⟨own, -, shape⟩ := List.mem_map.mp text
  exact ⟨own, shape⟩

theorem indented_eq_endedLines (plain : group.AllKeys ('\n' ∉ ·)) (oneLine : group.OneLine)
    (depth : Nat) :
    group.indented depth =
      (endedLines group.render).flatMap fun line => indentation depth ++ line ++ ['\n'] := by
  rw [endedLines_render plain oneLine, indented, lines_eq_map, List.flatMap_map]

/-- The text of a tree at a depth is its text at depth 0 behind four spaces for each step down, line
by line: one line for each scalar and two for each group. So the lines of a group inside the tree,
which stand between its opening line and the closing line that matches it, are without their
indentation the text of that group. The outline says which line stands for which entry. -/
theorem render_inside (tree : Group) (plain : tree.AllKeys ('\n' ∉ ·)) (oneLine : tree.OneLine) :
    (∀ depth, tree.indented depth =
      (endedLines tree.render).flatMap fun line => List.replicate (4 * depth) ' ' ++ line ++ ['\n']) ∧
    (∀ depth, (endedLines (tree.indented depth)).length =
      tree.scalarCount + 2 * tree.groupCount) ∧
    endedLines tree.render = (tree.outline []).map OutlineLine.text ∧
    (tree.Distinct → ∀ outer key body,
      (Entry.group tree).follow (outer ++ [key]) = some (.group body) →
      ∃ before inside after,
        tree.outline [] = before ++
          ⟨.opening, outer ++ [key],
            List.replicate (4 * outer.length) ' ' ++ (key ++ " = \x7b".toList)⟩ ::
          (inside ++
            ⟨.closing, outer ++ [key], List.replicate (4 * outer.length) ' ' ++ ['}']⟩ :: after) ∧
        Matched (inside.map OutlineLine.role) ∧
        (∀ line ∈ inside, ∃ step, outer ++ [key] ++ [step] <+: line.place) ∧
        (∀ line ∈ before ++ after, ¬ outer ++ [key] <+: line.place) ∧
        (∀ line ∈ inside, List.replicate (4 * (outer.length + 1)) ' ' <+: line.text) ∧
        body.render = (inside.map OutlineLine.text).flatMap
          fun line => line.drop (4 * (outer.length + 1)) ++ ['\n']) := by
  refine ⟨indented_eq_endedLines plain oneLine, ?_, ?_, ?_⟩
  · intro depth
    rw [endedLines_indented plain oneLine, length_lines]
  · rw [endedLines_render plain oneLine, texts_outline]
    rfl
  · intro distinct outer key body found
    obtain ⟨before, after, shape, apart⟩ := outline_of_follow distinct outer found []
    have depth : (outer ++ [key]).length = outer.length + 1 := by simp
    rw [List.nil_append] at shape apart
    refine ⟨before, body.outline (outer ++ [key]), after, shape, matched_outline _ _, ?_, apart,
      ?_, ?_⟩
    · intro line member
      obtain ⟨step, -, below⟩ := place_of_mem_outline body (outer ++ [key]) line member
      exact ⟨step, below⟩
    · rw [← depth]
      exact indented_of_mem_outline body (outer ++ [key])
    · rw [← depth]
      exact render_eq_outline body (outer ++ [key])

/-- An empty scalar whose key is a brace has the text of a closing line, and stands inside the group
that it seems to close. -/
theorem render_inside_brace :
    let body : Group := .scalar ['}'] [] (.scalar ['k'] "\x7d \x7b".toList .empty)
    let tree : Group := .nested ['a'] (.nested ['b'] body .empty) (.scalar ['}'] [] .empty)
    tree.AllKeys ('\n' ∉ ·) ∧ tree.OneLine ∧ tree.Distinct ∧
      (Entry.group tree).follow [['a'], ['b']] = some (.group body) ∧
      tree.render = ("a = \x7b\n" ++
        "    b = \x7b\n" ++
        "        \x7d\n" ++
        "        k = \x22\x7d \x7b\x22\n" ++
        "    \x7d\n" ++
        "\x7d\n" ++
        "\x7d\n").toList ∧
      tree.indented 2 =
        (endedLines tree.render).flatMap (fun line => "        ".toList ++ line ++ ['\n']) ∧
      (endedLines (tree.indented 2)).length = 7 ∧
      ∃ before inside after,
        tree.outline [] = before ++ ⟨.opening, [['a'], ['b']], "    b = \x7b".toList⟩ ::
          (inside ++ ⟨.closing, [['a'], ['b']], "    \x7d".toList⟩ :: after) ∧
        Matched (inside.map OutlineLine.role) ∧
        (∀ line ∈ before ++ after, ¬ [['a'], ['b']] <+: line.place) ∧
        body.render =
          (inside.map OutlineLine.text).flatMap (fun line => line.drop 8 ++ ['\n']) ∧
        body.render = "\x7d\nk = \x22\x7d \x7b\x22\n".toList := by
  intro body tree
  have plain : tree.AllKeys ('\n' ∉ ·) := by decide
  have oneLine : tree.OneLine := by simp [tree, body, OneLine]
  have distinct : tree.Distinct := by decide
  have found : (Entry.group tree).follow [['a'], ['b']] = some (.group body) := rfl
  obtain ⟨shifted, counted, -, between⟩ := render_inside tree plain oneLine
  refine ⟨plain, oneLine, distinct, found, by decide +kernel, shifted 2, counted 2, ?_⟩
  obtain ⟨before, inside, after, shape, matching, -, apart, -, text⟩ :=
    between distinct [['a']] ['b'] body found
  exact ⟨before, inside, after, shape, matching, apart, text, by decide⟩

end Group

end ScopedConfig
