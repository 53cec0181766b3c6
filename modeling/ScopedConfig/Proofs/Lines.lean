import ScopedConfig.Proofs.Text
import ScopedConfig.Source

namespace ScopedConfig

theorem physicalLines_clean (text : Text) (clean : '\n' ∉ text) : physicalLines text = [text] :=
  List.splitOn_eq_singleton clean

theorem length_splitOn (separator : Char) (text : Text) :
    (text.splitOn separator).length = text.count separator + 1 := by
  induction text with
  | nil => rfl
  | cons c rest ih =>
    rw [List.splitOn_cons_eq_if_modifyHead]
    by_cases same : c = separator
    · subst same
      simp only [beq_self_eq_true, if_true, List.length_cons, List.count_cons_self, ih]
    · rw [if_neg (by simpa using same), List.length_modifyHead, ih, List.count_cons_of_ne same]

theorem length_physicalLines (text : Text) :
    (physicalLines text).length = text.count '\n' + 1 :=
  length_splitOn '\n' text

theorem physicalLines_ended (lines : List Text) :
    physicalLines (lines.flatMap (· ++ ['\n'])) = lines.flatMap physicalLines ++ [[]] := by
  induction lines with
  | nil => rfl
  | cons line lines ih =>
    have shape : (line :: lines).flatMap (· ++ ['\n']) =
        line ++ '\n' :: lines.flatMap (· ++ ['\n']) := by
      simp
    rw [shape, physicalLines_append, ih, List.flatMap_cons, List.append_assoc]

theorem contentLines_cons (line : Text) (lines : List Text) (first : Nat) :
    contentLines (line :: lines) first =
      contentLines [line] first ++ contentLines lines (first + 1) :=
  contentLines_append [line] lines first

theorem numbers_contentLines (lines : List Text) (first : Nat) :
    ((contentLines lines first).map Line.number).Sublist (List.range' first lines.length) := by
  induction lines generalizing first with
  | nil => exact List.Sublist.refl _
  | cons line lines ih =>
    rw [contentLines_cons, List.map_append, List.length_cons, List.range'_succ]
    by_cases content : LineKind.ofText line = .content
    · simpa [contentLines, content] using ih (first + 1)
    · simpa [contentLines, content] using (ih (first + 1)).cons first

theorem mem_contentLines {lines : List Text} {first : Nat} {line : Line}
    (member : line ∈ contentLines lines first) : ∃ physical ∈ lines, trim physical = line.text := by
  obtain ⟨entry, within, kept⟩ := List.mem_filterMap.mp member
  obtain ⟨-, same⟩ := Option.ite_none_right_eq_some.mp kept
  refine ⟨entry.1, List.fst_mem_of_mem_zipIdx within, ?_⟩
  rw [← Option.some.inj same]

theorem infix_of_mem_physicalLines {text physical : Text} (member : physical ∈ physicalLines text) :
    physical <:+: text := by
  have part : physical <:+: ['\n'].intercalate (physicalLines text) := infix_intercalate member
  rwa [physicalLines, List.intercalate_splitOn] at part

theorem source_increasing (text : Text) :
    (Source.ofText text).lines.Pairwise fun line later => line.number < later.number := by
  have numbers := List.Pairwise.sublist (numbers_contentLines (physicalLines text) 1)
    (List.pairwise_lt_range' (s := 1))
  exact List.pairwise_map.mp numbers

theorem LineKind.ofText_eq_content_iff (line : Text) :
    LineKind.ofText line = .content ↔
      (!(trim line).isEmpty && (trim line).head? != some '#') = true := by
  unfold LineKind.ofText
  split
  · next nothing => simp [nothing]
  · next rest comment => simp [comment]
  · next c rest plain trimmed => simpa [trimmed] using plain

theorem LineKind.ofText_content (line rest : Text) (c : Char) (trimmed : trim line = c :: rest)
    (plain : c ≠ '#') : LineKind.ofText line = .content := by
  rw [LineKind.ofText_eq_content_iff, trimmed]
  simpa using plain

theorem texts_contentLines (lines : List Text) (first : Nat) :
    (contentLines lines first).map Line.text =
      (lines.map trim).filter fun line => !line.isEmpty && line.head? != some '#' := by
  induction lines generalizing first with
  | nil => rfl
  | cons line lines ih =>
    rw [contentLines_cons, List.map_append, ih, List.map_cons, List.filter_cons]
    by_cases content : LineKind.ofText line = .content
    · have kept := (LineKind.ofText_eq_content_iff line).mp content
      simp [contentLines, content, kept]
    · have dropped := (LineKind.ofText_eq_content_iff line).not.mp content
      simp [contentLines, content, dropped]

theorem texts_source (text : Text) :
    (Source.ofText text).lines.map Line.text = contentTexts text :=
  texts_contentLines (physicalLines text) 1

theorem contentTexts_append (first second : Text) :
    contentTexts (first ++ '\n' :: second) = contentTexts first ++ contentTexts second := by
  rw [contentTexts, physicalLines_append, List.map_append, List.filter_append]
  rfl

theorem contentTexts_ended (lines : List Text)
    (plain : ∀ line ∈ lines, contentTexts line = [line]) :
    contentTexts (lines.flatMap (· ++ ['\n'])) = lines := by
  induction lines with
  | nil => rfl
  | cons line lines ih =>
    have shape : (line :: lines).flatMap (· ++ ['\n']) =
        line ++ '\n' :: lines.flatMap (· ++ ['\n']) := by
      simp
    rw [shape, contentTexts_append, plain line List.mem_cons_self,
      ih fun other member => plain other (List.mem_cons_of_mem line member)]
    rfl

theorem contentLines_content (line rest : Text) (c : Char) (number : Nat)
    (trimmed : trim line = c :: rest) (plain : c ≠ '#') :
    contentLines [line] number = [⟨number, c :: rest⟩] := by
  simp [contentLines, LineKind.ofText_content line rest c trimmed plain, trimmed]

theorem contentLines_blank (number : Nat) : contentLines [[]] number = [] := rfl

theorem contentLines_intercalate (lines : List Text) (clean : ∀ line ∈ lines, '\n' ∉ line)
    (first : Nat) :
    contentLines (physicalLines (['\n'].intercalate lines)) first = contentLines lines first := by
  cases lines with
  | nil => rfl
  | cons line lines =>
    rw [physicalLines, List.splitOn_intercalate '\n' clean (List.cons_ne_nil line lines)]

theorem contentLines_cut {lines : List Text} {first : Nat} {before after : List Line} {line : Line}
    (shape : contentLines lines first = before ++ line :: after) :
    ∃ earlier physical later, lines = earlier ++ physical :: later ∧
      contentLines earlier first = before ∧ line = ⟨first + earlier.length, trim physical⟩ ∧
      LineKind.ofText physical = .content := by
  obtain ⟨_, _, split, read, found⟩ := List.filterMap_eq_append_iff.mp shape
  obtain ⟨skipped, numbered, _, rfl, blanks, kept, -⟩ := List.filterMap_eq_cons_iff.mp found
  rw [← List.append_assoc] at split
  obtain ⟨earlier, _, rfl, numbers, rest⟩ := List.zipIdx_eq_append_iff.mp split
  obtain ⟨physical, later, rfl, rfl, -⟩ := List.zipIdx_eq_cons_iff.mp rest.symm
  obtain ⟨content, same⟩ := Option.ite_none_right_eq_some.mp kept
  refine ⟨earlier, physical, later, rfl, ?_, (Option.some.inj same).symm, content⟩
  -- The physical lines that were skipped before the content line add nothing.
  rw [contentLines, ← numbers, List.filterMap_append, read,
    List.filterMap_eq_nil_iff.mpr blanks, List.append_nil]

theorem mem_source {text : Text} {line : Line} (member : line ∈ (Source.ofText text).lines) :
    1 ≤ line.number ∧ line.number ≤ (physicalLines text).length ∧
      ∃ physical, (physicalLines text)[line.number - 1]? = some physical ∧
        LineKind.ofText physical = .content ∧ trim physical = line.text := by
  obtain ⟨before, after, shape⟩ := List.append_of_mem member
  obtain ⟨earlier, physical, later, whole, -, rfl, content⟩ := contentLines_cut shape
  have place : (1 + earlier.length) - 1 = earlier.length := Nat.add_sub_cancel_left 1 _
  rw [whole, List.length_append, List.length_cons]
  refine ⟨Nat.le_add_right 1 _, ?_, physical, ?_, content, rfl⟩
  · dsimp only
    omega
  · rw [place, List.getElem?_append_right (Nat.le_refl _), Nat.sub_self, List.getElem?_cons_zero]

end ScopedConfig
