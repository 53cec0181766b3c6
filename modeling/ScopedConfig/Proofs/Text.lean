import ScopedConfig.Text.Name
import Mathlib.Data.List.TakeWhile

namespace ScopedConfig

theorem span_append (inside : Char → Bool) (run rest : Text)
    (within : ∀ c ∈ run, inside c = true) (outside : ∀ c ∈ rest.head?, inside c = false) :
    (run ++ rest).takeWhile inside = run ∧ (run ++ rest).dropWhile inside = rest := by
  rw [List.takeWhile_append_of_pos within, List.dropWhile_append_of_pos within]
  cases rest with
  | nil => simp
  | cons c rest =>
    have stops : inside c = false := outside c rfl
    simp [stops]

theorem head?_dropWhile (inside : Char → Bool) (text : Text) :
    ∀ c ∈ (text.dropWhile inside).head?, inside c = false := by
  intro c first
  have stops := List.head?_dropWhile_not inside text
  rw [Option.mem_def.mp first] at stops
  simpa using stops

theorem head?_of_takeWhile_eq_nil (inside : Char → Bool) (text : Text)
    (none : text.takeWhile inside = []) : ∀ c ∈ text.head?, inside c = false := by
  have outside := head?_dropWhile inside text
  have whole := List.takeWhile_append_dropWhile (p := inside) (l := text)
  rw [none, List.nil_append] at whole
  rwa [whole] at outside

theorem cut_at_first (c : Char) (text : Text) (present : c ∈ text) :
    text = text.takeWhile (· != c) ++ c :: (text.dropWhile (· != c)).tail ∧
      c ∉ text.takeWhile (· != c) := by
  obtain ⟨front, back, shape, free⟩ := List.eq_append_cons_of_mem present
  have within : ∀ other ∈ front, (other != c) = true := by
    intro other member
    rw [bne_iff_ne]
    rintro rfl
    exact free member
  obtain ⟨taken, dropped⟩ := span_append (· != c) front (c :: back) within (by simp)
  rw [← shape] at taken dropped
  rw [taken, dropped, List.tail_cons]
  exact ⟨shape, free⟩

theorem splitOn_free (separator : Char) (text : Text) :
    ∀ part ∈ text.splitOn separator, separator ∉ part := by
  induction text with
  | nil => simp
  | cons c rest ih =>
    rw [List.splitOn_cons_eq_if_modifyHead]
    split
    · intro part member
      rcases List.mem_cons.mp member with rfl | member
      · exact List.not_mem_nil
      · exact ih part member
    · next other =>
      cases pieces : rest.splitOn separator with
      | nil => simp
      | cons first later =>
        rw [pieces] at ih
        intro part member
        rcases List.mem_cons.mp member with rfl | member
        · rw [List.mem_cons, not_or]
          exact ⟨fun same => other (by simp [same]), ih first List.mem_cons_self⟩
        · exact ih part (List.mem_cons_of_mem first member)

theorem infix_intercalate {separator : Text} {lines : List Text} {line : Text}
    (member : line ∈ lines) : line <:+: separator.intercalate lines := by
  apply List.infix_of_mem_flatten
  induction lines with
  | nil => exact absurd member List.not_mem_nil
  | cons first lines ih =>
    cases lines with
    | nil => exact member
    | cons second lines =>
      rw [List.intersperse_cons_cons]
      rcases List.mem_cons.mp member with rfl | member
      · exact List.mem_cons_self
      · exact List.mem_cons_of_mem first (List.mem_cons_of_mem separator (ih member))

theorem Blank.append {first last : Text} (blank : Blank first) (blankToo : Blank last) :
    Blank (first ++ last) := by
  intro c member
  rcases List.mem_append.mp member with member | member
  · exact blank c member
  · exact blankToo c member

theorem Blank.cons {c : Char} {text : Text} (space : isSpace c = true) (blank : Blank text) :
    Blank (c :: text) := by
  intro other member
  rcases List.mem_cons.mp member with rfl | member
  · exact space
  · exact blank other member

theorem blank_replicate (n : Nat) : Blank (List.replicate n ' ') := by
  intro c member
  rw [List.eq_of_mem_replicate member]
  decide

theorem trimStart_append (before text : Text) (blank : Blank before) :
    trimStart (before ++ text) = trimStart text :=
  List.dropWhile_append_of_pos blank

theorem trimStart_of_head (text : Text) (visible : ∀ c ∈ text.head?, isSpace c = false) :
    trimStart text = text :=
  (span_append isSpace [] text (by simp) visible).2

theorem trimEnd_append_blank (text after : Text) (blank : Blank after) :
    trimEnd (text ++ after) = trimEnd text := by
  have reversed : ∀ c ∈ after.reverse, isSpace c = true :=
    fun c member => blank c (List.mem_reverse.mp member)
  rw [trimEnd, List.reverse_append, List.dropWhile_append_of_pos reversed, trimEnd]

/-- Trimming does not reach past a part that has a visible character. -/
theorem trimEnd_append (before text : Text) (visible : trimEnd text ≠ []) :
    trimEnd (before ++ text) = before ++ trimEnd text := by
  have remains : text.reverse.dropWhile isSpace ≠ [] := by
    intro nothing
    apply visible
    rw [trimEnd, nothing, List.reverse_nil]
  have started : (text.reverse.dropWhile isSpace).isEmpty = false := by
    rwa [List.isEmpty_eq_false_iff]
  rw [trimEnd, List.reverse_append, List.dropWhile_append, started]
  simp [trimEnd]

theorem trimEnd_of_last (text : Text) (c : Char) (visible : isSpace c = false) :
    trimEnd (text ++ [c]) = text ++ [c] := by
  simp [trimEnd, visible]

theorem trimEnd_of_visible (text : Text) (visible : ∀ c ∈ text, isSpace c = false) :
    trimEnd text = text := by
  rcases List.eq_nil_or_concat text with rfl | ⟨front, c, rfl⟩
  · rfl
  · rw [List.concat_eq_append] at visible ⊢
    exact trimEnd_of_last front c (visible c (by simp))

theorem trimEnd_cons_visible (c : Char) (text : Text) (visible : isSpace c = false) :
    trimEnd (c :: text) = c :: trimEnd text := by
  by_cases blank : Blank text
  · have nothing : trimEnd text = [] := by
      have trimmed := trimEnd_append_blank [] text blank
      rwa [List.nil_append] at trimmed
    have alone := trimEnd_append_blank [c] text blank
    rw [List.singleton_append] at alone
    rw [alone, nothing]
    exact trimEnd_of_last [] c visible
  · apply trimEnd_append [c] text
    intro nothing
    apply blank
    rw [trimEnd, List.reverse_eq_nil_iff, List.dropWhile_eq_nil_iff] at nothing
    exact fun other member => nothing other (List.mem_reverse.mpr member)

theorem trim_line (before text : Text) (blank : Blank before)
    (visible : ∀ c ∈ text.head?, isSpace c = false) (ends : trimEnd text = text) :
    trim (before ++ text) = text := by
  rw [trim, trimStart_append before text blank, trimStart_of_head text visible, ends]

theorem trim_inside (text : Text) : trim text <:+: text :=
  (trimEnd_isPrefix (trimStart text)).isInfix.trans (trimStart_suffix text).isInfix

theorem isName_takeWhile (text : Text) (nonempty : text.takeWhile isNameChar ≠ []) :
    IsName (text.takeWhile isNameChar) :=
  ⟨nonempty, fun _ member => List.mem_takeWhile_imp member⟩

theorem isNameChar_code (c : Char) (named : isNameChar c = true) :
    48 ≤ c.toNat ∧ c.toNat ≤ 122 := by
  change ((decide (c.val ≥ 65 ∧ c.val ≤ 90) || (c.val ≥ 97 && c.val ≤ 122)) ||
    (c.val ≥ 48 && c.val ≤ 57) || c = '_') = true at named
  simp only [Bool.or_eq_true, Bool.and_eq_true, decide_eq_true_eq, ge_iff_le,
    UInt32.le_iff_toNat_le] at named
  change (((65 ≤ c.toNat ∧ c.toNat ≤ 90) ∨ (97 ≤ c.toNat ∧ c.toNat ≤ 122)) ∨
    (48 ≤ c.toNat ∧ c.toNat ≤ 57)) ∨ c = '_' at named
  rcases named with ((letter | letter) | digit) | rfl
  · omega
  · omega
  · omega
  · decide

theorem isNameChar_visible (c : Char) (named : isNameChar c = true) : isSpace c = false := by
  by_contra space
  rw [Bool.not_eq_false, isSpace_iff] at space
  obtain ⟨range, member, low, high⟩ := space
  have code := isNameChar_code c named
  simp only [spaceRanges, List.mem_cons, List.not_mem_nil, or_false] at member
  rcases member with rfl | rfl | rfl | rfl | rfl | rfl | rfl | rfl | rfl | rfl <;>
    simp only at low high <;> omega

end ScopedConfig
