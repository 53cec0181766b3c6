import ScopedConfig.Grammar
import ScopedConfig.Proofs.Text

namespace ScopedConfig

theorem IsName.visible {name : Text} (named : IsName name) :
    ∀ c ∈ name, isSpace c = false :=
  fun c member => isNameChar_visible c (named.2 c member)

theorem IsName.uncons {name : Text} (named : IsName name) :
    ∃ c rest, name = c :: rest ∧ isNameChar c = true := by
  cases name with
  | nil => exact absurd rfl named.1
  | cons c rest => exact ⟨c, rest, rfl, named.2 c List.mem_cons_self⟩

theorem splitName?_of_name (name rest : Text) (named : IsName name)
    (ends : ∀ c ∈ rest.head?, isNameChar c = false) :
    splitName? (name ++ rest) = some (name, rest) := by
  obtain ⟨front, back⟩ := span_append isNameChar name rest named.2 ends
  rw [splitName?, front, back]
  cases name with
  | nil => exact absurd rfl named.1
  | cons c name => rfl

theorem dropSeparator_blank (blanks rest : Text) (blank : Blank blanks) :
    dropSeparator (blanks ++ rest) = dropSeparator rest := by
  rw [dropSeparator, trimStart_append blanks rest blank, dropSeparator]

theorem dropSeparator_of_separator (c : Char) (rest : Text) (separator : c = '=' ∨ c = ':') :
    dropSeparator (c :: rest) = trimStart rest := by
  rcases separator with rfl | rfl
  · simp only [dropSeparator, trimStart_of_visible '=' rest (by decide)]
  · simp only [dropSeparator, trimStart_of_visible ':' rest (by decide)]

theorem dropSeparator_of_separated {tail value : Text} (separated : Separated tail value) :
    dropSeparator tail = value := by
  cases separated with
  | blanks blank starts =>
    rw [dropSeparator_blank _ _ blank, dropSeparator]
    have trimmed := trimStart_of_head value fun c first => (starts c first).1
    split
    · next same => exact absurd rfl (starts '=' (by rw [← trimmed, same]; rfl)).2.1
    · next same => exact absurd rfl (starts ':' (by rw [← trimmed, same]; rfl)).2.2
    · exact trimmed
  | sign blank isSign blankAfter starts =>
    rw [dropSeparator_blank _ _ blank, dropSeparator_of_separator _ _ isSign,
      trimStart_append _ _ blankAfter, trimStart_of_head value starts]

theorem trimStart_split (text : Text) :
    ∃ blanks, Blank blanks ∧ text = blanks ++ trimStart text ∧
      ∀ c ∈ (trimStart text).head?, isSpace c = false := by
  refine ⟨text.takeWhile isSpace, fun c member => List.mem_takeWhile_imp member, ?_, ?_⟩
  · exact List.takeWhile_append_dropWhile.symm
  · exact head?_dropWhile isSpace text

theorem separated_dropSeparator (tail : Text) : Separated tail (dropSeparator tail) := by
  obtain ⟨before, blank, shape, starts⟩ := trimStart_split tail
  unfold dropSeparator
  split
  · next value same =>
    obtain ⟨after, blankAfter, valueShape, valueStarts⟩ := trimStart_split value
    rw [same, valueShape] at shape
    rw [shape]
    exact .sign blank (Or.inl rfl) blankAfter valueStarts
  · next value same =>
    obtain ⟨after, blankAfter, valueShape, valueStarts⟩ := trimStart_split value
    rw [same, valueShape] at shape
    rw [shape]
    exact .sign blank (Or.inr rfl) blankAfter valueStarts
  · next noEquals noColon =>
    have plain : ∀ c ∈ (trimStart tail).head?, isSpace c = false ∧ c ≠ '=' ∧ c ≠ ':' := by
      intro c first
      obtain ⟨rest, same⟩ := List.head?_eq_some_iff.mp first
      refine ⟨starts c first, ?_, ?_⟩
      · rintro rfl
        exact noEquals rest same
      · rintro rfl
        exact noColon rest same
    have value := Separated.blanks blank plain
    rwa [← shape] at value

namespace Statement

def ofParts (target : Target) (name value : Text) : Statement :=
  if value = ['{'] then opening target name else .value target name value

theorem ofNamed?_of_name (target : Target) (name rest : Text) (named : IsName name)
    (ends : ∀ c ∈ rest.head?, isNameChar c = false) :
    ofNamed? target (name ++ rest) = some (ofParts target name (dropSeparator rest)) := by
  rw [ofNamed?, splitName?_of_name name rest named ends]
  simp only [ofParts]
  split <;> rfl

theorem ofText?_key (name rest : Text) (named : IsName name)
    (ends : ∀ c ∈ rest.head?, isNameChar c = false) :
    ofText? (name ++ rest) = some (ofParts .key name (dropSeparator rest)) := by
  rw [← ofNamed?_of_name .key name rest named ends]
  obtain ⟨c, tail, rfl, first⟩ := named.uncons
  rw [List.cons_append]
  unfold ofText?
  split
  · next same =>
    rw [(List.cons.inj same).1] at first
    exact absurd first (by decide)
  · next same =>
    rw [(List.cons.inj same).1] at first
    exact absurd first (by decide)
  · rfl

theorem ofText?_binding (name rest : Text) (named : IsName name)
    (ends : ∀ c ∈ rest.head?, isNameChar c = false) :
    ofText? ('$' :: (name ++ rest)) = some (ofParts .binding name (dropSeparator rest)) := by
  rw [← ofNamed?_of_name .binding name rest named ends]
  rfl

theorem ofText?_of_head {target : Target} {line name value : Text}
    (head : Head target line name value) : ofText? line = some (ofParts target name value) := by
  cases head with
  | key named longest separated =>
    rw [ofText?_key _ _ named longest, dropSeparator_of_separated separated]
  | binding named longest separated =>
    rw [ofText?_binding _ _ named longest, dropSeparator_of_separated separated]

theorem ofNamed?_split {target : Target} {text : Text} {statement : Statement}
    (shown : ofNamed? target text = some statement) :
    ∃ name tail, text = name ++ tail ∧ IsName name ∧ (∀ c ∈ tail.head?, isNameChar c = false) ∧
      statement = ofParts target name (dropSeparator tail) := by
  unfold ofNamed? at shown
  split at shown
  · contradiction
  · next name tail split =>
    obtain ⟨taken, nonempty, dropped⟩ := splitName?_name text name tail split
    have named : IsName name := by
      rw [taken] at nonempty ⊢
      exact isName_takeWhile text nonempty
    have longest : ∀ c ∈ tail.head?, isNameChar c = false := by
      rw [dropped]
      exact head?_dropWhile isNameChar text
    refine ⟨name, tail, (splitName?_append text name tail split).symm, named, longest, ?_⟩
    rw [ofParts]
    split at shown <;> cases shown
    · next brace => rw [if_pos brace]
    · next value => rw [if_neg value]

theorem ofText?_cases {line : Text} {statement : Statement} (shown : ofText? line = some statement) :
    (line = ['}'] ∧ statement = close) ∨
      ∃ target name value, Head target line name value ∧
        statement = ofParts target name value := by
  unfold ofText? at shown
  split at shown
  · cases shown
    exact Or.inl ⟨rfl, rfl⟩
  · obtain ⟨name, tail, rfl, named, longest, rfl⟩ := ofNamed?_split shown
    exact Or.inr ⟨.binding, name, _, .binding named longest (separated_dropSeparator tail), rfl⟩
  · obtain ⟨name, tail, rfl, named, longest, rfl⟩ := ofNamed?_split shown
    exact Or.inr ⟨.key, name, _, .key named longest (separated_dropSeparator tail), rfl⟩

theorem eq_brace_of_close {line : Text} (shown : ofText? line = some close) : line = ['}'] := by
  rcases ofText?_cases shown with ⟨brace, -⟩ | ⟨target, name, value, -, same⟩
  · exact brace
  · rw [ofParts] at same
    split at same <;> contradiction

theorem head_of_opening {line name : Text} {target : Target}
    (shown : ofText? line = some (opening target name)) : Head target line name ['{'] := by
  rcases ofText?_cases shown with ⟨-, same⟩ | ⟨other, otherName, value, head, same⟩
  · contradiction
  · rw [ofParts] at same
    split at same
    · next brace =>
      cases same
      exact brace ▸ head
    · contradiction

theorem head_of_value {line name first : Text} {target : Target}
    (shown : ofText? line = some (.value target name first)) :
    Head target line name first ∧ first ≠ ['{'] := by
  rcases ofText?_cases shown with ⟨-, same⟩ | ⟨other, otherName, value, head, same⟩
  · contradiction
  · rw [ofParts] at same
    split at same
    · contradiction
    · next isValue =>
      cases same
      exact ⟨head, isValue⟩

end Statement

theorem Separated.suffix {tail value : Text} (separated : Separated tail value) :
    value <:+ tail := by
  cases separated with
  | blanks blank starts => exact List.suffix_append _ _
  | @sign before after value sign blank isSign blankAfter starts =>
    exact ⟨before ++ sign :: after, by simp⟩

theorem Head.suffix {target : Target} {line name value : Text}
    (head : Head target line name value) : value <:+ line := by
  cases head with
  | key named longest separated => exact separated.suffix.trans (List.suffix_append _ _)
  | @binding name tail value named longest separated =>
    exact separated.suffix.trans ⟨'$' :: name, rfl⟩

theorem Head.named {target : Target} {line name value : Text}
    (head : Head target line name value) : IsName name := by
  cases head with
  | key named longest separated => exact named
  | binding named longest separated => exact named

end ScopedConfig
