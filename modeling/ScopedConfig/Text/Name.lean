import ScopedConfig.Text.Space

namespace ScopedConfig

def isNameChar (c : Char) : Bool := c.isAlphanum || c = '_'

def IsName (text : Text) : Prop := text ≠ [] ∧ ∀ c ∈ text, isNameChar c = true

theorem isName_iff (text : Text) : (!text.isEmpty && text.all isNameChar) = true ↔ IsName text := by
  simp [IsName]

instance : DecidablePred IsName := fun text => decidable_of_decidable_of_iff (isName_iff text)

def splitName? (text : Text) : Option (Text × Text) :=
  match text.takeWhile isNameChar with
  | [] => none
  | name => some (name, text.dropWhile isNameChar)

theorem splitName?_append (text name rest : Text) (split : splitName? text = some (name, rest)) :
    name ++ rest = text := by
  unfold splitName? at split
  split at split
  · contradiction
  · cases split
    exact List.takeWhile_append_dropWhile

theorem splitName?_name (text name rest : Text) (split : splitName? text = some (name, rest)) :
    name = text.takeWhile isNameChar ∧ name ≠ [] ∧ rest = text.dropWhile isNameChar := by
  unfold splitName? at split
  split at split
  · contradiction
  · next nonempty =>
    cases split
    exact ⟨rfl, nonempty, rfl⟩

theorem splitName?_eq_none (text : Text) :
    splitName? text = none ↔ text.takeWhile isNameChar = [] := by
  unfold splitName?
  split <;> simp_all

end ScopedConfig
