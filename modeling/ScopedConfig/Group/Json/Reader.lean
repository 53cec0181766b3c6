import ScopedConfig.Group.Json.Parts

/-!
A reader of whole objects. It keeps the order of the members. The objects that are open at a place
are read on together: what is still to come in each of them comes out as a list of groups, the
innermost one first.
-/

namespace ScopedConfig

def withScalar (key value : Text) : List Group → List Group
  | [] => []
  | rest :: groups => .scalar key value rest :: groups

def withNested (key : Text) : List Group → List Group
  | body :: rest :: groups => .nested key body rest :: groups
  | groups => groups

/-- Reads what is still to come in the given number of objects; after them only blanks may come. -/
def readJsonMembers? : Nat → Bool → Text → Option (List Group)
  | 0, _, text => if text.all isJsonBlank then some [] else none
  | depth + 1, later, text =>
    match read : readJsonPart? later text with
    | none => none
    | some (.close, left) =>
      (readJsonMembers? depth true left).map (.empty :: ·)
    | some (.scalar key value, left) =>
      (readJsonMembers? (depth + 1) true left).map (withScalar key value)
    | some (.opening key, left) =>
      (readJsonMembers? (depth + 2) false left).map (withNested key)
termination_by _ _ text => text.length
decreasing_by all_goals exact length_readJsonPart? read

def readJson? (text : Text) : Option Group :=
  match skipJsonBlanks text with
  | '\x7b' :: members => (readJsonMembers? 1 false members).bind List.head?
  | _ => none

end ScopedConfig
