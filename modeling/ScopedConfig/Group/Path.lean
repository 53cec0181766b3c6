import ScopedConfig.Group

namespace ScopedConfig

def pathKeys (path : Text) : List Text := (path.splitOn '/').filter fun key => !key.isEmpty

def Entry.follow : Entry → List Text → Option Entry
  | entry, [] => some entry
  | .scalar _, _ :: _ => none
  | .group entries, key :: keys => (entries.get? key).bind (·.follow keys)

def Group.find? (group : Group) (path : Text) : Option Entry :=
  (Entry.group group).follow (pathKeys path)

def IsSegment (key : Text) : Prop := key ≠ [] ∧ '/' ∉ key

instance : DecidablePred IsSegment := fun _ => inferInstanceAs (Decidable (_ ∧ _))

/-- An entry inside a group and the keys that lead to it, from the outermost inwards. -/
inductive Group.Leads : Group → List Text → Entry → Prop where
  | here {group : Group} {key : Text} {entry : Entry} (member : (key, entry) ∈ group.entries) :
    Leads group [key] entry
  | inside {group body : Group} {key : Text} {keys : List Text} {entry : Entry}
    (member : (key, .group body) ∈ group.entries) (below : Leads body keys entry) :
    Leads group (key :: keys) entry

/-- What two look-ups show is the same: nothing, a scalar with the same text, or a group. -/
inductive ShowAlike : Option Entry → Option Entry → Prop where
  | absent : ShowAlike none none
  | scalar (value : Text) : ShowAlike (some (.scalar value)) (some (.scalar value))
  | group (left right : Group) : ShowAlike (some (.group left)) (some (.group right))

theorem Entry.follow_append (entry : Entry) (first second : List Text) :
    entry.follow (first ++ second) = (entry.follow first).bind (·.follow second) := by
  induction first generalizing entry with
  | nil => simp [follow]
  | cons key keys ih =>
    cases entry with
    | scalar value => simp [follow]
    | group entries => cases found : entries.get? key <;> simp [follow, found, ih]

end ScopedConfig
