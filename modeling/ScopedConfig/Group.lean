import ScopedConfig.Text.Space

namespace ScopedConfig

inductive Group where
  | empty
  | scalar (key value : Text) (rest : Group)
  | nested (key : Text) (body rest : Group)
  deriving DecidableEq, Repr

inductive Entry where
  | scalar (value : Text)
  | group (entries : Group)
  deriving DecidableEq, Repr

namespace Entry

def scalar? : Entry → Option Text
  | scalar value => some value
  | group _ => none

def group? : Entry → Option Group
  | scalar _ => none
  | group entries => some entries

def isGroup : Entry → Bool
  | scalar _ => false
  | group _ => true

end Entry

namespace Group

def cons (key : Text) : Entry → Group → Group
  | .scalar value, rest => scalar key value rest
  | .group body, rest => nested key body rest

def entries : Group → List (Text × Entry)
  | empty => []
  | scalar key value rest => (key, .scalar value) :: rest.entries
  | nested key body rest => (key, .group body) :: rest.entries

def keys (group : Group) : List Text := group.entries.map (·.1)

def size (group : Group) : Nat := group.entries.length

def isEmpty : Group → Bool
  | empty => true
  | _ => false

def get? (key : Text) : Group → Option Entry
  | empty => none
  | scalar other value rest => if other = key then some (.scalar value) else rest.get? key
  | nested other body rest => if other = key then some (.group body) else rest.get? key

def contains (group : Group) (key : Text) : Bool := (group.get? key).isSome

/-- Sets the entry of a key. A key that is there keeps its place; a new one goes to the end. -/
def insert (key : Text) (entry : Entry) : Group → Group
  | empty => cons key entry empty
  | scalar other value rest =>
    if other = key then cons key entry rest else scalar other value (rest.insert key entry)
  | nested other body rest =>
    if other = key then cons key entry rest else nested other body (rest.insert key entry)

def ofEntries (entries : List (Text × Entry)) : Group :=
  entries.foldl (fun group entry => group.insert entry.1 entry.2) empty

def append : Group → Group → Group
  | empty, last => last
  | scalar key value rest, last => scalar key value (rest.append last)
  | nested key body rest, last => nested key body (rest.append last)

def getScalar? (group : Group) (key : Text) : Option Text := (group.get? key).bind Entry.scalar?

def getGroup? (group : Group) (key : Text) : Option Group := (group.get? key).bind Entry.group?

@[simp] theorem entries_cons (key : Text) (entry : Entry) (rest : Group) :
    (cons key entry rest).entries = (key, entry) :: rest.entries := by
  cases entry <;> rfl

@[simp] theorem get?_cons_same (key : Text) (entry : Entry) (rest : Group) :
    (cons key entry rest).get? key = some entry := by
  cases entry <;> simp [cons, get?]

theorem get?_cons_other (key other : Text) (entry : Entry) (rest : Group)
    (different : other ≠ key) : (cons other entry rest).get? key = rest.get? key := by
  cases entry <;> simp [cons, get?, different]

@[simp] theorem get?_insert_same (key : Text) (entry : Entry) (group : Group) :
    (group.insert key entry).get? key = some entry := by
  induction group with
  | empty => simp [insert]
  | scalar other value rest ih =>
    by_cases same : other = key
    · simp [insert, same]
    · simp [insert, same, get?, ih]
  | nested other body rest bodyIH ih =>
    by_cases same : other = key
    · simp [insert, same]
    · simp [insert, same, get?, ih]

theorem get?_insert_other (key other : Text) (entry : Entry) (group : Group)
    (different : other ≠ key) : (group.insert other entry).get? key = group.get? key := by
  induction group with
  | empty => simp [insert, get?_cons_other key other entry empty different]
  | scalar present value rest ih =>
    by_cases same : present = other
    · subst same
      simp [insert, get?, different, get?_cons_other]
    · simp [insert, same, get?, ih]
  | nested present body rest bodyIH ih =>
    by_cases same : present = other
    · subst same
      simp [insert, get?, different, get?_cons_other]
    · simp [insert, same, get?, ih]

theorem entries_insert_new (key : Text) (entry : Entry) (group : Group)
    (absent : group.contains key = false) :
    (group.insert key entry).entries = group.entries ++ [(key, entry)] := by
  induction group with
  | empty => simp [insert, entries]
  | scalar other value rest ih =>
    by_cases same : other = key
    · simp [contains, get?, same] at absent
    · have later : rest.contains key = false := by simpa [contains, get?, same] using absent
      simp [insert, same, entries, ih later]
  | nested other body rest bodyIH ih =>
    by_cases same : other = key
    · simp [contains, get?, same] at absent
    · have later : rest.contains key = false := by simpa [contains, get?, same] using absent
      simp [insert, same, entries, ih later]

@[simp] theorem entries_append (first last : Group) :
    (first.append last).entries = first.entries ++ last.entries := by
  induction first with
  | empty => rfl
  | scalar key value rest ih => simp [append, entries, ih]
  | nested key body rest bodyIH ih => simp [append, entries, ih]

@[simp] theorem keys_empty : empty.keys = [] := rfl

@[simp] theorem keys_scalar (key value : Text) (rest : Group) :
    (scalar key value rest).keys = key :: rest.keys := rfl

@[simp] theorem keys_nested (key : Text) (body rest : Group) :
    (nested key body rest).keys = key :: rest.keys := rfl

@[simp] theorem keys_cons (key : Text) (entry : Entry) (rest : Group) :
    (cons key entry rest).keys = key :: rest.keys := by
  simp [keys]

@[simp] theorem keys_append (first last : Group) :
    (first.append last).keys = first.keys ++ last.keys := by
  simp [keys]

theorem contains_iff (group : Group) (key : Text) :
    group.contains key = true ↔ key ∈ group.keys := by
  induction group with
  | empty => simp [contains, get?, keys, entries]
  | scalar other value rest ih =>
    have later : (rest.get? key).isSome = true ↔ key ∈ rest.keys := ih
    by_cases same : other = key
    · simp [contains, get?, keys, entries, same]
    · simp only [contains, get?, if_neg same, later, keys, entries, List.map_cons, List.mem_cons]
      simp [Ne.symm same]
  | nested other body rest bodyIH ih =>
    have later : (rest.get? key).isSome = true ↔ key ∈ rest.keys := ih
    by_cases same : other = key
    · simp [contains, get?, keys, entries, same]
    · simp only [contains, get?, if_neg same, later, keys, entries, List.map_cons, List.mem_cons]
      simp [Ne.symm same]

theorem get?_eq_none_iff (group : Group) (key : Text) :
    group.get? key = none ↔ key ∉ group.keys := by
  rw [← contains_iff, contains]
  simp

theorem get?_append (first last : Group) (key : Text) :
    (first.append last).get? key = (first.get? key).or (last.get? key) := by
  induction first with
  | empty => rfl
  | scalar other value rest ih =>
    by_cases same : other = key
    · simp [append, get?, same]
    · simp [append, get?, same, ih]
  | nested other body rest bodyIH ih =>
    by_cases same : other = key
    · simp [append, get?, same]
    · simp [append, get?, same, ih]

theorem entries_injective (left right : Group) (same : left.entries = right.entries) :
    left = right := by
  induction left generalizing right with
  | empty => cases right <;> simp_all [entries]
  | scalar key value rest ih =>
    cases right with
    | empty => simp [entries] at same
    | scalar other text tail =>
      simp only [entries, List.cons.injEq, Prod.mk.injEq, Entry.scalar.injEq] at same
      obtain ⟨⟨rfl, rfl⟩, tails⟩ := same
      rw [ih tail tails]
    | nested other body tail => simp [entries] at same
  | nested key body rest bodyIH ih =>
    cases right with
    | empty => simp [entries] at same
    | scalar other text tail => simp [entries] at same
    | nested other inner tail =>
      simp only [entries, List.cons.injEq, Prod.mk.injEq, Entry.group.injEq] at same
      obtain ⟨⟨rfl, rfl⟩, tails⟩ := same
      rw [ih tail tails]

theorem append_empty (group : Group) : group.append empty = group := by
  apply entries_injective
  simp [entries]

/-- A new entry goes to the end, so that it may as well be the first of those that follow. -/
theorem append_insert_new (key : Text) (entry : Entry) (group rest : Group)
    (absent : group.contains key = false) :
    (group.insert key entry).append rest = group.append (cons key entry rest) := by
  apply entries_injective
  simp [entries_insert_new key entry group absent]

theorem contains_insert_new (key other : Text) (entry : Entry) (group : Group)
    (different : key ≠ other) : (group.insert key entry).contains other = group.contains other := by
  rw [contains, contains, get?_insert_other other key entry group different]

end Group

end ScopedConfig
