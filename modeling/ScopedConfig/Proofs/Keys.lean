import ScopedConfig.Group.Keys
import ScopedConfig.Group.Path
import ScopedConfig.Group.WellNamed

namespace ScopedConfig

namespace Group

variable {proper : Text → Prop} {group : Group}

theorem induction_entries {motive : Group → Prop} (empty : motive empty)
    (cons : ∀ key entry rest, motive rest → motive (cons key entry rest)) :
    ∀ group, motive group
  | .empty => empty
  | .scalar key value rest => cons key (.scalar value) rest (induction_entries empty cons rest)
  | .nested key body rest => cons key (.group body) rest (induction_entries empty cons rest)

theorem mem_entries_of_get? {key : Text} {entry : Entry} (found : group.get? key = some entry) :
    (key, entry) ∈ group.entries := by
  induction group using induction_entries with
  | empty => contradiction
  | cons other next rest ih =>
    rw [entries_cons, List.mem_cons]
    by_cases same : other = key
    · subst same
      rw [get?_cons_same, Option.some.injEq] at found
      exact Or.inl (by rw [found])
    · rw [get?_cons_other key other next rest same] at found
      exact Or.inr (ih found)

theorem mem_keys_of_mem_entries {key : Text} {entry : Entry}
    (member : (key, entry) ∈ group.entries) : key ∈ group.keys :=
  List.mem_map_of_mem member

theorem exists_append_of_get? {key : Text} {entry : Entry} (found : group.get? key = some entry) :
    ∃ first rest : Group, group = first.append (cons key entry rest) := by
  induction group using induction_entries with
  | empty => contradiction
  | cons other next rest ih =>
    by_cases same : other = key
    · subst same
      rw [get?_cons_same, Option.some.injEq] at found
      exact ⟨empty, rest, by rw [found]; rfl⟩
    · rw [get?_cons_other key other next rest same] at found
      obtain ⟨first, last, rfl⟩ := ih found
      exact ⟨cons other next first, last, by cases next <;> rfl⟩

/-- Where the keys of a group differ, no entry hides another one. -/
theorem get?_eq_some_iff (unique : group.keys.Nodup) (key : Text) (entry : Entry) :
    group.get? key = some entry ↔ (key, entry) ∈ group.entries := by
  refine ⟨mem_entries_of_get?, fun member => ?_⟩
  induction group using induction_entries with
  | empty => contradiction
  | cons other next rest ih =>
    rw [keys_cons, List.nodup_cons] at unique
    rw [entries_cons, List.mem_cons] at member
    rcases member with same | member
    · cases same
      exact get?_cons_same key entry rest
    · have different : other ≠ key := fun same => unique.1 (same ▸ mem_keys_of_mem_entries member)
      rw [get?_cons_other key other next rest different]
      exact ih unique.2 member

theorem forall_groups_nested {holds : Group → Prop} (key : Text) (body rest : Group) :
    (∀ other inner, (other, .group inner) ∈ (nested key body rest).entries → holds inner) ↔
      holds body ∧ ∀ other inner, (other, .group inner) ∈ rest.entries → holds inner := by
  constructor
  · intro all
    exact ⟨all key body List.mem_cons_self,
      fun other inner member => all other inner (List.mem_cons_of_mem _ member)⟩
  · rintro ⟨here, later⟩ other inner member
    rcases List.mem_cons.mp member with same | member
    · cases same
      exact here
    · exact later other inner member

theorem distinct_iff (group : Group) :
    group.Distinct ↔ group.keys.Nodup ∧
      ∀ key body, (key, .group body) ∈ group.entries → body.Distinct := by
  induction group with
  | empty => simp [Distinct, entries]
  | scalar key value rest ih => simp [Distinct, entries, ih, and_assoc]
  | nested key body rest bodyIH ih =>
    rw [Distinct, ih, forall_groups_nested, keys_nested, List.nodup_cons]
    simp only [and_assoc, and_left_comm]

theorem allKeys_iff (group : Group) :
    group.AllKeys proper ↔ (∀ key ∈ group.keys, proper key) ∧
      ∀ key body, (key, .group body) ∈ group.entries → body.AllKeys proper := by
  induction group with
  | empty => simp [AllKeys, entries]
  | scalar key value rest ih => simp [AllKeys, entries, ih, and_assoc]
  | nested key body rest bodyIH ih =>
    rw [AllKeys, ih, forall_groups_nested, keys_nested, List.forall_mem_cons]
    simp only [and_assoc, and_left_comm]

theorem Distinct.nodup (distinct : group.Distinct) : group.keys.Nodup :=
  ((distinct_iff group).mp distinct).1

theorem distinct_of_get? (group : Group) (key : Text) (body : Group) (distinct : group.Distinct)
    (found : group.get? key = some (.group body)) : body.Distinct :=
  ((distinct_iff group).mp distinct).2 key body (mem_entries_of_get? found)

theorem allKeys_of_get? (group : Group) (key : Text) (body : Group) (all : group.AllKeys proper)
    (found : group.get? key = some (.group body)) : body.AllKeys proper :=
  ((allKeys_iff group).mp all).2 key body (mem_entries_of_get? found)

theorem distinct_cons_iff (key : Text) (entry : Entry) (rest : Group) :
    (cons key entry rest).Distinct ↔
      key ∉ rest.keys ∧ (∀ body, entry = .group body → body.Distinct) ∧ rest.Distinct := by
  cases entry <;> simp [cons, Distinct]

theorem insert_cons (key other : Text) (entry next : Entry) (rest : Group) :
    (cons other next rest).insert key entry =
      if other = key then cons key entry rest else cons other next (rest.insert key entry) := by
  cases next <;> rfl

theorem mem_keys_insert (key other : Text) (entry : Entry) (group : Group) :
    other ∈ (group.insert key entry).keys ↔ other = key ∨ other ∈ group.keys := by
  rw [← contains_iff, ← contains_iff, contains, contains]
  by_cases same : other = key
  · subst same
    simp
  · rw [get?_insert_other other key entry group (Ne.symm same)]
    simp [same]

theorem distinct_insert (key : Text) (entry : Entry) (distinct : group.Distinct)
    (inside : ∀ body, entry = .group body → body.Distinct) : (group.insert key entry).Distinct := by
  induction group using induction_entries with
  | empty => exact (distinct_cons_iff key entry empty).mpr ⟨List.not_mem_nil, inside, trivial⟩
  | cons other next rest ih =>
    obtain ⟨unique, nextInside, restDistinct⟩ := (distinct_cons_iff other next rest).mp distinct
    rw [insert_cons]
    by_cases same : other = key
    · subst same
      rw [if_pos rfl]
      exact (distinct_cons_iff other entry rest).mpr ⟨unique, inside, restDistinct⟩
    · rw [if_neg same, distinct_cons_iff, mem_keys_insert, not_or]
      exact ⟨⟨same, unique⟩, nextInside, ih restDistinct⟩

theorem distinct_ofEntries (entries : List (Text × Entry))
    (inside : ∀ place ∈ entries, ∀ body, place.2 = .group body → body.Distinct) :
    (ofEntries entries).Distinct := by
  rw [ofEntries]
  refine List.foldlRecOn entries _ (show Distinct empty from trivial) ?_
  intro group distinct place member
  exact distinct_insert place.1 place.2 distinct (inside place member)

theorem wellNamed_iff (group : Group) :
    group.WellNamed ↔ group.AllKeys IsName ∧ group.Distinct := by
  induction group with
  | empty => simp [WellNamed, AllKeys, Distinct]
  | scalar key value rest ih =>
    rw [WellNamed, AllKeys, Distinct, ih]
    simp only [and_assoc, and_left_comm]
  | nested key body rest bodyIH ih =>
    rw [WellNamed, AllKeys, Distinct, bodyIH, ih]
    simp only [and_assoc, and_left_comm]

theorem AllKeys.imp {other : Text → Prop} (weaker : ∀ key, proper key → other key)
    (all : group.AllKeys proper) : group.AllKeys other := by
  induction group with
  | empty => trivial
  | scalar key value rest ih => exact ⟨weaker key all.1, ih all.2⟩
  | nested key body rest bodyIH ih => exact ⟨weaker key all.1, bodyIH all.2.1, ih all.2.2⟩

theorem induction_inside {motive : Group → Prop}
    (step : ∀ group, (∀ key body, group.get? key = some (.group body) → motive body) → motive group)
    (group : Group) : motive group := by
  apply step
  induction group with
  | empty => simp [get?]
  | scalar other value rest ih =>
    intro key body found
    by_cases same : other = key
    · simp [get?, same] at found
    · exact ih key body (by simpa [get?, same] using found)
  | nested other inner rest innerIH ih =>
    intro key body found
    by_cases same : other = key
    · obtain rfl : inner = body := by simpa [get?, same] using found
      exact step inner innerIH
    · exact ih key body (by simpa [get?, same] using found)

theorem AllKeys.of_follow (all : group.AllKeys proper) {keys : List Text} {entry : Entry}
    (found : (Entry.group group).follow keys = some entry) : ∀ key ∈ keys, proper key := by
  induction keys generalizing group with
  | nil => simp
  | cons key keys ih =>
    rw [Entry.follow] at found
    obtain ⟨next, here, below⟩ := Option.bind_eq_some_iff.mp found
    have first : proper key :=
      ((allKeys_iff group).mp all).1 key (mem_keys_of_mem_entries (mem_entries_of_get? here))
    refine List.forall_mem_cons.mpr ⟨first, ?_⟩
    cases next with
    | group body => exact ih (allKeys_of_get? group key body all here) below
    | scalar value =>
      cases keys with
      | nil => simp
      | cons second keys => contradiction

end Group

end ScopedConfig
