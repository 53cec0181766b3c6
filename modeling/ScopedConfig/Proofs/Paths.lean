import ScopedConfig.Group.Path
import ScopedConfig.Text.Name

namespace ScopedConfig

theorem IsName.noSlash {name : Text} (named : IsName name) : '/' ∉ name := by
  intro slash
  exact absurd (named.2 '/' slash) (by decide)

theorem IsName.isSegment {name : Text} (named : IsName name) : IsSegment name :=
  ⟨named.1, named.noSlash⟩

theorem pathKeys_append (first second : Text) :
    pathKeys (first ++ '/' :: second) = pathKeys first ++ pathKeys second := by
  rw [pathKeys, List.splitOn_append_cons_self, List.filter_append]
  rfl

theorem pathKeys_intercalate {keys : List Text} (segments : ∀ key ∈ keys, IsSegment key) :
    pathKeys (['/'].intercalate keys) = keys := by
  cases keys with
  | nil => rfl
  | cons key keys =>
    have plain : ∀ other ∈ key :: keys, '/' ∉ other := fun other member => (segments other member).2
    rw [pathKeys, List.splitOn_intercalate '/' plain (List.cons_ne_nil key keys)]
    apply List.filter_eq_self.mpr
    intro other member
    simpa using (segments other member).1

theorem pathKeys_eq_nil_iff (path : Text) :
    pathKeys path = [] ↔ ∀ segment ∈ path.splitOn '/', segment = [] := by
  simp [pathKeys]

theorem Group.find?_append (group : Group) (first second : Text) :
    group.find? (first ++ '/' :: second) =
      (group.find? first).bind (·.follow (pathKeys second)) := by
  rw [find?, pathKeys_append, Entry.follow_append]
  rfl

theorem Entry.follow_group_singleton (group : Group) (key : Text) :
    (Entry.group group).follow [key] = group.get? key := by
  cases found : group.get? key <;> simp [follow, found]

theorem Entry.follow_cons_eq_some_iff (entry found : Entry) (key : Text) (keys : List Text) :
    entry.follow (key :: keys) = some found ↔
      ∃ body next, entry = .group body ∧ body.get? key = some next ∧
        next.follow keys = some found := by
  cases entry with
  | scalar value => simp [follow]
  | group body => simp [follow, Option.bind_eq_some_iff]

theorem Entry.follow_cons_cons_eq_some_iff (tree : Group) (found : Entry) (key second : Text)
    (keys : List Text) :
    (Entry.group tree).follow (key :: second :: keys) = some found ↔
      ∃ body, tree.get? key = some (.group body) ∧
        (Entry.group body).follow (second :: keys) = some found := by
  rw [follow_cons_eq_some_iff]
  constructor
  · rintro ⟨_, next, ⟨⟩, here, below⟩
    obtain ⟨body, _, rfl, -, -⟩ := (follow_cons_eq_some_iff next found second keys).mp below
    exact ⟨body, here, below⟩
  · rintro ⟨body, here, below⟩
    exact ⟨tree, .group body, rfl, here, below⟩

theorem Entry.follow_inside {holds : Group → Prop}
    (inside : ∀ group key body, holds group → group.get? key = some (.group body) → holds body)
    {group body : Group} (outer : holds group) {keys : List Text}
    (found : (Entry.group group).follow keys = some (.group body)) : holds body := by
  induction keys generalizing group with
  | nil =>
    cases found
    exact outer
  | cons key keys ih =>
    rw [follow] at found
    obtain ⟨entry, here, below⟩ := Option.bind_eq_some_iff.mp found
    cases entry with
    | scalar value => cases keys <;> simp [follow] at below
    | group entries => exact ih (inside group key entries outer here) below

end ScopedConfig
