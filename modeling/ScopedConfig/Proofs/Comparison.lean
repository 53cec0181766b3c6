import ScopedConfig.Group.Comparison
import ScopedConfig.Group.WellNamed

namespace ScopedConfig

namespace Group

theorem within_append (first last other : Group) :
    (first.append last).within other = (first.within other && last.within other) := by
  induction first with
  | empty => rfl
  | scalar key value rest ih => rw [append, within, within, ih, Bool.and_assoc]
  | nested key body rest bodyIH ih => rw [append, within, within, ih, Bool.and_assoc]

/-- A group lies within every group that has its entries. Keys must differ, or an entry would hide
another one of the same group. -/
theorem within_of_get? (group other : Group) (named : group.WellNamed)
    (same : ∀ key ∈ group.keys, other.get? key = group.get? key) : group.within other = true := by
  induction group generalizing other with
  | empty => rfl
  | scalar key value rest ih =>
    obtain ⟨-, unique, restNamed⟩ := named
    have here : other.get? key = some (.scalar value) := by
      rw [same key (by simp)]
      simp [get?]
    have later : rest.within other = true := by
      apply ih other restNamed
      intro next member
      have different : key ≠ next := fun equal => unique (equal ▸ member)
      rw [same next (by simp [member]), get?, if_neg different]
    simp [within, here, later]
  | nested key body rest bodyIH ih =>
    obtain ⟨-, unique, bodyNamed, restNamed⟩ := named
    have here : other.get? key = some (.group body) := by
      rw [same key (by simp)]
      simp [get?]
    have inside : body.within body = true := bodyIH body bodyNamed fun _ _ => rfl
    have later : rest.within other = true := by
      apply ih other restNamed
      intro next member
      have different : key ≠ next := fun equal => unique (equal ▸ member)
      rw [same next (by simp [member]), get?, if_neg different]
    simp [within, here, inside, later]

theorem sameAs_append_comm (left right : Group) (named : left.WellNamed)
    (namedToo : right.WellNamed) (apart : ∀ key ∈ left.keys, key ∉ right.keys) :
    (right.append left).sameAs (left.append right) = true := by
  have size : (right.append left).size = (left.append right).size := by
    simp [Group.size, Nat.add_comm]
  have fromRight : right.within (left.append right) = true := by
    apply within_of_get? right _ namedToo
    intro key member
    have absent := (left.get?_eq_none_iff key).mpr fun present => apart key present member
    rw [get?_append, absent, Option.none_or]
  have fromLeft : left.within (left.append right) = true := by
    apply within_of_get? left _ named
    intro key member
    have absent := (right.get?_eq_none_iff key).mpr (apart key member)
    rw [get?_append, absent, Option.or_none]
  simp [sameAs, size, within_append, fromRight, fromLeft]

end Group

end ScopedConfig
