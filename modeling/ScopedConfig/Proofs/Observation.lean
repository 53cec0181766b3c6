import Mathlib.Data.List.Perm.Subperm
import ScopedConfig.Config
import ScopedConfig.Proofs.Reachability

namespace ScopedConfig

inductive Entry.Alike : Entry → Entry → Prop where
  | scalar (value : Text) : Alike (.scalar value) (.scalar value)
  | group {left right : Group} (same : left.sameAs right = true) :
    Alike (.group left) (.group right)

namespace Group

variable {left right : Group}

theorem within_iff (group other : Group) :
    group.within other = true ↔
      ∀ place ∈ group.entries, ∃ next, other.get? place.1 = some next ∧ place.2.Alike next := by
  induction group with
  | empty => simp [within, entries]
  | scalar key value rest ih =>
    have here : other.get? key = some (.scalar value) ↔
        ∃ next, other.get? key = some next ∧ (Entry.scalar value).Alike next := by
      constructor
      · intro found
        exact ⟨_, found, .scalar value⟩
      · rintro ⟨_, found, ⟨⟩⟩
        exact found
    rw [within, Bool.and_eq_true, beq_iff_eq, ih, here, entries, List.forall_mem_cons]
  | nested key body rest bodyIH ih =>
    rw [within, Bool.and_eq_true, ih, entries, List.forall_mem_cons]
    refine and_congr_left fun _ => ?_
    constructor
    · intro matched
      split at matched
      · next inner found => exact ⟨_, found, .group matched⟩
      · contradiction
    · rintro ⟨_, found, same⟩
      cases same with
      | group same => rw [found]; exact same

theorem mem_keys_of_size (distinct : left.Distinct) (size : left.size = right.size)
    (covered : left.keys ⊆ right.keys) {key : Text} (member : key ∈ right.keys) :
    key ∈ left.keys := by
  have counts : right.keys.length ≤ left.keys.length := by
    simp only [Group.keys, List.length_map]
    exact size.ge
  have permuted := (List.subperm_of_subset distinct.nodup covered).perm_of_length_le counts
  exact permuted.mem_iff.mpr member

theorem size_eq_of_keys (distinct : left.Distinct) (distinctToo : right.Distinct)
    (same : ∀ key, key ∈ left.keys ↔ key ∈ right.keys) : left.size = right.size := by
  have permuted := (List.perm_ext_iff_of_nodup distinct.nodup distinctToo.nodup).mpr same
  simpa [Group.keys, Group.size] using permuted.length_eq

theorem sameAs_iff_get? (distinct : left.Distinct) (distinctToo : right.Distinct) :
    left.sameAs right = true ↔
      ∀ key, Option.Rel Entry.Alike (left.get? key) (right.get? key) := by
  rw [sameAs, Bool.and_eq_true, beq_iff_eq, within_iff]
  constructor
  · rintro ⟨size, alike⟩ key
    have covered : left.keys ⊆ right.keys := by
      intro other member
      obtain ⟨place, among, rfl⟩ := List.mem_map.mp member
      obtain ⟨next, found, -⟩ := alike place among
      exact mem_keys_of_mem_entries (mem_entries_of_get? found)
    cases here : left.get? key with
    | none =>
      have missing : key ∉ right.keys := fun member =>
        (left.get?_eq_none_iff key).mp here (mem_keys_of_size distinct size covered member)
      rw [(right.get?_eq_none_iff key).mpr missing]
      exact .none
    | some entry =>
      obtain ⟨next, there, same⟩ := alike (key, entry) (mem_entries_of_get? here)
      rw [there]
      exact .some same
  · intro alike
    constructor
    · apply size_eq_of_keys distinct distinctToo
      intro key
      have related := alike key
      rw [← not_iff_not, ← get?_eq_none_iff, ← get?_eq_none_iff]
      generalize left.get? key = here, right.get? key = there at related
      cases related <;> simp
    · rintro ⟨key, entry⟩ member
      have related := alike key
      rw [(get?_eq_some_iff distinct.nodup key entry).mpr member] at related
      generalize right.get? key = there at related
      cases related with
      | some same => exact ⟨_, rfl, same⟩

theorem showAlike_follow (distinct : left.Distinct) (distinctToo : right.Distinct)
    (same : left.sameAs right = true) (keys : List Text) :
    ShowAlike ((Entry.group left).follow keys) ((Entry.group right).follow keys) := by
  induction keys generalizing left right with
  | nil => exact .group left right
  | cons key keys ih =>
    have related := (sameAs_iff_get? distinct distinctToo).mp same key
    rw [Entry.follow, Entry.follow]
    generalize here : left.get? key = first, there : right.get? key = second at related
    cases related with
    | none => exact .absent
    | some alike =>
      cases alike with
      | scalar value =>
        cases keys with
        | nil => exact .scalar value
        | cons second keys => exact .absent
      | group inside =>
        exact ih (distinct_of_get? left key _ distinct here)
          (distinct_of_get? right key _ distinctToo there) inside

theorem sameAs_of_showAlike (distinct : left.Distinct) (distinctToo : right.Distinct)
    (alike : ∀ keys, ShowAlike ((Entry.group left).follow keys) ((Entry.group right).follow keys)) :
    left.sameAs right = true := by
  induction left using induction_inside generalizing right with
  | step left ih =>
    refine (sameAs_iff_get? distinct distinctToo).mpr fun key => ?_
    have shown := alike [key]
    rw [Entry.follow_group_singleton, Entry.follow_group_singleton] at shown
    generalize here : left.get? key = first, there : right.get? key = second at shown
    cases shown with
    | absent => exact .none
    | scalar value => exact .some (.scalar value)
    | group body inner =>
      refine .some (.group ?_)
      apply ih key body here (distinct_of_get? left key body distinct here)
        (distinct_of_get? right key inner distinctToo there)
      intro keys
      have below := alike (key :: keys)
      rwa [Entry.follow, Entry.follow, here, there] at below

theorem showAlike_of_find? (segments : left.AllKeys IsSegment) (segmentsToo : right.AllKeys IsSegment)
    (alike : ∀ path, ShowAlike (left.find? path) (right.find? path)) (keys : List Text) :
    ShowAlike ((Entry.group left).follow keys) ((Entry.group right).follow keys) := by
  by_cases proper : ∀ key ∈ keys, IsSegment key
  · have shown := alike (['/'].intercalate keys)
    rwa [find?, find?, pathKeys_intercalate proper] at shown
  · have astray {tree : Group} (all : tree.AllKeys IsSegment) :
        (Entry.group tree).follow keys = none := by
      rw [Option.eq_none_iff_forall_ne_some]
      intro entry found
      exact proper (all.of_follow found)
    rw [astray segments, astray segmentsToo]
    exact .absent

theorem sameAs_iff_find? (distinct : left.Distinct) (distinctToo : right.Distinct)
    (segments : left.AllKeys IsSegment) (segmentsToo : right.AllKeys IsSegment) :
    left.sameAs right = true ↔ ∀ path, ShowAlike (left.find? path) (right.find? path) := by
  constructor
  · intro same path
    exact showAlike_follow distinct distinctToo same (pathKeys path)
  · intro alike
    exact sameAs_of_showAlike distinct distinctToo
      (showAlike_of_find? segments segmentsToo alike)

end Group

namespace Config

variable {left right : Config} {text other : Text}

theorem parse_of_ofText (read : ofText text = .ok left) :
    parse text = .ok left.entries ∧ left.origin = none := by
  rw [ofText] at read
  split at read
  · next entries parsed =>
    cases read
    exact ⟨parsed, rfl⟩
  · contradiction

/-- Two texts are read as the same configuration, whatever the order of entries in the groups, just
if at every path both have nothing, or scalars with the same text, or groups. -/
theorem sameAs_iff_showAlike (read : ofText text = .ok left) (readToo : ofText other = .ok right) :
    left.sameAs right = true ↔
      ∀ path, ShowAlike (left.entries.find? path) (right.entries.find? path) := by
  obtain ⟨parsed, origin⟩ := parse_of_ofText read
  obtain ⟨parsedToo, originToo⟩ := parse_of_ofText readToo
  obtain ⟨distinct, segments⟩ := segments_of_parse parsed
  obtain ⟨distinctToo, segmentsToo⟩ := segments_of_parse parsedToo
  rw [← Group.sameAs_iff_find? distinct distinctToo segments segmentsToo, sameAs, origin, originToo]
  simp

/-- Entries in another order show the same at every path. An empty scalar where an empty group was
shows something else somewhere. -/
theorem sameAs_iff_showAlike_reordered :
    let inside : Group := .scalar ['x'] ['2'] (.nested ['y'] .empty .empty)
    let left : Config := ⟨.scalar ['a'] ['1'] (.nested ['g'] inside .empty), none⟩
    let turned : Group := .nested ['y'] .empty (.scalar ['x'] ['2'] .empty)
    let right : Config := ⟨.nested ['g'] turned (.scalar ['a'] ['1'] .empty), none⟩
    let blank : Group := .scalar ['y'] [] (.scalar ['x'] ['2'] .empty)
    let wrong : Config := ⟨.nested ['g'] blank (.scalar ['a'] ['1'] .empty), none⟩
    ofText "a = 1\ng \x7b\nx = 2\ny \x7b\n\x7d\n\x7d".toList = .ok left ∧
      ofText "g \x7b\ny \x7b\n\x7d\nx = 2\n\x7d\na = 1".toList = .ok right ∧
      ofText "g \x7b\ny = ''\nx = 2\n\x7d\na = 1".toList = .ok wrong ∧
      (∀ path, ShowAlike (left.entries.find? path) (right.entries.find? path)) ∧
      ¬ ∀ path, ShowAlike (left.entries.find? path) (wrong.entries.find? path) := by
  intro inside left turned right blank wrong
  have read : ofText "a = 1\ng \x7b\nx = 2\ny \x7b\n\x7d\n\x7d".toList = .ok left := by
    decide +kernel
  have readToo : ofText "g \x7b\ny \x7b\n\x7d\nx = 2\n\x7d\na = 1".toList = .ok right := by
    decide +kernel
  have readWrong : ofText "g \x7b\ny = ''\nx = 2\n\x7d\na = 1".toList = .ok wrong := by
    decide +kernel
  have same : left.sameAs right = true := by decide
  refine ⟨read, readToo, readWrong, (sameAs_iff_showAlike read readToo).mp same, ?_⟩
  intro alike
  have equal : left.sameAs wrong = true := (sameAs_iff_showAlike read readWrong).mpr alike
  exact absurd equal (by decide)

end Config

end ScopedConfig
