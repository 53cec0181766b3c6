import ScopedConfig.Proofs.Image
import ScopedConfig.Proofs.Keys
import ScopedConfig.Proofs.Paths

/-!
What paths lead to. A path behind another one leads on from what lies at the first. In a group with
distinct keys a path leads to the entry that lies below its keys, and to no other; if its keys can
stand in paths, every entry has a path of its own.
-/

namespace ScopedConfig

namespace Group

variable {tree : Group} {keys : List Text} {entry : Entry}

theorem not_leads_nil : ¬ tree.Leads [] entry := by
  intro leads
  cases leads

theorem leads_singleton {key : Text} : tree.Leads [key] entry ↔ (key, entry) ∈ tree.entries := by
  refine ⟨fun leads => ?_, .here⟩
  cases leads with
  | here member => exact member
  | inside member below => exact absurd below not_leads_nil

theorem leads_cons_cons {key second : Text} :
    tree.Leads (key :: second :: keys) entry ↔
      ∃ body, (key, .group body) ∈ tree.entries ∧ body.Leads (second :: keys) entry := by
  constructor
  · intro leads
    cases leads with
    | inside member below => exact ⟨_, member, below⟩
  · rintro ⟨body, member, below⟩
    exact .inside member below

theorem follow_eq_some_iff (distinct : tree.Distinct) (key : Text) (keys : List Text)
    (entry : Entry) :
    (Entry.group tree).follow (key :: keys) = some entry ↔ tree.Leads (key :: keys) entry := by
  induction keys generalizing tree key with
  | nil => rw [Entry.follow_group_singleton, get?_eq_some_iff distinct.nodup, leads_singleton]
  | cons second keys ih =>
    rw [leads_cons_cons, Entry.follow_cons_cons_eq_some_iff]
    constructor
    · rintro ⟨body, here, below⟩
      exact ⟨body, mem_entries_of_get? here,
        (ih (distinct_of_get? tree key body distinct here) second).mp below⟩
    · rintro ⟨body, member, below⟩
      have here := (get?_eq_some_iff distinct.nodup key (.group body)).mpr member
      exact ⟨body, here, (ih (distinct_of_get? tree key body distinct here) second).mpr below⟩

theorem follow_of_leads (distinct : tree.Distinct) (leads : tree.Leads keys entry) :
    (Entry.group tree).follow keys = some entry := by
  cases keys with
  | nil => exact absurd leads not_leads_nil
  | cons key keys => exact (follow_eq_some_iff distinct key keys entry).mpr leads

theorem pathKeys_of_leads (distinct : tree.Distinct) (segments : tree.AllKeys IsSegment)
    (leads : tree.Leads keys entry) : pathKeys (['/'].intercalate keys) = keys :=
  pathKeys_intercalate (segments.of_follow (follow_of_leads distinct leads))

theorem find?_of_leads (distinct : tree.Distinct) (segments : tree.AllKeys IsSegment)
    (leads : tree.Leads keys entry) : tree.find? (['/'].intercalate keys) = some entry := by
  rw [find?, pathKeys_of_leads distinct segments leads, follow_of_leads distinct leads]

theorem find?_eq_none (distinct : tree.Distinct) {path : Text} (named : pathKeys path ≠ [])
    (astray : ∀ entry, ¬ tree.Leads (pathKeys path) entry) : tree.find? path = none := by
  rw [find?, Option.eq_none_iff_forall_ne_some]
  intro entry found
  obtain ⟨key, keys, shape⟩ := List.exists_cons_of_ne_nil named
  rw [shape] at found astray
  exact astray entry ((follow_eq_some_iff distinct key keys entry).mp found)

theorem find?_append_eq_some_iff (tree : Group) (first : Text) {second : Text}
    (named : pathKeys second ≠ []) (entry : Entry) :
    tree.find? (first ++ '/' :: second) = some entry ↔
      ∃ inner, tree.find? first = some (.group inner) ∧ inner.find? second = some entry := by
  obtain ⟨key, keys, shape⟩ := List.exists_cons_of_ne_nil named
  rw [find?_append, Option.bind_eq_some_iff, shape]
  constructor
  · rintro ⟨next, here, below⟩
    obtain ⟨inner, _, rfl, -, -⟩ := (Entry.follow_cons_eq_some_iff next entry key keys).mp below
    exact ⟨inner, here, by rw [find?, shape, below]⟩
  · rintro ⟨inner, here, below⟩
    rw [find?, shape] at below
    exact ⟨.group inner, here, below⟩

theorem find?_append_slashes (tree : Group) (first : Text) {second : Text}
    (nameless : pathKeys second = []) :
    tree.find? (first ++ '/' :: second) = tree.find? first := by
  rw [find?_append, nameless]
  cases found : tree.find? first <;> simp [Entry.follow]

end Group

theorem segments_of_parse {text : Text} {tree : Group} (read : parse text = .ok tree) :
    tree.Distinct ∧ tree.AllKeys IsSegment := by
  obtain ⟨names, distinct⟩ := (Group.wellNamed_iff tree).mp (wellNamed_of_parse read)
  exact ⟨distinct, names.imp fun key named => named.isSegment⟩

/-- A path behind a path with a slash between them leads on from what lies at the first, which must be
a group if the second names a key; if it names none, it adds nothing. In a tree of keys that paths can
name, such as every tree that a text is read as, each entry lies at the path of the keys that lead to
it, no other entry lies there, and where no keys lead there is nothing. -/
theorem Group.find?_along :
    (∀ (tree : Group) (first second : Text),
      ((∃ segment ∈ second.splitOn '/', segment ≠ []) → ∀ entry,
        tree.find? (first ++ '/' :: second) = some entry ↔
          ∃ inner, tree.find? first = some (.group inner) ∧ inner.find? second = some entry) ∧
      ((∀ segment ∈ second.splitOn '/', segment = []) →
        tree.find? (first ++ '/' :: second) = tree.find? first)) ∧
    (∀ tree : Group, tree.Distinct → tree.AllKeys IsSegment →
      (∀ keys entry, tree.Leads keys entry → tree.find? (['/'].intercalate keys) = some entry) ∧
      (∀ keys keys' entry entry', tree.Leads keys entry → tree.Leads keys' entry' →
        ['/'].intercalate keys = ['/'].intercalate keys' → keys = keys' ∧ entry = entry') ∧
      ∀ path, pathKeys path ≠ [] → (∀ entry, ¬ tree.Leads (pathKeys path) entry) →
        tree.find? path = none) ∧
    ∀ text tree, parse text = .ok tree → tree.Distinct ∧ tree.AllKeys IsSegment := by
  refine ⟨fun tree first second => ⟨?_, ?_⟩, ?_, fun text tree => segments_of_parse⟩
  · rintro ⟨segment, member, visible⟩
    refine find?_append_eq_some_iff tree first fun nameless => visible ?_
    exact (pathKeys_eq_nil_iff second).mp nameless segment member
  · intro nameless
    exact find?_append_slashes tree first ((pathKeys_eq_nil_iff second).mpr nameless)
  · intro tree distinct segments
    refine ⟨fun keys entry => find?_of_leads distinct segments, ?_,
      fun path => find?_eq_none distinct⟩
    intro keys keys' entry entry' leads leads' joined
    obtain rfl : keys = keys' := by
      rw [← pathKeys_of_leads distinct segments leads, joined,
        pathKeys_of_leads distinct segments leads']
    have same := (follow_of_leads distinct leads).symm.trans (follow_of_leads distinct leads')
    exact ⟨rfl, Option.some.inj same⟩

/-- Slashes too many on both sides of a group, behind a scalar, and a path through a scalar; an entry
at its own path, and a path that skips a group. -/
theorem Group.find?_along_slashes :
    let text : Text := "g \x7b\nh \x7b\nk = 1\n\x7d\n\x7d\ns".toList
    let inner : Group := .nested ['h'] (.scalar ['k'] ['1'] .empty) .empty
    let tree : Group := .nested ['g'] inner (.scalar ['s'] [] .empty)
    parse text = .ok tree ∧ tree.Distinct ∧ tree.AllKeys IsSegment ∧
      tree.find? ("/g".toList ++ '/' :: "/h//k/".toList) = some (.scalar ['1']) ∧
      (∀ entry, tree.find? ("s".toList ++ '/' :: "k".toList) ≠ some entry) ∧
      tree.find? ("s".toList ++ '/' :: "//".toList) = some (.scalar []) ∧
      tree.Leads [['g'], ['h'], ['k']] (.scalar ['1']) ∧
      tree.find? (['/'].intercalate [['g'], ['h'], ['k']]) = some (.scalar ['1']) ∧
      tree.find? "g/k".toList = none := by
  intro text inner tree
  have read : parse text = .ok tree := by decide +kernel
  obtain ⟨composed, reached, parsed⟩ := Group.find?_along
  obtain ⟨distinct, segments⟩ := parsed text tree read
  obtain ⟨found, -, astray⟩ := reached tree distinct segments
  have leads : tree.Leads [['g'], ['h'], ['k']] (.scalar ['1']) := by
    simp [leads_cons_cons, leads_singleton, tree, inner, entries]
  have skipped (entry : Entry) : ¬ tree.Leads [['g'], ['k']] entry := by
    simp [leads_cons_cons, leads_singleton, tree, inner, entries]
  refine ⟨read, distinct, segments, ?_, ?_, ?_, leads, found _ _ leads, ?_⟩
  · exact ((composed tree "/g".toList "/h//k/".toList).1 (by decide) _).mpr ⟨inner, rfl, rfl⟩
  · intro entry through
    obtain ⟨_, here, -⟩ := ((composed tree ['s'] ['k']).1 (by decide) entry).mp through
    have lies : tree.find? ['s'] = some (.scalar []) := rfl
    rw [lies] at here
    cases here
  · exact (composed tree ['s'] ['/', '/']).2 (by decide)
  · exact astray ['g', '/', 'k'] (by decide) skipped

end ScopedConfig
