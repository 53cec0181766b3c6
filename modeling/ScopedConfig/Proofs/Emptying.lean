import ScopedConfig.Group.Emptied
import ScopedConfig.Proofs.Renumbering

/-!
Readings of which one has a group and the other has it empty. Since nothing looks into a group that
has been closed, the two go on alike, whatever groups around it are closed and opened later.
-/

namespace ScopedConfig

/-- Open groups and entries on two sides that are the same but for the group at `path`, which has
been closed and is empty on the right. It is an entry of the innermost open group or of one of the
groups around that. -/
inductive EmptiedAt (path : List Text) :
    List OpenGroup → Group → List OpenGroup → Group → Prop where
  | here {outer : List OpenGroup} {entries body : Group} {key : Text} {keys : List Text}
    (place : path = (outer.map (·.name)).reverse ++ key :: keys)
    (held : (Entry.group entries).follow (key :: keys) = some (.group body)) :
    EmptiedAt path outer entries outer (entries.emptyAt (key :: keys))
  | around {outer outer' : List OpenGroup} {before before' entries : Group} {name : Text}
    (below : EmptiedAt path outer before outer' before') :
    EmptiedAt path (⟨name, before⟩ :: outer) entries (⟨name, before'⟩ :: outer') entries

namespace EmptiedAt

variable {path : List Text} {outer outer' : List OpenGroup} {entries entries' : Group}

theorem names (emptied : EmptiedAt path outer entries outer' entries') :
    outer.map (·.name) = outer'.map (·.name) := by
  induction emptied with
  | here place held => rfl
  | around below ih => rw [List.map_cons, List.map_cons, ih]

theorem contains (emptied : EmptiedAt path outer entries outer' entries') (name : Text) :
    entries.contains name = entries'.contains name := by
  cases emptied with
  | here place held => rw [Group.contains_emptyAt]
  | around below => rfl

theorem insert (emptied : EmptiedAt path outer entries outer' entries') (name : Text)
    (entry : Entry) (fresh : entries.contains name = false) :
    EmptiedAt path outer (entries.insert name entry) outer' (entries'.insert name entry) := by
  cases emptied with
  | @here _ _ body key keys place held =>
    have different : name ≠ key := by
      rintro rfl
      cases found : entries.get? name with
      | none => simp [Entry.follow, found] at held
      | some present => simp [Group.contains, found] at fresh
    rw [← Group.emptyAt_insert_other key name keys entry entries different]
    have kept : (Entry.group (entries.insert name entry)).follow (key :: keys) =
        some (.group body) := by
      rw [Entry.follow, Group.get?_insert_other key name entry entries different, ← Entry.follow]
      exact held
    exact .here place kept
  | around below => exact .around below

theorem added {inner body : Group} {name : Text} {keys : List Text}
    (place : path = (outer.map (·.name)).reverse ++ name :: keys)
    (held : (Entry.group inner).follow keys = some (.group body))
    (fresh : entries.contains name = false) :
    EmptiedAt path outer (entries.insert name (.group inner)) outer
      (entries.insert name (.group (inner.emptyAt keys))) := by
  rw [← Group.emptyAt_insert_new name keys inner entries fresh]
  have kept : (Entry.group (entries.insert name (.group inner))).follow (name :: keys) =
      some (.group body) := by
    rw [Entry.follow, Group.get?_insert_same]
    exact held
  exact .here place kept

theorem outermost (emptied : EmptiedAt path [] entries outer' entries') :
    (∃ body, (Entry.group entries).follow path = some (.group body)) ∧
      entries' = entries.emptyAt path := by
  cases emptied with
  | @here _ _ body key keys place held =>
    rw [List.map_nil, List.reverse_nil, List.nil_append] at place
    rw [place]
    exact ⟨⟨body, held⟩, rfl⟩

end EmptiedAt

structure State.Emptied (same : Nat → Nat → Prop) (path : List Text) (left right : State) :
    Prop where
  scopes : Scopes.Alike same left.scopes right.scopes
  groups : EmptiedAt path left.outer left.entries right.outer right.entries

theorem emptying (same : Correspondence) (paths : ∀ path, same.path path path) (path : List Text) :
    Simulation same (State.Emptied same.line path) where
  pending relation _ _ := ⟨relation.scopes, relation.groups⟩
  qualified relation name := by
    rw [State.qualified, State.qualified, State.path, State.path, relation.groups.names]
    exact paths _
  contains relation := relation.groups.contains
  local? relation := relation.scopes.local?
  resolve? relation := relation.scopes.resolve?
  opened relation name _ := ⟨relation.scopes.enter, .around relation.groups⟩
  closed {left right} relation sound _ _ lines := by
    obtain ⟨scopes, outer, entries, reading⟩ := left
    obtain ⟨scopes', outer', entries', reading'⟩ := right
    obtain ⟨declared, groups⟩ := relation
    have fresh := sound.opened
    dsimp only at groups fresh
    -- A group with the emptied one in it is closed, or one that was opened after it.
    cases groups with
    | here place held =>
      cases outer with
      | nil => exact .error (.strayClose lines)
      | cons group outer =>
        rw [List.map_cons, List.reverse_cons, List.append_assoc] at place
        exact .ok ⟨declared.exit, .added place held (fresh group List.mem_cons_self)⟩
    | around below =>
      exact .ok ⟨declared.exit, below.insert _ _ (fresh _ List.mem_cons_self)⟩
  inserted relation name value fresh := ⟨relation.scopes, relation.groups.insert name _ fresh⟩
  declared relation name value _ _ lines :=
    ⟨relation.scopes.extend name value lines, relation.groups⟩

end ScopedConfig
