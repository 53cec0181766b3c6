import ScopedConfig.Placement
import ScopedConfig.Proofs.Lines
import ScopedConfig.Proofs.Statements
import ScopedConfig.Proofs.Values

/-!
The reader against the grammar of bodies. A body is read statement by statement into its entries,
and whatever is read to its end is a body: the reader accepts the texts that the grammar gives a
meaning, each with that meaning.
-/

namespace ScopedConfig

namespace State

/-- A state between two statements of a body: the bindings and the keys that the body has so far,
and the bindings around it. -/
structure Within (state : State) (outer : List Bindings) (own : Bindings) (keys : List Text) :
    Prop where
  clear : state.pending = none
  inSight : state.scopes.bindings = own :: outer
  taken : ∀ key, key ∈ keys ↔ state.entries.contains key = true

variable {state : State} {outer : List Bindings} {own : Bindings} {keys : List Text}

theorem within_start : start.Within [] [] [] := by
  refine ⟨rfl, rfl, fun key => ?_⟩
  simp [start, Group.contains, Group.get?]

theorem Within.fresh {name : Text} (within : state.Within outer own keys) (new : name ∉ keys) :
    state.entries.contains name = false := by
  rw [within.taken name] at new
  simpa using new

theorem Within.new {name : Text} (within : state.Within outer own keys)
    (fresh : state.entries.contains name = false) : name ∉ keys := by
  rw [within.taken name, fresh]
  exact Bool.false_ne_true

theorem Within.opened (within : state.Within outer own keys) (name : Text) :
    (state.openGroup name).Within (own :: outer) [] [] := by
  refine ⟨rfl, ?_, fun key => ?_⟩
  · rw [← within.inSight]
    rfl
  · simp [openGroup, Group.contains, Group.get?]

theorem Within.inserted (within : state.Within outer own keys) (name : Text) (entry : Entry) :
    Within { state with entries := state.entries.insert name entry, pending := none } outer own
      (name :: keys) := by
  refine ⟨rfl, within.inSight, fun key => ?_⟩
  by_cases same : key = name
  · simp [same, Group.contains]
  · rw [List.mem_cons, Group.contains_insert_new name key entry _ (Ne.symm same),
      ← within.taken key]
    simp [same]

theorem Within.declared (within : state.Within outer own keys) (name : Text)
    (declared : Variable) :
    Within { state with scopes := state.scopes.extend name declared, pending := none } outer
      ((name, declared.value) :: own) keys :=
  ⟨rfl, Scopes.bindings_extend within.inSight name declared, within.taken⟩

theorem begins_first {line : Line} {statement : Statement} (clear : state.pending = none)
    (shown : Statement.ofText? line.text = some statement) (lines : List Line) :
    state.Begins (line :: lines) line.number statement :=
  ⟨[], line, lines, state, rfl, rfl, rfl, rfl, clear, shown⟩

theorem Begins.after {reached : State} {first lines : List Line} {number : Nat}
    {statement : Statement} (begins : reached.Begins lines number statement)
    (ran : state.run first = .ok reached) (same : reached.outer = state.outer) :
    state.Begins (first ++ lines) number statement := by
  obtain ⟨before, line, rest, next, rfl, place, ranBefore, outer, clear, shown⟩ := begins
  refine ⟨first ++ before, line, rest, next, by simp, place, ?_, outer.trans same, clear, shown⟩
  rw [run_append, ran, ok_bind, ranBefore]

section Statements

variable {line name first value : Text} {more : List Text} {pieces : List Piece} {lines : List Line}

theorem run_value {target : Target} (head : Head target line name first) (isValue : first ≠ ['{'])
    (clear : state.pending = none) (number : Nat)
    (fresh : state.checkNew target name number = .ok ())
    (read : ValuePieces false first more pieces) (texts : lines.map Line.text = more) :
    ∃ tokens, tokens.map Token.piece = pieces ∧
      state.run (⟨number, line⟩ :: lines) =
        state.assign ⟨target, name, number, ⟨tokens, false⟩⟩ := by
  obtain ⟨segment, tokens, lexed, shape, assigned⟩ :=
    run_of_values read state target name number number [] lines texts
  refine ⟨tokens, shape, ?_⟩
  have shown := Statement.ofText?_of_head head
  rw [Statement.ofParts, if_neg isValue] at shown
  simp only [List.nil_append] at assigned
  rw [run_cons, step_value clear shown fresh, lexed, ok_bind, assigned]

theorem run_binding (within : state.Within outer own keys) (head : Head .binding line name first)
    (isValue : first ≠ ['{']) (new : name ∉ own.map Prod.fst)
    (read : ValuePieces false first more pieces)
    (means : meaning? (own :: outer) none pieces = some value) (number : Nat)
    (texts : lines.map Line.text = more) :
    state.run (⟨number, line⟩ :: lines) =
      .ok { state with scopes := state.scopes.extend name ⟨value, number⟩, pending := none } := by
  have fresh := (Scopes.local?_eq_none_iff within.inSight name).mpr new
  obtain ⟨tokens, shape, ran⟩ := run_value head isValue within.clear number
    (checkNew_binding fresh) read texts
  rw [← within.inSight, ← shape] at means
  have joined := (join_eq_ok_iff state.scopes (state.qualified name) value tokens).mpr means
  rw [ran, assign_binding joined fresh]

theorem run_scalar (within : state.Within outer own keys) (head : Head .key line name first)
    (isValue : first ≠ ['{']) (new : name ∉ keys) (read : ValuePieces false first more pieces)
    (means : meaning? (own :: outer) none pieces = some value) (number : Nat)
    (texts : lines.map Line.text = more) :
    state.run (⟨number, line⟩ :: lines) =
      .ok { state with entries := state.entries.insert name (.scalar value), pending := none } := by
  obtain ⟨tokens, shape, ran⟩ := run_value head isValue within.clear number
    (checkNew_key (within.fresh new)) read texts
  rw [← within.inSight, ← shape] at means
  have joined := (join_eq_ok_iff state.scopes (state.qualified name) value tokens).mpr means
  rw [ran, assign_key joined]

theorem run_nested {inner : List Line} {scopes : Scopes} {body : Group}
    (within : state.Within outer own keys) (head : Head .key line name ['{']) (new : name ∉ keys)
    (exits : scopes.exit = (state.openGroup name).scopes.exit)
    (inside : (state.openGroup name).run inner =
      .ok ⟨scopes, (state.openGroup name).outer, body, none⟩) (number last : Nat) :
    state.run (⟨number, line⟩ :: (inner ++ [⟨last, ['}']⟩])) =
      .ok { state with entries := state.entries.insert name (.group body), pending := none } := by
  have shown := Statement.ofText?_of_head head
  rw [Statement.ofParts, if_pos rfl] at shown
  rw [run_cons, step_opening within.clear shown (within.fresh new), ok_bind, run_append, inside,
    ok_bind, run_cons, step_close rfl rfl, closeGroup_inside rfl, ok_bind, exits]
  rfl

end Statements

/-- What the lines of a body do: they add its entries and declare its variables, and the frames
around it stay as they were. -/
structure Adds (state : State) (outer : List Bindings) (own : Bindings) (lines : List Line)
    (tree : Group) (scopes : Scopes) : Prop where
  ran : state.run lines = .ok ⟨scopes, state.outer, state.entries.append tree, none⟩
  exits : scopes.exit = state.scopes.exit
  declared : ∃ bindings, scopes.bindings = (bindings ++ own) :: outer ∧
    ∀ name ∈ bindings.map Prod.fst, ∃ number value,
      state.Begins lines number (.value .binding name value)

theorem Adds.insert {name : Text} {entry : Entry} {first lines : List Line} {tree : Group}
    {scopes : Scopes} (fresh : state.entries.contains name = false)
    (ran : state.run first =
      .ok { state with entries := state.entries.insert name entry, pending := none })
    (later : Adds { state with entries := state.entries.insert name entry, pending := none } outer
      own lines tree scopes) :
    state.Adds outer own (first ++ lines) (.cons name entry tree) scopes := by
  refine ⟨?_, later.exits, ?_⟩
  · rw [run_append, ran, ok_bind, later.ran,
      Group.append_insert_new name _ state.entries tree fresh]
  · obtain ⟨bindings, inSight, begun⟩ := later.declared
    refine ⟨bindings, inSight, fun declared member => ?_⟩
    obtain ⟨number, value, begins⟩ := begun declared member
    exact ⟨number, value, begins.after ran rfl⟩

theorem Adds.declare {name value first : Text} {line : Line} {more lines : List Line}
    {tree : Group} {scopes : Scopes} (clear : state.pending = none)
    (head : Head .binding line.text name first) (isValue : first ≠ ['{'])
    (ran : state.run (line :: more) = .ok
      { state with scopes := state.scopes.extend name ⟨value, line.number⟩, pending := none })
    (later : Adds
      { state with scopes := state.scopes.extend name ⟨value, line.number⟩, pending := none }
      outer ((name, value) :: own) lines tree scopes) :
    state.Adds outer own (line :: more ++ lines) tree scopes := by
  refine ⟨?_, by rw [later.exits]; rfl, ?_⟩
  · rw [run_append, ran, ok_bind, later.ran]
  · obtain ⟨bindings, inSight, begun⟩ := later.declared
    refine ⟨bindings ++ [(name, value)], by simp [inSight], fun declared member => ?_⟩
    rw [List.map_append, List.mem_append] at member
    rcases member with member | member
    · obtain ⟨number, value, begins⟩ := begun declared member
      exact ⟨number, value, begins.after ran rfl⟩
    · obtain rfl : declared = name := by simpa using member
      have shown := Statement.ofText?_of_head head
      rw [Statement.ofParts, if_neg isValue] at shown
      exact ⟨line.number, first, begins_first clear shown _⟩

theorem run_of_body {texts : List Text} {tree : Group} (body : Body outer own keys texts tree)
    (within : state.Within outer own keys) (lines : List Line)
    (shape : lines.map Line.text = texts) : ∃ scopes, state.Adds outer own lines tree scopes := by
  induction body generalizing state lines with
  | done =>
    rw [List.map_eq_nil_iff] at shape
    refine ⟨state.scopes, ?_, rfl, [], within.inSight, by simp⟩
    rw [shape, run_nil, Group.append_empty, ← within.clear]
  | @binding outer own keys text name first value more rest pieces tree head isValue new read means
      later ih =>
    obtain ⟨line, others, rfl, rfl, remaining⟩ := List.map_eq_cons_iff.mp shape
    obtain ⟨moreLines, restLines, rfl, moreShape, restShape⟩ := List.map_eq_append_iff.mp remaining
    have ran := run_binding within head isValue new read means line.number moreShape
    obtain ⟨scopes, added⟩ := ih (within.declared name ⟨value, line.number⟩) restLines restShape
    exact ⟨scopes, added.declare within.clear head isValue ran⟩
  | @scalar outer own keys text name first value more rest pieces tree head isValue new read means
      later ih =>
    obtain ⟨line, others, rfl, rfl, remaining⟩ := List.map_eq_cons_iff.mp shape
    obtain ⟨moreLines, restLines, rfl, moreShape, restShape⟩ := List.map_eq_append_iff.mp remaining
    have ran := run_scalar within head isValue new read means line.number moreShape
    obtain ⟨scopes, added⟩ := ih (within.inserted name (.scalar value)) restLines restShape
    exact ⟨scopes, added.insert (within.fresh new) ran⟩
  | @nested outer own keys text name inner rest body tree head new inside later insideIH ih =>
    obtain ⟨line, others, rfl, rfl, remaining⟩ := List.map_eq_cons_iff.mp shape
    obtain ⟨innerLines, closing, rfl, innerShape, closingShape⟩ := List.map_eq_append_iff.mp remaining
    obtain ⟨⟨last, closing⟩, restLines, rfl, rfl, restShape⟩ := List.map_eq_cons_iff.mp closingShape
    obtain ⟨innerScopes, insideAdded⟩ := insideIH (within.opened name) innerLines innerShape
    have ran := run_nested within head new insideAdded.exits insideAdded.ran line.number last
    obtain ⟨scopes, added⟩ := ih (within.inserted name (.group body)) restLines restShape
    have whole := added.insert (within.fresh new) ran
    rw [List.cons_append, List.append_assoc] at whole
    exact ⟨scopes, whole⟩

def BodyFirst (outer : List Bindings) (own : Bindings) (keys : List Text) (lines : List Line) : Prop :=
  ∃ inside rest tree, lines = inside ++ rest ∧ Body outer own keys (inside.map Line.text) tree ∧
    (rest = [] ∨ ∃ number later, rest = ⟨number, ['}']⟩ :: later)

namespace BodyFirst

variable {line : Line} {name first value : Text} {more lines : List Line} {pieces : List Piece}

theorem binding (head : Head .binding line.text name first) (isValue : first ≠ ['{'])
    (new : name ∉ own.map Prod.fst) (read : ValuePieces false first (more.map Line.text) pieces)
    (means : meaning? (own :: outer) none pieces = some value)
    (later : BodyFirst outer ((name, value) :: own) keys lines) :
    BodyFirst outer own keys (line :: (more ++ lines)) := by
  obtain ⟨inside, rest, tree, rfl, body, ends⟩ := later
  refine ⟨line :: (more ++ inside), rest, tree, by simp, ?_, ends⟩
  rw [List.map_cons, List.map_append]
  exact .binding head isValue new read means body

theorem scalar (head : Head .key line.text name first) (isValue : first ≠ ['{'])
    (new : name ∉ keys) (read : ValuePieces false first (more.map Line.text) pieces)
    (means : meaning? (own :: outer) none pieces = some value)
    (later : BodyFirst outer own (name :: keys) lines) :
    BodyFirst outer own keys (line :: (more ++ lines)) := by
  obtain ⟨inside, rest, tree, rfl, body, ends⟩ := later
  refine ⟨line :: (more ++ inside), rest, .scalar name value tree, by simp, ?_, ends⟩
  rw [List.map_cons, List.map_append]
  exact .scalar head isValue new read means body

theorem nested {inner : List Line} {tree : Group} (number : Nat)
    (head : Head .key line.text name ['{']) (new : name ∉ keys)
    (inside : Body (own :: outer) [] [] (inner.map Line.text) tree)
    (later : BodyFirst outer own (name :: keys) lines) :
    BodyFirst outer own keys (line :: (inner ++ ⟨number, ['}']⟩ :: lines)) := by
  obtain ⟨after, rest, others, rfl, body, ends⟩ := later
  refine ⟨line :: (inner ++ ⟨number, ['}']⟩ :: after), rest, .nested name tree others, by simp, ?_,
    ends⟩
  rw [List.map_cons, List.map_append, List.map_cons]
  exact .nested head new inside body

end BodyFirst

/-- A reading that ends at the outermost level has read a body, up to its end or to the brace that
closes it. The induction is on the number of lines, since the rest after a group is not a part of
what the induction on lines gives. -/
theorem body_of_run (size : Nat) (lines : List Line) (bound : lines.length = size)
    (within : state.Within outer own keys) (final : State) (ran : state.run lines = .ok final)
    (clear : final.pending = none) (closed : final.outer = []) :
    BodyFirst outer own keys lines := by
  induction size using Nat.strong_induction_on generalizing lines state outer own keys with
  | _ size ih =>
    cases lines with
    | nil => exact ⟨[], [], .empty, rfl, .done, Or.inl rfl⟩
    | cons line lines =>
      rw [run_cons, bind_eq_ok] at ran
      obtain ⟨next, stepped, ran⟩ := ran
      simp only [step, within.clear] at stepped
      rw [List.length_cons] at bound
      rcases begin_cases stepped with ⟨shown, -⟩ | ⟨name, shown, fresh, rfl⟩ |
        ⟨target, name, first, segment, shown, checked, lexed, settled⟩
      · have brace := Statement.eq_brace_of_close shown
        exact ⟨[], line :: lines, .empty, rfl, .done, Or.inr ⟨line.number, lines, by rw [← brace]⟩⟩
      · obtain ⟨inner, afterInner, body, rfl, inside, ends⟩ :=
          ih lines.length (by omega) lines rfl (within.opened name) ran
        obtain ⟨scopes, added⟩ := run_of_body inside (within.opened name) inner rfl
        rw [run_append, added.ran, ok_bind] at ran
        rcases ends with rfl | ⟨number, later, rfl⟩
        · cases ran
          contradiction
        · rw [run_cons, step_close rfl rfl, closeGroup_inside rfl, ok_bind, added.exits] at ran
          rw [List.length_append, List.length_cons] at bound
          have outside := ih later.length (by omega) later rfl
            (within.inserted name (.group body)) ran
          exact outside.nested number (Statement.head_of_opening shown) (within.new fresh) inside
      · obtain ⟨head, isValue⟩ := Statement.head_of_value shown
        have reading : (state.settle ⟨target, name, line.number, segment⟩ >>=
            fun next => next.run lines) = .ok final := by
          rw [settled]
          exact ran
        obtain ⟨more, rest, tokens, rfl, values, assigned⟩ :=
          values_of_run lexed state final target name line.number [] lines reading clear
        rw [List.length_append] at bound
        obtain ⟨after, given, ran⟩ := bind_eq_ok.mp assigned
        obtain ⟨value, joined, cases⟩ := assign_cases given
        have means := (join_eq_ok_iff _ _ value _).mp joined
        rw [within.inSight] at means
        rcases cases with ⟨rfl, rfl⟩ | ⟨rfl, unbound, rfl⟩
        · have outside := ih rest.length (by omega) rest rfl
            (within.inserted name (.scalar value)) ran
          exact outside.scalar head isValue (within.new (fresh_of_checkNew checked)) values means
        · have outside := ih rest.length (by omega) rest rfl
            (within.declared name ⟨value, line.number⟩) ran
          have new := (Scopes.local?_eq_none_iff within.inSight name).mp unbound
          exact outside.binding head isValue new values means

theorem body_of_whole_run {lines : List Line} {final : State} (within : state.Within outer own keys)
    (outermost : state.outer = []) (ran : state.run lines = .ok final) (clear : final.pending = none)
    (closed : final.outer = []) :
    ∃ tree, Body outer own keys (lines.map Line.text) tree ∧
      final.entries = state.entries.append tree := by
  obtain ⟨inside, rest, tree, rfl, body, ends⟩ :=
    body_of_run _ lines rfl within final ran clear closed
  obtain ⟨scopes, added⟩ := run_of_body body within inside rfl
  rw [run_append, added.ran, ok_bind] at ran
  rcases ends with rfl | ⟨number, later, rfl⟩
  · cases ran
    exact ⟨tree, by rwa [List.append_nil], rfl⟩
  -- A closing brace at the outermost level is refused.
  · rw [run_cons, step_close rfl rfl, closeGroup, outermost] at ran
    contradiction

end State

theorem denotes_of_parse {text : Text} {tree : Group} (read : parse text = .ok tree) :
    Denotes text tree := by
  obtain ⟨final, ran, clear, outermost, rfl⟩ := parse_eq_ok_iff.mp read
  obtain ⟨tree, body, entries⟩ :=
    State.body_of_whole_run State.within_start rfl ran clear outermost
  rw [texts_source] at body
  rw [entries]
  exact body

end ScopedConfig
