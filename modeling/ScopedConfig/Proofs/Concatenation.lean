import ScopedConfig.Proofs.Comparison
import ScopedConfig.Proofs.Image

/-!
Two texts one after the other. The second is read as if it stood alone, with its lines further down:
variables left by the first change nothing that it looks up, unless it declares one of them again
outside every group, and its first key that is taken is refused where it is defined.
-/

namespace ScopedConfig

/-- Every variable in sight under the first frames has the same value under the others. -/
def Covers (frames wider : List Bindings) : Prop :=
  ∀ name value, frames.findSome? (·.lookup name) = some value →
    wider.findSome? (·.lookup name) = some value

theorem Covers.enter {frames wider : List Bindings} (covers : Covers frames wider)
    (own : Bindings) : Covers (own :: frames) (own :: wider) := by
  intro name value found
  rw [List.findSome?_cons] at found ⊢
  cases inner : own.lookup name with
  | none =>
    rw [inner] at found
    exact covers name value found
  | some bound =>
    rw [inner] at found
    exact found

theorem covers_append (own more : Bindings) : Covers [own] [own ++ more] := by
  intro name value found
  cases bound : own.lookup name with
  | none => simp [bound] at found
  | some other => simpa [List.lookup_append, bound] using found

theorem meaning?_of_covers {frames wider : List Bindings} (covers : Covers frames wider)
    {previous : Option TokenKind} {pieces : List Piece} {value : Text}
    (means : meaning? frames previous pieces = some value) :
    meaning? wider previous pieces = some value := by
  induction pieces generalizing previous value with
  | nil => exact means
  | cons piece pieces ih =>
    simp only [meaning?, Option.bind_eq_bind, Option.bind_eq_some_iff] at means ⊢
    obtain ⟨text, here, after, later, whole⟩ := means
    refine ⟨text, ?_, after, ih later, whole⟩
    obtain ⟨kind, spaced⟩ := piece
    cases kind with
    | bare word => exact here
    | quoted content => exact here
    | reference name => exact covers name text here

theorem Body.of_covers {outer wider : List Bindings} {own : Bindings} {keys texts : List Text}
    {tree : Group} (body : Body outer own keys texts tree) (covers : Covers outer wider) :
    Body wider own keys texts tree := by
  induction body generalizing wider with
  | done => exact .done
  | @binding outer own keys line name first value more lines pieces tree head isValue new read means
      later ih =>
    exact .binding head isValue new read (meaning?_of_covers (covers.enter own) means) (ih covers)
  | @scalar outer own keys line name first value more lines pieces tree head isValue new read means
      later ih =>
    exact .scalar head isValue new read (meaning?_of_covers (covers.enter own) means) (ih covers)
  | @nested outer own keys line name within lines body tree head new inside later insideIH ih =>
    exact .nested head new (insideIH (covers.enter own)) (ih covers)

def Line.later (offset : Nat) (line : Line) : Line := ⟨line.number + offset, line.text⟩

theorem contentLines_later (lines : List Text) (first offset : Nat) :
    contentLines lines (first + offset) = (contentLines lines first).map (Line.later offset) := by
  induction lines generalizing first with
  | nil => rfl
  | cons line lines ih =>
    have next : first + offset + 1 = first + 1 + offset := by omega
    rw [contentLines_cons, contentLines_cons line lines first, List.map_append, next,
      ih (first + 1)]
    by_cases content : LineKind.ofText line = .content
    · simp [contentLines, content, Line.later]
    · simp [contentLines, content]

@[simp] theorem texts_later (lines : List Line) (offset : Nat) :
    (lines.map (Line.later offset)).map Line.text = lines.map Line.text := by
  rw [List.map_map]
  rfl

namespace State

variable {alone beside : State} {taken : List Text} {offset : Nat} {lines : List Line}
  {tree : Group}

theorem step_taken {state : State} {line : Line} {statement : Statement} {name : Text}
    (clear : state.pending = none) (shown : Statement.ofText? line.text = some statement)
    (defined : statement.defined? = some (.key, name))
    (present : state.entries.contains name = true) :
    state.step line = .error (.duplicateKey (state.qualified name) line.number) := by
  have refused : state.checkNew .key name line.number =
      .error (.duplicateKey (state.qualified name) line.number) := by
    rw [checkNew, if_pos present]
  cases statement with
  | close => contradiction
  | opening target other =>
    cases defined
    simp only [step, clear, begin, shown, refused, error_bind]
  | value target other rest =>
    cases defined
    simp only [step, clear, begin, shown, refused, error_bind]

/-- What comes of the lines of a body that are read after others have taken some keys: its entries
are added, or the first of its keys that is taken is refused, on the line that defines it when the
lines are read alone. -/
inductive Joined (taken : List Text) (offset : Nat) (alone beside : State) (lines : List Line)
    (tree : Group) : Prop where
  | added (free : ∀ key ∈ tree.keys, key ∉ taken)
    (ran : ∃ scopes, beside.run (lines.map (Line.later offset)) =
      .ok ⟨scopes, beside.outer, beside.entries.append tree, none⟩) :
    Joined taken offset alone beside lines tree
  | refused {key : Text} {number : Nat} {statement : Statement}
    (first : tree.keys.find? (· ∈ taken) = some key)
    (begins : alone.Begins lines number statement)
    (defined : statement.defined? = some (.key, key))
    (ran : beside.run (lines.map (Line.later offset)) =
      .error (.duplicateKey (beside.qualified key) (number + offset))) :
    Joined taken offset alone beside lines tree

theorem Joined.insert {name : Text} {entry : Entry} {reached : State} {first : List Line}
    (free : name ∉ taken) (fresh : beside.entries.contains name = false)
    (ran : alone.run first = .ok reached) (same : reached.outer = alone.outer)
    (ranToo : beside.run (first.map (Line.later offset)) =
      .ok { beside with entries := beside.entries.insert name entry, pending := none })
    (later : Joined taken offset reached
      { beside with entries := beside.entries.insert name entry, pending := none } lines tree) :
    Joined taken offset alone beside (first ++ lines) (.cons name entry tree) := by
  cases later with
  | added others ranOn =>
    obtain ⟨scopes, ranOn⟩ := ranOn
    refine .added ?_ ⟨scopes, ?_⟩
    · rw [Group.keys_cons, List.forall_mem_cons]
      exact ⟨free, others⟩
    · rw [List.map_append, run_append, ranToo, ok_bind, ranOn,
        Group.append_insert_new name _ beside.entries tree fresh]
  | refused clash begins defined ranOn =>
    refine .refused ?_ (begins.after ran same) defined ?_
    · simpa [free] using clash
    · rw [List.map_append, run_append, ranToo, ok_bind, ranOn]
      rfl

theorem joined_of_entry {outer wider : List Bindings} {own more : Bindings} {keys : List Text}
    {line : Line} {statement : Statement} {name : Text} {entry : Entry} {reached : State}
    {first : List Line} (within : alone.Within outer own keys)
    (withinToo : beside.Within wider more (keys ++ taken)) (new : name ∉ keys)
    (shown : Statement.ofText? line.text = some statement)
    (defined : statement.defined? = some (.key, name))
    (ran : alone.run (line :: first) = .ok reached) (same : reached.outer = alone.outer)
    (ranToo : name ∉ keys ++ taken → beside.run ((line :: first).map (Line.later offset)) =
      .ok { beside with entries := beside.entries.insert name entry, pending := none })
    (later : Joined taken offset reached
      { beside with entries := beside.entries.insert name entry, pending := none } lines tree) :
    Joined taken offset alone beside (line :: first ++ lines) (.cons name entry tree) := by
  by_cases clash : name ∈ taken
  · have present := (withinToo.taken name).mp (List.mem_append_right keys clash)
    have refused := @step_taken beside (line.later offset) statement name withinToo.clear shown
      defined present
    refine .refused ?_ (begins_first within.clear shown _) defined ?_
    · simp [clash]
    · rw [List.cons_append, List.map_cons, run_cons, refused, error_bind]
      rfl
  · have free : name ∉ keys ++ taken := by
      rw [List.mem_append, not_or]
      exact ⟨new, clash⟩
    exact later.insert clash (withinToo.fresh free) ran same (ranToo free)

theorem Joined.declare {scopes : Scopes} {reached : State} {first : List Line}
    (ran : alone.run first = .ok reached) (same : reached.outer = alone.outer)
    (ranToo : beside.run (first.map (Line.later offset)) =
      .ok { beside with scopes, pending := none })
    (later : Joined taken offset reached { beside with scopes, pending := none } lines tree) :
    Joined taken offset alone beside (first ++ lines) tree := by
  cases later with
  | added free ranOn =>
    obtain ⟨scopes, ranOn⟩ := ranOn
    refine .added free ⟨scopes, ?_⟩
    rw [List.map_append, run_append, ranToo, ok_bind, ranOn]
  | refused clash begins defined ranOn =>
    refine .refused clash (begins.after ran same) defined ?_
    rw [List.map_append, run_append, ranToo, ok_bind, ranOn]
    rfl

/-- A body outside every group, read alone and after other lines, which have left some variables and
taken some keys. Inner groups may declare the variables again; the body itself does not. -/
theorem joined_of_body {outer : List Bindings} {own more : Bindings} {keys texts : List Text}
    (body : Body outer own keys texts tree) (outermost : outer = [])
    (within : alone.Within outer own keys)
    (withinToo : beside.Within outer (own ++ more) (keys ++ taken))
    (offset : Nat) (lines : List Line) (shape : lines.map Line.text = texts)
    (apart : ∀ number name value, alone.Begins lines number (.value .binding name value) →
      name ∉ more.map Prod.fst) :
    Joined taken offset alone beside lines tree := by
  induction body generalizing alone beside lines with
  | done =>
    rw [List.map_eq_nil_iff] at shape
    refine .added (by simp) ⟨beside.scopes, ?_⟩
    rw [shape, List.map_nil, run_nil, Group.append_empty, ← withinToo.clear]
  | @binding outer own keys text name first value others rest pieces tree head isValue new read means
      later ih =>
    obtain ⟨line, remaining, rfl, rfl, rests⟩ := List.map_eq_cons_iff.mp shape
    obtain ⟨others, rest, rfl, othersShape, restShape⟩ := List.map_eq_append_iff.mp rests
    subst outermost
    have shown := Statement.ofText?_of_head head
    rw [Statement.ofParts, if_neg isValue] at shown
    have unbound : name ∉ (own ++ more).map Prod.fst := by
      rw [List.map_append, List.mem_append, not_or]
      exact ⟨new, apart line.number name first (begins_first within.clear shown _)⟩
    have ran := run_binding within head isValue new read means line.number othersShape
    have ranToo := run_binding withinToo head isValue unbound read
      (meaning?_of_covers (covers_append own more) means) (line.number + offset)
      ((texts_later others offset).trans othersShape)
    have joined := ih rfl (within.declared name ⟨value, line.number⟩)
      (withinToo.declared name ⟨value, line.number + offset⟩) rest restShape
      fun number other value begins => apart number other value (begins.after ran rfl)
    exact joined.declare ran rfl ranToo
  | @scalar outer own keys text name first value others rest pieces tree head isValue new read means
      later ih =>
    obtain ⟨line, remaining, rfl, rfl, rests⟩ := List.map_eq_cons_iff.mp shape
    obtain ⟨others, rest, rfl, othersShape, restShape⟩ := List.map_eq_append_iff.mp rests
    subst outermost
    have shown := Statement.ofText?_of_head head
    rw [Statement.ofParts, if_neg isValue] at shown
    have ran := run_scalar within head isValue new read means line.number othersShape
    have joined := ih rfl (within.inserted name (.scalar value))
      (withinToo.inserted name (.scalar value)) rest restShape
      fun number other value begins => apart number other value (begins.after ran rfl)
    refine joined_of_entry within withinToo new shown rfl ran rfl (fun free => ?_) joined
    exact run_scalar withinToo head isValue free read
      (meaning?_of_covers (covers_append own more) means) (line.number + offset)
      ((texts_later others offset).trans othersShape)
  | @nested outer own keys text name inner rest body tree head new inside later insideIH ih =>
    obtain ⟨line, remaining, rfl, rfl, rests⟩ := List.map_eq_cons_iff.mp shape
    obtain ⟨inner, closing, rfl, innerShape, closingShape⟩ := List.map_eq_append_iff.mp rests
    obtain ⟨⟨last, brace⟩, rest, rfl, rfl, restShape⟩ := List.map_eq_cons_iff.mp closingShape
    subst outermost
    have shown := Statement.ofText?_of_head head
    rw [Statement.ofParts, if_pos rfl] at shown
    obtain ⟨_, insideAdded⟩ := run_of_body inside (within.opened name) inner innerShape
    have ran := run_nested within head new insideAdded.exits insideAdded.ran line.number last
    have parts : line :: (inner ++ ⟨last, ['}']⟩ :: rest) =
        line :: (inner ++ [⟨last, ['}']⟩]) ++ rest := by simp
    rw [parts] at apart ⊢
    have joined := ih rfl (within.inserted name (.group body))
      (withinToo.inserted name (.group body)) rest restShape
      fun number other value begins => apart number other value (begins.after ran rfl)
    refine joined_of_entry within withinToo new shown rfl ran rfl (fun free => ?_) joined
    -- The lines of the group are a body under the variables of the first text as well.
    obtain ⟨_, insideToo⟩ := run_of_body (inside.of_covers (covers_append own more))
      (withinToo.opened name) (inner.map (Line.later offset))
      ((texts_later inner offset).trans innerShape)
    rw [List.map_cons, List.map_append]
    exact run_nested withinToo head free insideToo.exits insideToo.ran (line.number + offset)
      (last + offset)

end State

theorem joined_of_parse {first second : Text} {tree other : Group} (read : parse first = .ok tree)
    (readToo : parse second = .ok other)
    (apart : ∀ name line line', DefinesOn first .binding name line →
      ¬ DefinesOn second .binding name line') :
    ((∀ key ∈ other.keys, key ∉ tree.keys) ∧
      parse (first ++ '\n' :: second) = .ok (tree.append other)) ∨
    ∃ key line, other.keys.find? (· ∈ tree.keys) = some key ∧ DefinesOn second .key key line ∧
      parse (first ++ '\n' :: second) =
        .error (.duplicateKey key ((physicalLines first).length + line)) := by
  obtain ⟨scopes, added⟩ :=
    State.run_of_body (denotes_of_parse read) State.within_start _ (texts_source first)
  obtain ⟨bindings, inSight, begun⟩ := added.declared
  rw [List.append_nil] at inSight
  have within : State.Within ⟨scopes, [], tree, none⟩ [] ([] ++ bindings) ([] ++ tree.keys) :=
    ⟨rfl, inSight, fun key => (tree.contains_iff key).symm⟩
  have joined := State.joined_of_body (denotes_of_parse readToo) rfl State.within_start within
    (physicalLines first).length (Source.ofText second).lines (texts_source second) (by
      intro number name value begins member
      obtain ⟨line, firstValue, declared⟩ := begun name member
      exact apart name line number ⟨_, declared, rfl⟩ ⟨_, begins, rfl⟩)
  have lines : contentLines (physicalLines second) ((physicalLines first).length + 1) =
      (Source.ofText second).lines.map (Line.later (physicalLines first).length) := by
    rw [Nat.add_comm, contentLines_later]
    rfl
  rw [parse_append, added.ran, ok_bind, lines]
  cases joined with
  | added free ran =>
    obtain ⟨last, ran⟩ := ran
    exact Or.inl ⟨free, bind_eq_ok.mpr ⟨_, ran, State.finish_eq_ok_iff.mpr ⟨rfl, rfl, rfl⟩⟩⟩
  | @refused key number statement clash begins defined ran =>
    refine Or.inr ⟨key, number, clash, ⟨statement, begins, defined⟩, ?_⟩
    rw [Nat.add_comm number, State.qualified_outermost rfl] at ran
    exact bind_eq_error.mpr (Or.inl ran)

/-- Texts that declare no common variable outside their groups, one after the other. Without a
common key they are read as the entries of both, in either order the same map; otherwise the first
key of the second text that the first has as well is refused on its line. -/
theorem parse_concatenated (first second : Text) (tree other : Group)
    (read : parse first = .ok tree) (readToo : parse second = .ok other)
    (apart : ∀ name line line', DefinesOn first .binding name line →
      ¬ DefinesOn second .binding name line') :
    ((∀ key ∈ tree.keys, key ∉ other.keys) →
      parse (first ++ '\n' :: second) = .ok (tree.append other) ∧
      ∃ swapped, parse (second ++ '\n' :: first) = .ok swapped ∧
        swapped.sameAs (tree.append other) = true) ∧
    ((∃ key ∈ tree.keys, key ∈ other.keys) →
      ∃ key line, other.keys.find? (· ∈ tree.keys) = some key ∧ DefinesOn second .key key line ∧
        parse (first ++ '\n' :: second) =
          .error (.duplicateKey key ((physicalLines first).length + line))) := by
  have forwards := joined_of_parse read readToo apart
  constructor
  · intro disjoint
    have absent {left right : Group} (disjoint : ∀ key ∈ left.keys, key ∉ right.keys) (key : Text)
        (found : right.keys.find? (· ∈ left.keys) = some key) : False :=
      disjoint key (by simpa using List.find?_some found) (List.mem_of_find?_eq_some found)
    have backwards := joined_of_parse readToo read fun name line line' declared declaredToo =>
      apart name line' line declaredToo declared
    have disjointToo : ∀ key ∈ other.keys, key ∉ tree.keys :=
      fun key member present => disjoint key present member
    constructor
    · rcases forwards with ⟨-, joined⟩ | ⟨key, line, found, -⟩
      · exact joined
      · exact (absent disjoint key found).elim
    · rcases backwards with ⟨-, joined⟩ | ⟨key, line, found, -⟩
      · exact ⟨_, joined, Group.sameAs_append_comm tree other (wellNamed_of_parse read)
          (wellNamed_of_parse readToo) disjoint⟩
      · exact (absent disjointToo key found).elim
  · rintro ⟨key, member, common⟩
    rcases forwards with ⟨free, -⟩ | refused
    · exact absurd member (free key common)
    · exact refused

theorem State.mem_definitions {state reached : State} {before after : List Line} {line : Line}
    {statement : Statement} {defined : Target × Text} (ran : state.run before = .ok reached)
    (outermost : reached.outer = []) (shown : Statement.ofText? line.text = some statement)
    (defines : statement.defined? = some defined) :
    defined ∈ state.definitions (before ++ line :: after) := by
  induction before generalizing state with
  | nil =>
    cases ran
    rw [List.nil_append, definitions]
    split <;> simp [outermost, shown, defines]
  | cons other before ih =>
    rw [run_cons] at ran
    obtain ⟨next, stepped, ran⟩ := bind_eq_ok.mp ran
    simp only [List.cons_append, definitions, stepped]
    exact List.mem_append_right _ (ih ran)

theorem DefinesOn.mem_definitions {text name : Text} {target : Target} {number : Nat}
    (defines : DefinesOn text target name number) :
    (target, name) ∈ State.start.definitions (Source.ofText text).lines := by
  obtain ⟨statement, ⟨before, line, after, reached, lines, -, ran, outer, -, shown⟩, defined⟩ :=
    defines
  rw [lines]
  exact State.mem_definitions ran outer shown defined

/-- A variable of the first text that an inner group of the second hides, and a key that a third
text gives again on its third line. -/
theorem parse_concatenated_hidden :
    let first : Text := "$x = 1\na = $x\ng \x7b\n\x7d".toList
    let second : Text := "h \x7b\n$x = 2\nb = $x\n\x7d\n$y = 3\nc = $y".toList
    let third : Text := "# again\n$y = 3\na = $y".toList
    let tree : Group := .scalar ['a'] ['1'] (.nested ['g'] .empty .empty)
    let other : Group := .nested ['h'] (.scalar ['b'] ['2'] .empty) (.scalar ['c'] ['3'] .empty)
    (parse (first ++ '\n' :: second) = .ok (tree.append other) ∧
      ∃ swapped, parse (second ++ '\n' :: first) = .ok swapped ∧
        swapped.sameAs (tree.append other) = true) ∧
    ∃ key line, [['a']].find? (· ∈ tree.keys) = some key ∧ DefinesOn third .key key line ∧
      parse (first ++ '\n' :: third) =
        .error (.duplicateKey key ((physicalLines first).length + line)) := by
  intro first second third tree other
  have read : parse first = .ok tree := by decide +kernel
  have readSecond : parse second = .ok other := by decide +kernel
  have readThird : parse third = .ok (.scalar ['a'] ['3'] .empty) := by decide +kernel
  have apart (last : Text)
      (disjoint : ∀ defined ∈ State.start.definitions (Source.ofText first).lines,
        defined.1 = .binding → defined ∉ State.start.definitions (Source.ofText last).lines) :
      ∀ name line line', DefinesOn first .binding name line →
        ¬ DefinesOn last .binding name line' :=
    fun name line line' defines definesToo =>
      disjoint (.binding, name) defines.mem_definitions rfl definesToo.mem_definitions
  have apartSecond := apart second (by decide +kernel)
  have apartThird := apart third (by decide +kernel)
  constructor
  · have disjoint : ∀ key ∈ tree.keys, key ∉ other.keys := by decide +kernel
    exact (parse_concatenated first second tree other read readSecond apartSecond).1 disjoint
  · exact (parse_concatenated first third tree _ read readThird apartThird).2 (by decide +kernel)

end ScopedConfig
