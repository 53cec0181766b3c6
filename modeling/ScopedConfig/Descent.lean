import ScopedConfig.Document

/-!
Reading by recursive descent. The entries of a group are read one after the other, and a group among
them is read before the entry after it. One parser is carried along and changed on the way: its place
in the text, the variables in sight, and the path of the group. A fault ends everything at once and
leaves the parser as it was then.
-/

namespace ScopedConfig

structure Parser where
  source : Source
  scopes : Scopes
  path : List Text
  deriving DecidableEq, Repr

namespace Parser

def ofText (text : Text) : Parser := ⟨Source.ofText text, Scopes.empty, []⟩

def left (parser : Parser) : Nat := parser.source.lines.length

def qualified (parser : Parser) (name : Text) : Text :=
  ['/'].intercalate (parser.path ++ [name])

def enterScope (parser : Parser) : Parser := { parser with scopes := parser.scopes.enter }

def exitScope (parser : Parser) : Parser := { parser with scopes := parser.scopes.exit }

def push (parser : Parser) (name : Text) : Parser := { parser with path := parser.path ++ [name] }

def pop (parser : Parser) : Parser := { parser with path := parser.path.dropLast }

def fetch? (parser : Parser) : Option (Line × Parser) :=
  parser.source.next?.map fun (line, source) => (line, { parser with source })

def ensureNew (parser : Parser) (items : Group) (name : Text) (line : Nat) :
    Except ParseError Unit :=
  if items.contains name then .error (.duplicateKey (parser.qualified name) line) else .ok ()

def readScalar (parser : Parser) (items : Group) (name rest : Text) (line : Nat) :
    Except ParseError Group × Parser :=
  match parser.ensureNew items name line with
  | .error error => (.error error, parser)
  | .ok _ =>
    let read := readValue rest line parser.source
    let value := read.1 >>= join parser.scopes (parser.qualified name)
    (value.map fun value => items.insert name (.scalar value), { parser with source := read.2 })

def readVariable (parser : Parser) (name rest : Text) (line : Nat) :
    Except ParseError Unit × Parser :=
  let path := parser.qualified name
  match parser.scopes.local? name with
  | some first => (.error (.duplicateVariable path line first.line), parser)
  | none =>
    let read := readValue rest line parser.source
    let behind := { parser with source := read.2 }
    match read.1 >>= join parser.scopes path with
    | .error error => (.error error, behind)
    | .ok value =>
      match parser.scopes.declare name value line with
      | .error first => (.error (.duplicateVariable path line first), behind)
      | .ok scopes => (.ok (), { behind with scopes })

/-- What comes after a line has been looked at: the entries of the group end or go on, or a group
among them is to be read first. -/
inductive Move where
  | ends (result : Except ParseError Group)
  | goesOn (items : Group)
  | enters (name : Text)

def Move.ofResult : Except ParseError Group → Move
  | .ok items => .goesOn items
  | .error error => .ends (.error error)

def turn (parser : Parser) (depth : Nat) (items : Group) (line : Line) : Move × Parser :=
  match Statement.ofText? line.text with
  | none => (.ends (.error (.nameExpected line.number)), parser)
  | some .close =>
    (.ends (if depth = 0 then .error (.strayClose line.number) else .ok items), parser)
  | some (.opening .binding name) =>
    (.ends (.error (.variableHoldsGroup (parser.qualified name) line.number)), parser)
  | some (.opening .key name) =>
    match parser.ensureNew items name line.number with
    | .error error => (.ends (.error error), parser)
    | .ok _ => (.enters name, parser.push name)
  | some (.value .binding name rest) =>
    let (result, after) := parser.readVariable name rest line.number
    (.ofResult (result.map fun _ => items), after)
  | some (.value .key name rest) =>
    let (result, after) := parser.readScalar items name rest line.number
    (.ofResult result, after)

theorem fetch?_eq_some {parser here : Parser} {line : Line}
    (fetched : parser.fetch? = some (line, here)) :
    parser.source.lines = line :: here.source.lines ∧ here.source.total = parser.source.total ∧
      here.scopes = parser.scopes ∧ here.path = parser.path := by
  obtain ⟨⟨total, lines⟩, scopes, path⟩ := parser
  cases lines with
  | nil => contradiction
  | cons first lines =>
    cases fetched
    exact ⟨rfl, rfl, rfl, rfl⟩

theorem lines_of_exhausted {parser : Parser} (fetched : parser.fetch? = none) :
    parser.source.lines = [] := by
  obtain ⟨⟨total, lines⟩, scopes, path⟩ := parser
  cases lines with
  | nil => rfl
  | cons first lines => contradiction

theorem left_of_fetch? {parser here : Parser} {line : Line}
    (fetched : parser.fetch? = some (line, here)) : parser.left = here.left + 1 := by
  rw [left, (fetch?_eq_some fetched).1]
  rfl

end Parser

theorem Segment.complete_suffix (total : Nat) (segment : Segment) (lines : List Line) :
    (segment.complete total lines).2 <:+ lines := by
  induction lines generalizing segment with
  | nil => exact List.suffix_refl _
  | cons line lines ih =>
    rw [complete]
    split
    · split
      · exact List.suffix_cons line lines
      · exact (ih _).trans (List.suffix_cons line lines)
    · exact List.suffix_refl _

theorem readValue_source (rest : Text) (line : Nat) (source : Source) :
    (readValue rest line source).2.total = source.total ∧
      (readValue rest line source).2.lines <:+ source.lines := by
  rw [readValue]
  split
  · exact ⟨rfl, List.suffix_refl _⟩
  · next segment read => exact ⟨rfl, segment.complete_suffix source.total source.lines⟩

namespace Parser

/-- What reading the entries of a group comes to, and the parser afterwards. No more lines are left
than before. -/
structure Reading (bound : Nat) where
  result : Except ParseError Group
  after : Parser
  shorter : after.left ≤ bound

/-- What a turn does to the parser, up to the lines that it takes: only a variable can be added to
the innermost frame, and a name to the path if a group is to be read. -/
structure Kept (before after : Parser) : Prop where
  total : after.source.total = before.source.total
  lines : after.source.lines <:+ before.source.lines
  scopes : after.scopes.exit = before.scopes.exit

theorem readScalar_kept (parser : Parser) (items : Group) (name rest : Text) (line : Nat) :
    Kept parser (parser.readScalar items name rest line).2 ∧
      (parser.readScalar items name rest line).2.path = parser.path := by
  obtain ⟨total, lines⟩ := readValue_source rest line parser.source
  unfold readScalar
  split
  · exact ⟨⟨rfl, List.suffix_refl _, rfl⟩, rfl⟩
  · exact ⟨⟨total, lines, rfl⟩, rfl⟩

theorem readVariable_kept (parser : Parser) (name rest : Text) (line : Nat) :
    Kept parser (parser.readVariable name rest line).2 ∧
      (parser.readVariable name rest line).2.path = parser.path := by
  obtain ⟨total, lines⟩ := readValue_source rest line parser.source
  rw [readVariable]
  split
  · exact ⟨⟨rfl, List.suffix_refl _, rfl⟩, rfl⟩
  · dsimp only
    split
    · exact ⟨⟨total, lines, rfl⟩, rfl⟩
    · split
      · exact ⟨⟨total, lines, rfl⟩, rfl⟩
      · next scopes declared =>
        exact ⟨⟨total, lines, Scopes.exit_declare _ _ _ _ _ declared⟩, rfl⟩

theorem turn_kept (parser : Parser) (depth : Nat) (items : Group) (line : Line) :
    Kept parser (parser.turn depth items line).2 := by
  unfold turn
  split
  · exact ⟨rfl, List.suffix_refl _, rfl⟩
  · exact ⟨rfl, List.suffix_refl _, rfl⟩
  · exact ⟨rfl, List.suffix_refl _, rfl⟩
  · split <;> exact ⟨rfl, List.suffix_refl _, rfl⟩
  · exact (parser.readVariable_kept _ _ _).1
  · exact (parser.readScalar_kept _ _ _ _).1

theorem left_of_turn {parser here after : Parser} {depth : Nat} {items : Group} {line : Line}
    {move : Move} (fetched : parser.fetch? = some (line, here))
    (taken : here.turn depth items line = (move, after)) : after.left < parser.left := by
  have kept := here.turn_kept depth items line
  rw [taken] at kept
  rw [left_of_fetch? fetched]
  exact Nat.lt_succ_of_le kept.lines.length_le

mutual

def readGroup (parser : Parser) : Reading parser.left :=
  let inside := parser.enterScope.readEntries parser.path.length .empty
  ⟨inside.result, inside.after.exitScope, inside.shorter⟩
termination_by (parser.left, 1)

def readEntries (parser : Parser) (depth : Nat) (items : Group) : Reading parser.left :=
  match fetched : parser.fetch? with
  | none =>
    ⟨if depth = 0 then .ok items else .error (.unfinished parser.source.total), parser,
      Nat.le_refl _⟩
  | some (line, here) =>
    match taken : here.turn depth items line with
    | (.ends result, after) =>
      have fewer := left_of_turn fetched taken
      ⟨result, after, Nat.le_of_lt fewer⟩
    | (.goesOn items, after) =>
      have fewer := left_of_turn fetched taken
      let later := after.readEntries depth items
      ⟨later.result, later.after, Nat.le_trans later.shorter (Nat.le_of_lt fewer)⟩
    | (.enters name, inner) =>
      have fewer := left_of_turn fetched taken
      let inside := inner.readGroup
      have left : inside.after.left ≤ parser.left :=
        Nat.le_trans inside.shorter (Nat.le_of_lt fewer)
      match inside.result with
      | .error error => ⟨.error error, inside.after, left⟩
      | .ok body =>
        let later := inside.after.pop.readEntries depth (items.insert name (.group body))
        ⟨later.result, later.after, Nat.le_trans later.shorter left⟩
termination_by (parser.left, 0)
decreasing_by
  · exact .left _ _ fewer
  · exact .left _ _ fewer
  · exact .left _ _ (Nat.lt_of_le_of_lt (Reading.shorter _) fewer)

end

/-- The reading of a text comes to the point where the next line of a group is to be fetched: which
groups are being read there, outermost first, at which depth and with which entries, and the
parser. -/
inductive Fetches (text : Text) : List Text → Nat → Group → Parser → Prop where
  | start : Fetches text [] 0 .empty (ofText text).enterScope
  | goesOn {names : List Text} {depth : Nat} {items more : Group} {parser here after : Parser}
    {line : Line} (fetches : Fetches text names depth items parser)
    (fetched : parser.fetch? = some (line, here))
    (taken : here.turn depth items line = (.goesOn more, after)) :
    Fetches text names depth more after
  | enters {names : List Text} {depth : Nat} {items : Group} {parser here inner : Parser}
    {line : Line} {name : Text} (fetches : Fetches text names depth items parser)
    (fetched : parser.fetch? = some (line, here))
    (taken : here.turn depth items line = (.enters name, inner)) :
    Fetches text (names ++ [name]) inner.path.length .empty inner.enterScope
  | returns {names : List Text} {depth : Nat} {items body : Group} {parser here inner : Parser}
    {line : Line} {name : Text} (fetches : Fetches text names depth items parser)
    (fetched : parser.fetch? = some (line, here))
    (taken : here.turn depth items line = (.enters name, inner))
    (complete : inner.readGroup.result = .ok body) :
    Fetches text names depth (items.insert name (.group body)) inner.readGroup.after.pop

def Consumed (text : Text) (parser : Parser) (number : Nat) : Prop :=
  ∃ read, (Source.ofText text).lines = read ++ parser.source.lines ∧
    number ∈ read.map Line.number

/-- The order in which a parser is kept inside groups with the given names: one frame for each of
them and one for the text, with variables that were declared on lines behind the parser, each frame
after the frames around it. -/
structure Orderly (text : Text) (names : List Text) (parser : Parser) : Prop where
  frames : parser.scopes.frames.length = parser.path.length + 1
  path : parser.path = names
  distinct : ∀ frame ∈ parser.scopes.frames, (frame.map Prod.fst).Nodup
  consumed : ∀ frame ∈ parser.scopes.frames, ∀ entry ∈ frame, parser.Consumed text entry.2.line
  nested : parser.scopes.frames.Pairwise fun inner outer =>
    ∀ entry ∈ inner, ∀ other ∈ outer, other.2.line < entry.2.line

end Parser

end ScopedConfig
