import ScopedConfig.Group
import ScopedConfig.Statement
import ScopedConfig.Token.Join
import ScopedConfig.Token.Lexer

/-!
Reading a whole text. The content lines are taken one after the other; the state between two lines
holds the variables in sight, the groups that are open, the entries read so far, and the value that
is being continued, if any. The first fault ends the reading.
-/

namespace ScopedConfig

/-- A group that is open, with the entries that stand before it in the group around it. -/
structure OpenGroup where
  name : Text
  before : Group
  deriving DecidableEq, Repr

structure Pending where
  target : Target
  name : Text
  line : Nat
  segment : Segment
  deriving DecidableEq, Repr

structure State where
  scopes : Scopes
  /-- The open groups, innermost first. -/
  outer : List OpenGroup
  entries : Group
  pending : Option Pending
  deriving DecidableEq, Repr

namespace State

def start : State := ⟨Scopes.empty.enter, [], .empty, none⟩

def path (state : State) : List Text := (state.outer.map (·.name)).reverse

def qualified (state : State) (name : Text) : Text :=
  ['/'].intercalate (state.path ++ [name])

def checkNew (state : State) (target : Target) (name : Text) (line : Nat) :
    Except ParseError Unit :=
  match target with
  | .key =>
    if state.entries.contains name then .error (.duplicateKey (state.qualified name) line)
    else .ok ()
  | .binding =>
    match state.scopes.local? name with
    | some first => .error (.duplicateVariable (state.qualified name) line first.line)
    | none => .ok ()

def openGroup (state : State) (name : Text) : State :=
  ⟨state.scopes.enter, ⟨name, state.entries⟩ :: state.outer, .empty, none⟩

def closeGroup (state : State) (line : Nat) : Except ParseError State :=
  match state.outer with
  | [] => .error (.strayClose line)
  | group :: outer =>
    .ok ⟨state.scopes.exit, outer, group.before.insert group.name (.group state.entries), none⟩

def assign (state : State) (pending : Pending) : Except ParseError State := do
  let path := state.qualified pending.name
  let value ← join state.scopes path pending.segment.tokens
  match pending.target with
  | .key => return { state with
      entries := state.entries.insert pending.name (.scalar value), pending := none }
  | .binding =>
    match state.scopes.declare pending.name value pending.line with
    | .ok scopes => return { state with scopes, pending := none }
    | .error first => .error (.duplicateVariable path pending.line first)

/-- Takes in what has been read of a value: it is kept if more lines belong to it, and assigned if
it is complete. -/
def settle (state : State) (pending : Pending) : Except ParseError State :=
  if pending.segment.continues then .ok { state with pending := some pending }
  else state.assign pending

def begin (state : State) (line : Line) : Except ParseError State :=
  match Statement.ofText? line.text with
  | none => .error (.nameExpected line.number)
  | some .close => state.closeGroup line.number
  | some (.opening .binding name) =>
    .error (.variableHoldsGroup (state.qualified name) line.number)
  | some (.opening .key name) => do
    state.checkNew .key name line.number
    return state.openGroup name
  | some (.value target name rest) => do
    state.checkNew target name line.number
    let segment ← lex line.number false rest
    state.settle ⟨target, name, line.number, segment⟩

def step (state : State) (line : Line) : Except ParseError State :=
  match state.pending with
  | none => state.begin line
  | some pending => do
    let segment ← pending.segment.extend line
    state.settle { pending with segment }

def run (state : State) (lines : List Line) : Except ParseError State :=
  lines.foldlM step state

def finish (total : Nat) (state : State) : Except ParseError Group :=
  match state.pending, state.outer with
  | none, [] => .ok state.entries
  | _, _ => .error (.unfinished total)

theorem run_nil (state : State) : state.run [] = .ok state := rfl

theorem run_cons (state : State) (line : Line) (lines : List Line) :
    state.run (line :: lines) = state.step line >>= (·.run lines) := by
  simp [run]

theorem run_append (state : State) (first second : List Line) :
    state.run (first ++ second) = state.run first >>= (·.run second) := by
  simp [run]

end State

def parse (text : Text) : Except ParseError Group := do
  let source := Source.ofText text
  let state ← State.start.run source.lines
  state.finish source.total

end ScopedConfig
