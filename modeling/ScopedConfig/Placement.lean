import ScopedConfig.Document

namespace ScopedConfig

def Statement.defined? : Statement → Option (Target × Text)
  | close => none
  | opening target name => some (target, name)
  | value target name _ => some (target, name)

/-- Of the lines that are read from a state on, the one with the given number begins a statement in
the group that is innermost in that state. A line that continues a value begins nothing. -/
def State.Begins (state : State) (lines : List Line) (number : Nat) (statement : Statement) :
    Prop :=
  ∃ before line after reached, lines = before ++ line :: after ∧ line.number = number ∧
    state.run before = .ok reached ∧ reached.outer = state.outer ∧ reached.pending = none ∧
    Statement.ofText? line.text = some statement

/-- Outside every group, the line `number` of a text begins a statement that defines a name. -/
def DefinesOn (text : Text) (target : Target) (name : Text) (number : Nat) : Prop :=
  ∃ statement, State.start.Begins (Source.ofText text).lines number statement ∧
    statement.defined? = some (target, name)

/-- What the lines that are read outside every group seem to define, as far as the lines are read. A
line that continues a value may be among them. -/
def State.definitions (state : State) : List Line → List (Target × Text)
  | [] => []
  | line :: lines =>
    let here :=
      if state.outer.isEmpty then (Statement.ofText? line.text).bind (·.defined?) else none
    match state.step line with
    | .error _ => here.toList
    | .ok next => here.toList ++ next.definitions lines

end ScopedConfig
