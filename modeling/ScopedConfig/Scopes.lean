import ScopedConfig.Text.Space

/-!
Variables and the frames that hold them. One frame belongs to each open group; a name is looked up
from the innermost frame outwards and declared in the innermost frame only, so that an inner
declaration hides an outer one until its group closes.
-/

namespace ScopedConfig

structure Variable where
  value : Text
  line : Nat
  deriving DecidableEq, Repr

abbrev Frame := List (Text × Variable)

/-- The open frames, innermost first. -/
structure Scopes where
  frames : List Frame
  deriving DecidableEq, Repr

namespace Scopes

def empty : Scopes := ⟨[]⟩

def enter (scopes : Scopes) : Scopes := ⟨[] :: scopes.frames⟩

def exit (scopes : Scopes) : Scopes := ⟨scopes.frames.tail⟩

def isEmpty (scopes : Scopes) : Bool := scopes.frames.isEmpty

/-- The innermost frame, empty if no frame is open. -/
def innermost (scopes : Scopes) : Frame := scopes.frames.headD []

def local? (scopes : Scopes) (name : Text) : Option Variable :=
  scopes.innermost.lookup name

def resolve? (scopes : Scopes) (name : Text) : Option Variable :=
  scopes.frames.findSome? (·.lookup name)

def extend (scopes : Scopes) (name : Text) (declared : Variable) : Scopes :=
  ⟨((name, declared) :: scopes.innermost) :: scopes.frames.tail⟩

/-- Declares a variable in the innermost frame, opening one if none is open. A name already there
is refused with the line of its first declaration. -/
def declare (scopes : Scopes) (name value : Text) (line : Nat) : Except Nat Scopes :=
  match scopes.local? name with
  | some first => .error first.line
  | none => .ok (scopes.extend name ⟨value, line⟩)

theorem exit_enter (scopes : Scopes) : scopes.enter.exit = scopes := rfl

theorem declare_new (scopes : Scopes) (name value : Text) (line : Nat)
    (fresh : scopes.local? name = none) :
    scopes.declare name value line = .ok (scopes.extend name ⟨value, line⟩) := by
  rw [declare, fresh]

theorem exit_declare (scopes declared : Scopes) (name value : Text) (line : Nat)
    (success : scopes.declare name value line = .ok declared) : declared.exit = scopes.exit := by
  unfold declare at success
  split at success
  · contradiction
  · cases success
    rfl

end Scopes

end ScopedConfig
