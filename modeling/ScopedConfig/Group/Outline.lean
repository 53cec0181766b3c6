import ScopedConfig.Group.Render
import ScopedConfig.Source

/-!
The outline of a canonical text: its lines one by one, each with the entry that it stands for. A
scalar stands on one line; a group has a line that opens it and one that closes it. Which line closes
a group is seen from the outline, not from the texts, which may hold braces of their own.
-/

namespace ScopedConfig

/-- The lines of a text that ends every line with a line feed. -/
def endedLines (text : Text) : List Text := (physicalLines text).dropLast

inductive LineRole where
  | scalar
  | opening
  | closing
  deriving DecidableEq, Repr

/-- Every opening line is matched by a closing one further down, and those between match likewise. -/
inductive Matched : List LineRole → Prop where
  | nil : Matched []
  | scalar {rest : List LineRole} (later : Matched rest) : Matched (.scalar :: rest)
  | nested {inside rest : List LineRole} (within : Matched inside) (later : Matched rest) :
    Matched (.opening :: (inside ++ .closing :: rest))

/-- A line of a canonical text and the keys that lead to the entry that it stands for. -/
structure OutlineLine where
  role : LineRole
  place : List Text
  text : Text
  deriving DecidableEq, Repr

namespace OutlineLine

variable (outer : List Text) (key : Text)

def scalar (value : Text) : OutlineLine :=
  ⟨.scalar, outer ++ [key], indentation outer.length ++ scalarLine key value⟩

def opening : OutlineLine :=
  ⟨.opening, outer ++ [key], indentation outer.length ++ (key ++ " = \x7b".toList)⟩

def closing : OutlineLine :=
  ⟨.closing, outer ++ [key], indentation outer.length ++ ['}']⟩

end OutlineLine

namespace Group

def outline (outer : List Text) : Group → List OutlineLine
  | empty => []
  | scalar key value rest => .scalar outer key value :: rest.outline outer
  | nested key body rest =>
    .opening outer key ::
      (body.outline (outer ++ [key]) ++ .closing outer key :: rest.outline outer)

def scalarCount : Group → Nat
  | empty => 0
  | scalar _ _ rest => rest.scalarCount + 1
  | nested _ body rest => body.scalarCount + rest.scalarCount

def groupCount : Group → Nat
  | empty => 0
  | scalar _ _ rest => rest.groupCount
  | nested _ body rest => body.groupCount + rest.groupCount + 1

end Group

end ScopedConfig
