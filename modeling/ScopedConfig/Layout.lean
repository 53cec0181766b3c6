import ScopedConfig.Agreement
import ScopedConfig.Source

namespace ScopedConfig

def contentNumbers (text : Text) : List Nat := (Source.ofText text).lines.map Line.number

/-- The line `number` of one text and the line `number'` of another are content lines at the same
place. -/
def SamePlace (left right : Text) (number number' : Nat) : Prop :=
  ∃ place : Nat,
    (contentNumbers left)[place]? = some number ∧ (contentNumbers right)[place]? = some number'

def layout (left right : Text) : Correspondence where
  path := Eq
  line := SamePlace left right
  last total total' := total = (physicalLines left).length ∧ total' = (physicalLines right).length

end ScopedConfig
