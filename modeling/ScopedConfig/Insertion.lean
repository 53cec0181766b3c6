import ScopedConfig.Agreement
import ScopedConfig.Enclosure

namespace ScopedConfig

def declarationLine (name value : Text) : Text :=
  '$' :: (name ++ " = ".toList ++ '\x22' :: value ++ ['\x22'])

def withLine (text : Text) (count : Nat) (line : Text) : Text :=
  ['\n'].intercalate ((physicalLines text).take count ++ line :: (physicalLines text).drop count)

/-- The first `count` lines of a text are read without a fault, and no value is being read after
them, so that the next line begins a statement. -/
def BetweenStatements (text : Text) (count : Nat) : Prop :=
  count ≤ (physicalLines text).length ∧ ∃ state, stateAfter text count = .ok state ∧
    state.pending = none

/-- Lines of a text that stand for lines of the text with a line put after its first `count`. -/
def movedDown (count : Nat) : Correspondence where
  path := Eq
  line line line' := (line ≤ count ∧ line' = line) ∨ (count < line ∧ line' = line + 1)
  last line line' := line' = line + 1

end ScopedConfig
