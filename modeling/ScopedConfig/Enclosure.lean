import ScopedConfig.Agreement
import ScopedConfig.Document

namespace ScopedConfig

def stateAfter (text : Text) (count : Nat) : Except ParseError State :=
  State.start.run (contentLines ((physicalLines text).take count) 1)

def pathAfter (text : Text) (count : Nat) : Except ParseError (List Text) :=
  (stateAfter text count).map State.path

/-- Inside the groups `outer`, the line `first` opens a group that the line `last` closes. -/
structure Encloses (text : Text) (outer : List Text) (name : Text) (first last : Nat) : Prop where
  before : pathAfter text (first - 1) = .ok outer
  opened : pathAfter text first = .ok (outer ++ [name])
  inside : ∀ line, first ≤ line → line < last →
    ∃ inner, pathAfter text line = .ok (outer ++ name :: inner)
  closed : pathAfter text last = .ok outer
  ordered : first < last

def withoutBetween (text : Text) (first last : Nat) : Text :=
  ['\n'].intercalate ((physicalLines text).take first ++ (physicalLines text).drop (last - 1))

/-- Where a line is once the lines strictly between `first` and `last` are gone. -/
def Moved (first last line line' : Nat) : Prop :=
  (line ≤ first ∧ line' = line) ∨ (last ≤ line ∧ line' = line - (last - first - 1))

def movedUp (first last : Nat) : Correspondence where
  path := Eq
  line := Moved first last
  last := Moved first last

end ScopedConfig
