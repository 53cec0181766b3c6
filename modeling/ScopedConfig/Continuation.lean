import ScopedConfig.Agreement
import ScopedConfig.Grammar

namespace ScopedConfig

/-- What is written right after the text begins a new token, unless it goes on with a name: the text
is empty, or it ends in a blank or in a token that is no bare word. -/
def StandsApart (text : Text) (kinds : List TokenKind) : Prop :=
  text = [] ∨ (∃ c ∈ text.getLast?, isSpace c = true) ∨
    ∃ kind ∈ kinds.getLast?, ∀ word, kind ≠ .bare word

def GoesOn (text : Text) : Prop := ∃ pieces, Pieces false text pieces true

/-- Of the lines to come after the text of a value, those that are left once the value is read. A line
is taken if the one before it goes on, and not otherwise. -/
inductive Leaves : Text → List Line → List Line → Prop where
  | ended {text : Text} {lines : List Line} (ends : ¬ GoesOn text) : Leaves text lines lines
  | exhausted {text : Text} (goesOn : GoesOn text) : Leaves text [] []
  | taken {text : Text} {line : Line} {lines left : List Line} (goesOn : GoesOn text)
    (later : Leaves line.text lines left) : Leaves text (line :: lines) left

/-- Errors that name one line and another one in its place. -/
def inPlaceOf (line line' : Nat) : Correspondence where
  path := Eq
  line number number' := number = line ∧ number' = line'
  last _ _ := False

end ScopedConfig
