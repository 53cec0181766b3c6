import ScopedConfig.Error
import ScopedConfig.Source
import ScopedConfig.Text.Name

namespace ScopedConfig

def ownName (path : Text) : Text := (path.splitOn '/').getLastD []

def afterDollar : Text → Text
  | '$' :: rest => rest
  | line => line

/-- The first lines of a text and after them some closing braces. -/
def closedAfter (text : Text) (count braces : Nat) : Text :=
  ['\n'].intercalate ((physicalLines text).take count ++ List.replicate braces ['}'])

namespace ParseError

def path? : ParseError → Option Text
  | duplicateKey path _ | duplicateVariable path _ _ | variableHoldsGroup path _
  | unknownVariable _ path _ => some path
  | strayClose _ | nameExpected _ | unfinished _ | unmatchedQuote .. | unrecognizedToken .. => none

/-- Whether a fault shows at the front of a statement, before any part of a value is read. -/
def atFront : ParseError → Bool
  | strayClose _ | nameExpected _ | duplicateKey .. | duplicateVariable .. | variableHoldsGroup .. =>
    true
  | unfinished _ | unmatchedQuote .. | unrecognizedToken .. | unknownVariable .. => false

/-- What a fault says about the trimmed line that it names. That a text stops too early is not to be
seen on any line. -/
def FoundOn (line : Text) : ParseError → Prop
  | strayClose _ => line = ['}']
  | nameExpected _ => line ≠ ['}'] ∧ ∀ c ∈ (afterDollar line).head?, isNameChar c = false
  | duplicateKey path _ => ownName path <+: line
  | duplicateVariable path _ _ | variableHoldsGroup path _ => '$' :: ownName path <+: line
  | unfinished _ => False
  | unmatchedQuote quote _ => (quote = '\x22' ∨ quote = '\x27') ∧ quote ∈ line
  | unrecognizedToken token _ =>
    (∃ rest, token = '$' :: rest ∧ ∀ c ∈ rest.head?, isNameChar c = false) ∧
      (∀ c ∈ token, isSpace c = false) ∧ token <:+: line
  | unknownVariable name _ _ => '$' :: name <:+: line

end ParseError

end ScopedConfig
