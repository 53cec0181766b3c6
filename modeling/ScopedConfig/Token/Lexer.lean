import ScopedConfig.Error
import ScopedConfig.Source
import ScopedConfig.Text.Name
import ScopedConfig.Token

/-!
Reading the tokens of a value. A line is read from left to right; a backslash that stands alone at
its end continues the value on the next content line, where reading goes on as after a blank.
-/

namespace ScopedConfig

def isQuote (c : Char) : Bool := c = '\x22' || c = '\x27'

/-- The tokens of one line. `spaced` says whether a blank or a line break comes before the text. -/
def lex (line : Nat) (spaced : Bool) : Text → Except ParseError Segment
  | [] => .ok ⟨[], false⟩
  | c :: rest =>
    if isSpace c then
      lex line true rest
    else if isQuote c then
      if c ∈ rest then
        (lex line false (rest.dropWhile (· != c)).tail).map
          (.cons ⟨.quoted (rest.takeWhile (· != c)), spaced, line⟩)
      else .error (.unmatchedQuote c line)
    else if c = '$' then
      match rest.takeWhile isNameChar with
      | [] => .error (.unrecognizedToken (c :: rest.takeWhile isVisible) line)
      | name =>
        (lex line false (rest.dropWhile isNameChar)).map (.cons ⟨.reference name, spaced, line⟩)
    else if c = '\\' && rest.all isSpace then
      .ok ⟨[], true⟩
    else
      (lex line false (rest.dropWhile isVisible)).map
        (.cons ⟨.bare (c :: rest.takeWhile isVisible), spaced, line⟩)
termination_by text => text.length
decreasing_by
  all_goals simp only [List.length_cons]
  · omega
  · have shorter := (List.dropWhile_suffix (l := rest) (· != c)).length_le
    rw [List.length_tail]
    omega
  · have shorter := (List.dropWhile_suffix (l := rest) isNameChar).length_le
    omega
  · have shorter := (List.dropWhile_suffix (l := rest) isVisible).length_le
    omega

namespace Segment

def extend (segment : Segment) (line : Line) : Except ParseError Segment :=
  (lex line.number true line.text).map fun next => ⟨segment.tokens ++ next.tokens, next.continues⟩

/-- Reads the lines that continue a segment, and says which lines are left afterwards. A line
that fails to read is not among them. -/
def complete (total : Nat) : Segment → List Line → Except ParseError (List Token) × List Line
  | segment, [] =>
    (if segment.continues then .error (.unfinished total) else .ok segment.tokens, [])
  | segment, line :: lines =>
    if segment.continues then
      match segment.extend line with
      | .error error => (.error error, lines)
      | .ok extended => complete total extended lines
    else (.ok segment.tokens, line :: lines)

end Segment

/-- Reads a value whose first part is `rest`, on line `line`, and whose continuation lines come
from `source`. The place after reading is given on success and on failure. -/
def readValue (rest : Text) (line : Nat) (source : Source) :
    Except ParseError (List Token) × Source :=
  match lex line false rest with
  | .error error => (.error error, source)
  | .ok segment =>
    let (result, lines) := segment.complete source.total source.lines
    (result, ⟨source.total, lines⟩)

end ScopedConfig
