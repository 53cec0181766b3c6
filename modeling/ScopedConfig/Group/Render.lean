import ScopedConfig.Group

/-!
The canonical text of a group. Each scalar takes one line and each nested group one line before and
one after its own lines, which are indented by four spaces more.
-/

namespace ScopedConfig

def quotePiece (piece : Text) : Text :=
  if piece.isEmpty then [] else '\x22' :: piece ++ ['\x22']

/-- A value in quotes. Quoted text has no escapes, so double quotes enclose a value without any,
single quotes a value without any, and a value with both is written as pieces side by side. -/
def quoteValue (value : Text) : Text :=
  if '\x22' ∉ value then '\x22' :: value ++ ['\x22']
  else if '\x27' ∉ value then '\x27' :: value ++ ['\x27']
  else ['\x27', '\x22', '\x27'].intercalate ((value.splitOn '\x22').map quotePiece)

def indentation (depth : Nat) : Text := List.replicate (4 * depth) ' '

def scalarLine (key value : Text) : Text :=
  if value.isEmpty then key else key ++ " = ".toList ++ quoteValue value

def openingLine (key : Text) : Text := key ++ " = \x7b".toList

def closingLine : Text := ['}']

namespace Group

def lines : Nat → Group → List Text
  | _, empty => []
  | depth, scalar key value rest =>
    (indentation depth ++ scalarLine key value) :: rest.lines depth
  | depth, nested key body rest =>
    (indentation depth ++ openingLine key) :: body.lines (depth + 1) ++
      (indentation depth ++ closingLine) :: rest.lines depth

def render (group : Group) : Text := (group.lines 0).flatMap (· ++ ['\n'])

def height (group : Group) : Nat := group.render.count '\n'

/-- The scalars of a group, depth first, each with the physical line on which it starts if the
text of the group starts on line `first`. -/
def placedScalars : Nat → Group → List (Nat × Text)
  | _, empty => []
  | first, scalar key value rest =>
    (first, value) :: rest.placedScalars (first + (scalarLine key value).count '\n' + 1)
  | first, nested _ body rest =>
    body.placedScalars (first + 1) ++ rest.placedScalars (first + body.height + 2)

end Group

end ScopedConfig
