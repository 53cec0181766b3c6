import ScopedConfig.Text.Space

/-!
The lines of a text. Physical lines are the pieces between line feeds, numbered from 1. A line is
blank, a comment or content; only content lines are read, trimmed and under their own number.
-/

namespace ScopedConfig

inductive LineKind where
  | blank
  | comment
  | content
  deriving DecidableEq, Repr

def LineKind.ofText (line : Text) : LineKind :=
  match trim line with
  | [] => .blank
  | '#' :: _ => .comment
  | _ :: _ => .content

structure Line where
  number : Nat
  text : Text
  deriving DecidableEq, Repr

/-- The pieces of a text between line feeds; there is always at least one. -/
def physicalLines (text : Text) : List Text := text.splitOn '\n'

def contentLines (lines : List Text) (first : Nat) : List Line :=
  (lines.zipIdx first).filterMap fun line =>
    if LineKind.ofText line.1 = .content then some ⟨line.2, trim line.1⟩ else none

def contentTexts (text : Text) : List Text :=
  ((physicalLines text).map trim).filter fun line => !line.isEmpty && line.head? != some '#'

/-- A reader's place in a text: how many physical lines the text has in all, and the content
lines still to come. -/
structure Source where
  total : Nat
  lines : List Line
  deriving DecidableEq, Repr

namespace Source

def ofText (text : Text) : Source :=
  ⟨(physicalLines text).length, contentLines (physicalLines text) 1⟩

def isEmpty (source : Source) : Bool := source.total == 0

def next? : Source → Option (Line × Source)
  | ⟨_, []⟩ => none
  | ⟨total, line :: lines⟩ => some (line, ⟨total, lines⟩)

end Source

theorem contentLines_append (first second : List Text) (number : Nat) :
    contentLines (first ++ second) number =
      contentLines first number ++ contentLines second (number + first.length) := by
  simp [contentLines, List.zipIdx_append]

theorem physicalLines_append (first second : Text) :
    physicalLines (first ++ '\n' :: second) = physicalLines first ++ physicalLines second :=
  List.splitOn_append_cons_self first second

theorem Source.total_pos (text : Text) : 0 < (Source.ofText text).total := by
  have nonempty : physicalLines text ≠ [] := List.splitOn_ne_nil _ _
  exact List.length_pos_iff.mpr nonempty

end ScopedConfig
