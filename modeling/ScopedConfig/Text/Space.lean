/-!
Texts and the blanks in them. A blank is a character of the Unicode property `White_Space`;
trimming removes blanks from the ends of a text and nothing else.
-/

namespace ScopedConfig

/-- Texts are lists of characters: splitting, trimming and quoting are operations on lists. -/
abbrev Text := List Char

/-- The code points of `White_Space`, as ranges with both ends included. -/
def spaceRanges : List (Nat × Nat) :=
  [(0x09, 0x0D), (0x20, 0x20), (0x85, 0x85), (0xA0, 0xA0), (0x1680, 0x1680),
   (0x2000, 0x200A), (0x2028, 0x2029), (0x202F, 0x202F), (0x205F, 0x205F), (0x3000, 0x3000)]

def isSpace (c : Char) : Bool :=
  spaceRanges.any fun range => range.1 ≤ c.toNat && c.toNat ≤ range.2

def isVisible (c : Char) : Bool := !isSpace c

def Blank (text : Text) : Prop := ∀ c ∈ text, isSpace c = true

def trimStart (text : Text) : Text := text.dropWhile isSpace

def trimEnd (text : Text) : Text := (text.reverse.dropWhile isSpace).reverse

def trim (text : Text) : Text := trimEnd (trimStart text)

theorem isSpace_iff (c : Char) :
    isSpace c = true ↔ ∃ range ∈ spaceRanges, range.1 ≤ c.toNat ∧ c.toNat ≤ range.2 := by
  simp [isSpace]

theorem isVisible_iff (c : Char) : isVisible c = true ↔ isSpace c = false := by
  simp [isVisible]

theorem trimStart_suffix (text : Text) : trimStart text <:+ text :=
  List.dropWhile_suffix _

theorem trimEnd_isPrefix (text : Text) : trimEnd text <+: text := by
  have suffix := List.dropWhile_suffix (l := text.reverse) isSpace
  have reversed := List.reverse_prefix.mpr suffix
  rwa [List.reverse_reverse] at reversed

theorem trimStart_of_visible (c : Char) (rest : Text) (visible : isSpace c = false) :
    trimStart (c :: rest) = c :: rest := by
  simp [trimStart, visible]

theorem trimStart_space (c : Char) (rest : Text) (space : isSpace c = true) :
    trimStart (c :: rest) = trimStart rest := by
  simp [trimStart, space]

end ScopedConfig
