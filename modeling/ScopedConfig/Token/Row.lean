import ScopedConfig.Text.Name
import ScopedConfig.Token

/-!
Values taken apart as they are written: a row of lexemes, each with the blanks before it, and what is
left of the text after them. A lexeme is as long as it can be, so that what it stands before matters.
-/

namespace ScopedConfig

inductive Lexeme where
  | bare (word : Text)
  | quoted (quote : Char) (content : Text)
  | reference (name : Text)
  deriving DecidableEq, Repr

namespace Lexeme

def text : Lexeme → Text
  | bare word => word
  | quoted quote content => quote :: (content ++ [quote])
  | reference name => '$' :: name

def kind : Lexeme → TokenKind
  | bare word => .bare word
  | quoted _ content => .quoted content
  | reference name => .reference name

def StandsBefore (next : Text) : Lexeme → Prop
  | bare word => IsWord word ∧ ∀ c ∈ next.head?, isSpace c = true
  | quoted quote content => (quote = '\x22' ∨ quote = '\x27') ∧ quote ∉ content
  | reference name => IsName name ∧ ∀ c ∈ next.head?, isNameChar c = false

end Lexeme

structure Placed where
  blanks : Text
  lexeme : Lexeme
  deriving DecidableEq, Repr

abbrev Row := List Placed

namespace Row

def before (left : Text) : Row → Text
  | [] => left
  | placed :: row => placed.blanks ++ (placed.lexeme.text ++ before left row)

/-- A row before some other text in which every lexeme ends where the next blanks or the next lexeme
begin. -/
def Proper (left : Text) : Row → Prop
  | [] => True
  | placed :: row =>
    Blank placed.blanks ∧ placed.lexeme.StandsBefore (before left row) ∧ Proper left row

def Opens (row : Row) (left text : Text) : Prop := text = row.before left ∧ row.Proper left

def EndsInBackslash (row : Row) : Prop := ∃ placed ∈ row.getLast?, placed.lexeme = .bare ['\\']

/-- The tokens of a row on a line. Blanks before a token are remembered, but not how many. -/
def tokens (line : Nat) (row : Row) : List Token :=
  row.map fun placed => ⟨placed.lexeme.kind, !placed.blanks.isEmpty, line⟩

end Row

def Unclosed (quote : Char) (left : Text) : Prop :=
  ∃ blanks rest, left = blanks ++ quote :: rest ∧ Blank blanks ∧
    (quote = '\x22' ∨ quote = '\x27') ∧ quote ∉ rest

/-- What is left is a dollar sign without a name, after blanks; the token is the dollar sign with all
that follows up to the next blank. -/
def Nameless (token left : Text) : Prop :=
  ∃ blanks rest, left = blanks ++ '$' :: rest ∧ Blank blanks ∧
    (∀ c ∈ rest.head?, isNameChar c = false) ∧ token = '$' :: rest.takeWhile isVisible

end ScopedConfig
