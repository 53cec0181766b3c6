import ScopedConfig.Text.Space

namespace ScopedConfig

def IsWord : Text → Prop
  | [] => False
  | c :: rest => c ≠ '\x22' ∧ c ≠ '\x27' ∧ c ≠ '$' ∧ ∀ other ∈ c :: rest, isSpace other = false

inductive TokenKind where
  | bare (word : Text)
  /-- What stands between two quotes, taken as it is. -/
  | quoted (content : Text)
  | reference (name : Text)
  deriving DecidableEq, Repr

structure Token where
  kind : TokenKind
  /-- Whether blanks or a line break stand before the token. -/
  spaced : Bool
  line : Nat
  deriving DecidableEq, Repr

/-- The tokens of one or more lines of a value, and whether the value goes on after them. -/
structure Segment where
  tokens : List Token
  continues : Bool
  deriving DecidableEq, Repr

def Segment.cons (token : Token) (segment : Segment) : Segment :=
  ⟨token :: segment.tokens, segment.continues⟩

end ScopedConfig
