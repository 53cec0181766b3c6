import ScopedConfig.Group
import ScopedConfig.Source
import ScopedConfig.Statement
import ScopedConfig.Token

/-!
The language without its reader: which rows of content lines are the body of a group, and which
entries a body has. A body is a row of statements; each statement sees the variables that were
declared before it, in its own body or in a body around it.
-/

namespace ScopedConfig

/-- A part of a value, wherever it stands: what it is, and whether blanks or a line break stand
before it. -/
structure Piece where
  kind : TokenKind
  spaced : Bool
  deriving DecidableEq, Repr

def Token.piece (token : Token) : Piece := ⟨token.kind, token.spaced⟩

/-- The pieces of one line of a value. The first argument says whether a blank or a line break comes
before the line, the last whether a backslash alone at its end continues the value. -/
inductive Pieces : Bool → Text → List Piece → Bool → Prop where
  | nothing {spaced : Bool} {blanks : Text} (blank : Blank blanks) : Pieces spaced blanks [] false
  | backslash {spaced : Bool} {blanks after : Text} (blank : Blank blanks) (last : Blank after) :
    Pieces spaced (blanks ++ '\\' :: after) [] true
  | bare {spaced continues : Bool} {blanks word rest : Text} {pieces : List Piece}
    (blank : Blank blanks) (proper : IsWord word) (ends : ∀ c ∈ rest.head?, isSpace c = true)
    (inner : ¬ (word = ['\\'] ∧ Blank rest)) (later : Pieces false rest pieces continues) :
    Pieces spaced (blanks ++ (word ++ rest)) (⟨.bare word, spaced || !blanks.isEmpty⟩ :: pieces)
      continues
  | quoted {spaced continues : Bool} {blanks content rest : Text} {quote : Char}
    {pieces : List Piece} (blank : Blank blanks) (isQuoted : quote = '\x22' ∨ quote = '\x27')
    (free : quote ∉ content) (later : Pieces false rest pieces continues) :
    Pieces spaced (blanks ++ quote :: (content ++ quote :: rest))
      (⟨.quoted content, spaced || !blanks.isEmpty⟩ :: pieces) continues
  | reference {spaced continues : Bool} {blanks name rest : Text} {pieces : List Piece}
    (blank : Blank blanks) (named : IsName name) (longest : ∀ c ∈ rest.head?, isNameChar c = false)
    (later : Pieces false rest pieces continues) :
    Pieces spaced (blanks ++ '$' :: (name ++ rest))
      (⟨.reference name, spaced || !blanks.isEmpty⟩ :: pieces) continues

inductive ValuePieces : Bool → Text → List Text → List Piece → Prop where
  | whole {spaced : Bool} {text : Text} {pieces : List Piece}
    (read : Pieces spaced text pieces false) : ValuePieces spaced text [] pieces
  | continued {spaced : Bool} {text next : Text} {more : List Text} {pieces later : List Piece}
    (read : Pieces spaced text pieces true) (rest : ValuePieces true next more later) :
    ValuePieces spaced text (next :: more) (pieces ++ later)

/-- The variables of one body with their values, the latest first. -/
abbrev Bindings := List (Text × Text)

def TokenKind.meaning? (frames : List Bindings) : TokenKind → Option Text
  | .bare word => some word
  | .quoted content => some content
  | .reference name => frames.findSome? (·.lookup name)

/-- Of the blanks between two pieces one space is kept between bare words, and between a bare word
and a reference. -/
def Piece.gap : Option TokenKind → Piece → Text
  | some (.bare _), ⟨.bare _, true⟩ => [' ']
  | some (.bare _), ⟨.reference _, true⟩ => [' ']
  | some (.reference _), ⟨.bare _, true⟩ => [' ']
  | _, _ => []

def meaning? (frames : List Bindings) : Option TokenKind → List Piece → Option Text
  | _, [] => some []
  | previous, piece :: pieces => do
    let text ← piece.kind.meaning? frames
    let after ← meaning? frames (some piece.kind) pieces
    return piece.gap previous ++ text ++ after

/-- What stands between a name and a value: blanks, with at most one `=` or `:` among them. -/
inductive Separated : Text → Text → Prop where
  | blanks {blanks value : Text} (blank : Blank blanks)
    (starts : ∀ c ∈ value.head?, isSpace c = false ∧ c ≠ '=' ∧ c ≠ ':') :
    Separated (blanks ++ value) value
  | sign {before after value : Text} {sign : Char} (blank : Blank before)
    (isSign : sign = '=' ∨ sign = ':') (blankAfter : Blank after)
    (starts : ∀ c ∈ value.head?, isSpace c = false) :
    Separated (before ++ sign :: (after ++ value)) value

/-- A line that begins a statement: the longest name at its place, after a `$` if it is the name of
a variable, and the first part of a value. -/
inductive Head : Target → Text → Text → Text → Prop where
  | key {name tail value : Text} (named : IsName name)
    (longest : ∀ c ∈ tail.head?, isNameChar c = false) (separated : Separated tail value) :
    Head .key (name ++ tail) name value
  | binding {name tail value : Text} (named : IsName name)
    (longest : ∀ c ∈ tail.head?, isNameChar c = false) (separated : Separated tail value) :
    Head .binding ('$' :: (name ++ tail)) name value

/-- A row of statements in a body that has the given bindings and keys already, inside bodies with
the bindings `outer`, and the entries that the statements add. -/
inductive Body : List Bindings → Bindings → List Text → List Text → Group → Prop where
  | done {outer : List Bindings} {own : Bindings} {keys : List Text} :
    Body outer own keys [] .empty
  | binding {outer : List Bindings} {own : Bindings} {keys : List Text} {line name first value : Text}
    {more lines : List Text} {pieces : List Piece} {tree : Group}
    (head : Head .binding line name first) (isValue : first ≠ ['{'])
    (new : name ∉ own.map Prod.fst) (read : ValuePieces false first more pieces)
    (means : meaning? (own :: outer) none pieces = some value)
    (later : Body outer ((name, value) :: own) keys lines tree) :
    Body outer own keys (line :: (more ++ lines)) tree
  | scalar {outer : List Bindings} {own : Bindings} {keys : List Text} {line name first value : Text}
    {more lines : List Text} {pieces : List Piece} {tree : Group}
    (head : Head .key line name first) (isValue : first ≠ ['{']) (new : name ∉ keys)
    (read : ValuePieces false first more pieces)
    (means : meaning? (own :: outer) none pieces = some value)
    (later : Body outer own (name :: keys) lines tree) :
    Body outer own keys (line :: (more ++ lines)) (.scalar name value tree)
  | nested {outer : List Bindings} {own : Bindings} {keys : List Text} {line name : Text}
    {within lines : List Text} {body tree : Group} (head : Head .key line name ['{'])
    (new : name ∉ keys) (inside : Body (own :: outer) [] [] within body)
    (later : Body outer own (name :: keys) lines tree) :
    Body outer own keys (line :: (within ++ ['}'] :: lines)) (.nested name body tree)

/-- The entries that a whole text denotes. -/
def Denotes (text : Text) (tree : Group) : Prop := Body [] [] [] (contentTexts text) tree

end ScopedConfig
