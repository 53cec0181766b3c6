import ScopedConfig.Error
import ScopedConfig.Scopes
import ScopedConfig.Token

/-!
The text of a value. Tokens are put side by side; of the blanks between two tokens one space is
kept if one of the two is a bare word and neither is quoted.
-/

namespace ScopedConfig

namespace TokenKind

/-- Whether a space stands between two tokens that had blanks between them. -/
def keepsSpace : TokenKind → TokenKind → Bool
  | bare _, bare _ => true
  | bare _, reference _ => true
  | reference _, bare _ => true
  | _, _ => false

end TokenKind

def Token.text (token : Token) (scopes : Scopes) (path : Text) : Except ParseError Text :=
  match token.kind with
  | .bare word => .ok word
  | .quoted content => .ok content
  | .reference name =>
    match scopes.resolve? name with
    | some declared => .ok declared.value
    | none => .error (.unknownVariable name path token.line)

def Token.separator (previous : Option TokenKind) (token : Token) : Text :=
  match previous with
  | none => []
  | some kind => if token.spaced && kind.keepsSpace token.kind then [' '] else []

def joinAfter (scopes : Scopes) (path : Text) :
    Option TokenKind → List Token → Except ParseError Text
  | _, [] => .ok []
  | previous, token :: tokens => do
    let text ← token.text scopes path
    let after ← joinAfter scopes path (some token.kind) tokens
    return token.separator previous ++ text ++ after

def join (scopes : Scopes) (path : Text) (tokens : List Token) : Except ParseError Text :=
  joinAfter scopes path none tokens

end ScopedConfig
