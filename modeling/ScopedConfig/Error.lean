import ScopedConfig.Text.Space

/-!
What can go wrong: nine faults of a text, two of a file, and a wrapper that says in which file a
fault was found. Every error has a message, a code, at most one line and a hint; wrapped errors
answer for what they wrap.
-/

namespace ScopedConfig

/-- A fault of a configuration text. Paths name an entry by the open groups and its own name. -/
inductive ParseError where
  /-- A closing brace outside every group. -/
  | strayClose (line : Nat)
  | nameExpected (line : Nat)
  | duplicateKey (path : Text) (line : Nat)
  | duplicateVariable (path : Text) (line firstLine : Nat)
  | variableHoldsGroup (path : Text) (line : Nat)
  /-- The text ends inside a group or a continued value. -/
  | unfinished (line : Nat)
  | unmatchedQuote (quote : Char) (line : Nat)
  | unrecognizedToken (token : Text) (line : Nat)
  | unknownVariable (name path : Text) (line : Nat)
  deriving DecidableEq, Repr

inductive Error where
  | parse (error : ParseError)
  | missingFile (path : Text)
  | unreadableFile (path reason : Text)
  /-- An error found while loading the file at `path`. -/
  | inFile (path : Text) (cause : Error)
  deriving DecidableEq, Repr

def decimal (n : Nat) : Text := (Nat.repr n).toList

def messageTag : Text := "[NESTCFG] ".toList

namespace ParseError

def line : ParseError → Nat
  | strayClose line | nameExpected line | duplicateKey _ line | duplicateVariable _ line _
  | variableHoldsGroup _ line | unfinished line | unmatchedQuote _ line
  | unrecognizedToken _ line | unknownVariable _ _ line => line

def code : ParseError → Nat
  | unmatchedQuote .. => 101
  | unrecognizedToken .. => 102
  | strayClose .. => 201
  | nameExpected .. => 202
  | duplicateKey .. => 203
  | duplicateVariable .. => 204
  | variableHoldsGroup .. => 205
  | unfinished .. => 206
  | unknownVariable .. => 207

def onLine (line : Nat) : Text := " on line ".toList ++ decimal line

def description : ParseError → Text
  | strayClose line => "Unexpected end of group".toList ++ onLine line
  | nameExpected line => "Key or variable name expected".toList ++ onLine line
  | duplicateKey path line => "Duplicate config key '".toList ++ path ++ "'".toList ++ onLine line
  | duplicateVariable path line firstLine =>
    "Duplicate variable '$".toList ++ path ++ "'".toList ++ onLine line ++
      " (first declared".toList ++ onLine firstLine ++ ")".toList
  | variableHoldsGroup path line =>
    "Variable '$".toList ++ path ++ "'".toList ++ onLine line ++ " cannot hold a group".toList
  | unfinished line => "Unexpected end of file".toList ++ onLine line
  | unmatchedQuote quote line => "Unmatched ".toList ++ quote :: " quote".toList ++ onLine line
  | unrecognizedToken token line =>
    "Unrecognized token '".toList ++ token ++ "'".toList ++ onLine line
  | unknownVariable name path line =>
    "Unknown variable '$".toList ++ name ++ "' in '".toList ++ path ++ "'".toList ++ onLine line

def message (error : ParseError) : Text := messageTag ++ error.description

def hint : ParseError → Text
  | strayClose .. => "Remove the extra '\x7d' or open a group before it".toList
  | nameExpected .. => "Entries start with a name made of letters, digits and '_'".toList
  | duplicateKey .. => "Each key may appear only once per group".toList
  | duplicateVariable .. =>
    "Declare a variable once per group, or redeclare it in a nested group".toList
  | variableHoldsGroup .. => "Variables hold scalar values only".toList
  | unfinished .. => "Close every '\x7b' with '\x7d' and do not end a file on '\\'".toList
  | unmatchedQuote .. => "Quoted strings must close on the same line".toList
  | unrecognizedToken .. => "A '$' must be followed by a variable name".toList
  | unknownVariable .. =>
    "Declare the variable in this group or an enclosing one before using it".toList

end ParseError

namespace Error

def root : Error → Error
  | inFile _ cause => cause.root
  | error => error

def code : Error → Nat
  | parse error => error.code
  | missingFile _ => 301
  | unreadableFile .. => 302
  | inFile _ cause => cause.code

def line? : Error → Option Nat
  | parse error => some error.line
  | missingFile _ => none
  | unreadableFile .. => none
  | inFile _ cause => cause.line?

def wrapping (path : Text) : Text :=
  messageTag ++ "Error in config file '".toList ++ path ++ "': ".toList

def message : Error → Text
  | parse error => error.message
  | missingFile path =>
    messageTag ++ "Config file '".toList ++ path ++ "' does not exist".toList
  | unreadableFile path reason =>
    messageTag ++ "File Error '".toList ++ path ++ "': ".toList ++ reason
  | inFile path cause => wrapping path ++ cause.message

/-- The hint that an error has by itself. A wrapper has none. -/
def ownHint : Error → Text
  | parse error => error.hint
  | missingFile _ => "Check that the file exists".toList
  | unreadableFile .. => "Check that the file is readable UTF-8 text".toList
  | inFile .. => []

def hint (error : Error) : Text := error.root.ownHint

def cause? : Error → Option Error
  | inFile _ cause => some cause
  | _ => none

end Error

end ScopedConfig
