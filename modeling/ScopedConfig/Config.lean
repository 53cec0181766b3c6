import ScopedConfig.Config.Home
import ScopedConfig.Document
import ScopedConfig.File
import ScopedConfig.Group.Comparison
import ScopedConfig.Group.Render

/-!
Configurations: the entries of a text and the file that they come from, if they come from one. A
second file can stand in for a first one that does not exist, but never for one that is faulty.
-/

namespace ScopedConfig

structure Config where
  entries : Group
  origin : Option Text
  deriving DecidableEq, Repr

namespace Config

def empty : Config := ⟨.empty, none⟩

def ofText (text : Text) : Except Error Config :=
  match parse text with
  | .ok entries => .ok ⟨entries, none⟩
  | .error error => .error (.parse error)

def sameAs (left right : Config) : Bool :=
  left.entries.sameAs right.entries && left.origin == right.origin

def readFailure (reason : Text) : Text := "Failed to read file: ".toList ++ reason

def isDirectoryReason : Text := "Is a directory (os error 21)".toList

def notUtf8Reason : Text := "stream did not contain valid UTF-8".toList

def readText (files : Files) (path : Text) : Except Error Text :=
  match files path with
  | none => .error (.missingFile path)
  | some .directory => .error (.unreadableFile path (readFailure isDirectoryReason))
  | some (.file bytes) =>
    match decodeText? bytes with
    | none => .error (.unreadableFile path (readFailure notUtf8Reason))
    | some text => .ok text

def loadFile (files : Files) (place : Text) : Except Error Config :=
  match readText files place with
  | .error error => .error error
  | .ok text =>
    match parse text with
    | .error error => .error (.inFile place (.parse error))
    | .ok entries => .ok ⟨entries, some place⟩

/-- Loads the file at a path, with `~` standing for the home directory. -/
def load (home : Option Text) (files : Files) (path : Text) : Except Error Config :=
  expandHome home path >>= loadFile files

def bothPaths (primary fallback : Text) : Text :=
  primary ++ " (fallback: ".toList ++ fallback ++ ")".toList

def loadWithFallback (home : Option Text) (files : Files) (primary fallback : Text) :
    Except Error Config :=
  match load home files primary with
  | .error (.missingFile _) =>
    match load home files fallback with
    | .error (.missingFile _) => .error (.missingFile (bothPaths primary fallback))
    | result => result
  | result => result

end Config

end ScopedConfig
