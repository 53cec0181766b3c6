import ScopedConfig.CommandLine.Arguments
import ScopedConfig.Config
import ScopedConfig.Group.Json
import ScopedConfig.Group.Path

/-!
The command: it loads a file and prints its entries, or one of them, as text or as JSON. The status
is 0 for an answer, 1 for a failure to load or to find, and 2 for arguments that make no request.
-/

namespace ScopedConfig

structure Outcome where
  status : Nat
  stdout : Text
  stderr : Text
  deriving DecidableEq, Repr

def Error.report (error : Error) : Text :=
  "Error: ".toList ++ error.message ++ ['\n'] ++
    match error.cause? with
    | none => []
    | some cause => "\nCaused by:\n    ".toList ++ cause.message ++ ['\n']

def missingEntryReport (entry path : Text) : Text :=
  "Error: No entry at '".toList ++ entry ++ "' in ".toList ++ path ++ ['\n']

def Entry.print : Format → Entry → Text
  | .text, .scalar value => value ++ ['\n']
  | .json, .scalar value => jsonString value ++ ['\n']
  | .text, .group entries => entries.render
  | .json, .group entries => entries.json .pretty ++ ['\n']

def Request.select? (request : Request) (entries : Group) : Option Entry :=
  match request.entry with
  | none => some (.group entries)
  | some path => entries.find? path

def Request.run (home : Option Text) (files : Files) (request : Request) : Outcome :=
  match Config.load home files request.path with
  | .error error => ⟨1, [], error.report⟩
  | .ok config =>
    match request.select? config.entries with
    | none => ⟨1, [], missingEntryReport (request.entry.getD []) request.path⟩
    | some entry => ⟨0, entry.print request.format, []⟩

/-- What is printed for arguments that make no request. The words are the argument parser's own. -/
abbrev Notice := List Text → Halt → Text

def Halt.outcome (notice : Text) : Halt → Outcome
  | usage => ⟨2, [], notice⟩
  | help => ⟨0, notice, []⟩
  | version => ⟨0, notice, []⟩

def runCommand (notice : Notice) (home : Option Text) (files : Files) (arguments : List Text) :
    Outcome :=
  match Request.ofArguments arguments with
  | .error halt => halt.outcome (notice arguments halt)
  | .ok request => request.run home files

end ScopedConfig
