import ScopedConfig.Text.Space

/-!
The arguments of the command: one path, the options `-f`/`--format` and `-g`/`--get` with a value
each, and `-h`/`--help` and `-V`/`--version`. Arguments are taken from left to right, and the first
one that cannot be taken, or that asks for help or the version, ends the reading.
-/

namespace ScopedConfig

inductive Format where
  | text
  | json
  deriving DecidableEq, Repr

def Format.ofText? (name : Text) : Option Format :=
  if name = "text".toList then some .text
  else if name = "json".toList then some .json
  else none

def Format.name : Format → Text
  | .text => "text".toList
  | .json => "json".toList

structure Request where
  path : Text
  format : Format
  /-- The path of the entry to show; without one, all entries are shown. -/
  entry : Option Text
  deriving DecidableEq, Repr

inductive Halt where
  | usage
  | help
  | version
  deriving DecidableEq, Repr

inductive Setting where
  | format
  | entry
  deriving DecidableEq, Repr

inductive Flag where
  | setting (setting : Setting)
  | halt (halt : Halt)
  deriving DecidableEq, Repr

def Flag.ofLong? (name : Text) : Option Flag :=
  if name = "format".toList then some (.setting .format)
  else if name = "get".toList then some (.setting .entry)
  else if name = "help".toList then some (.halt .help)
  else if name = "version".toList then some (.halt .version)
  else none

def Flag.ofShort? : Char → Option Flag
  | 'f' => some (.setting .format)
  | 'g' => some (.setting .entry)
  | 'h' => some (.halt .help)
  | 'V' => some (.halt .version)
  | _ => none

structure Draft where
  path : Option Text
  format : Option Format
  entry : Option Text
  /-- The option whose value is the next argument. -/
  awaiting : Option Setting
  /-- Whether all arguments from here on are paths. -/
  pathsOnly : Bool
  deriving DecidableEq, Repr

namespace Draft

def empty : Draft := ⟨none, none, none, none, false⟩

def set (draft : Draft) (setting : Setting) (value : Text) : Except Halt Draft :=
  match setting with
  | .format =>
    match draft.format, Format.ofText? value with
    | none, some format => .ok { draft with format := some format, awaiting := none }
    | _, _ => .error .usage
  | .entry =>
    match draft.entry with
    | none => .ok { draft with entry := some value, awaiting := none }
    | some _ => .error .usage

def setPath (draft : Draft) (path : Text) : Except Halt Draft :=
  match draft.path with
  | none => if path.isEmpty then .error .usage else .ok { draft with path := some path }
  | some _ => .error .usage

def takeLong (draft : Draft) (option : Text) : Except Halt Draft :=
  match Flag.ofLong? (option.takeWhile (· != '=')), option.dropWhile (· != '=') with
  | some (.setting setting), [] => .ok { draft with awaiting := some setting }
  | some (.setting setting), _ :: value => draft.set setting value
  | some (.halt halt), [] => .error halt
  | _, _ => .error .usage

def takeShort (draft : Draft) (letter : Char) (after : Text) : Except Halt Draft :=
  match Flag.ofShort? letter, after with
  | some (.setting setting), [] => .ok { draft with awaiting := some setting }
  | some (.setting setting), '=' :: value => draft.set setting value
  | some (.setting setting), value => draft.set setting value
  | some (.halt halt), _ => .error halt
  | none, _ => .error .usage

/-- Takes the next argument. A lone dash is a path or a value; two dashes make paths of all that
follows them. -/
def take (draft : Draft) (argument : Text) : Except Halt Draft :=
  if draft.pathsOnly then draft.setPath argument
  else
    match draft.awaiting, argument with
    | some setting, ['-'] => draft.set setting argument
    | some _, '-' :: _ => .error .usage
    | some setting, _ => draft.set setting argument
    | none, ['-'] => draft.setPath argument
    | none, ['-', '-'] => .ok { draft with pathsOnly := true }
    | none, '-' :: '-' :: option => draft.takeLong option
    | none, '-' :: letter :: after => draft.takeShort letter after
    | none, _ => draft.setPath argument

def finish (draft : Draft) : Except Halt Request :=
  match draft.awaiting, draft.path with
  | none, some path => .ok ⟨path, draft.format.getD .text, draft.entry⟩
  | _, _ => .error .usage

end Draft

def Request.ofArguments (arguments : List Text) : Except Halt Request :=
  arguments.foldlM Draft.take Draft.empty >>= Draft.finish

def IsOperand (argument : Text) : Prop := argument ≠ [] ∧ argument.head? ≠ some '-'

instance : DecidablePred IsOperand := fun _ => inferInstanceAs (Decidable (_ ∧ _))

def commandLine (path : Text) (format : Option Format) (entry : Option Text) : List Text :=
  path :: format.elim [] (fun format => ["--format".toList, format.name]) ++
    entry.elim [] (fun entry => ["--get".toList, entry])

end ScopedConfig
