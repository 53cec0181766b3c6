import ScopedConfig.Text.Name

/-!
The statements of the language, as far as one trimmed content line shows them: a closing brace, the
opening of a group, or a name with the first part of its value. A name after `$` is a variable.
-/

namespace ScopedConfig

inductive Target where
  | key
  | binding
  deriving DecidableEq, Repr

inductive Statement where
  | close
  | opening (target : Target) (name : Text)
  | value (target : Target) (name rest : Text)
  deriving DecidableEq, Repr

/-- Drops the blanks before a value and one `=` or `:` among them. -/
def dropSeparator (rest : Text) : Text :=
  match trimStart rest with
  | '=' :: value => trimStart value
  | ':' :: value => trimStart value
  | value => value

namespace Statement

def ofNamed? (target : Target) (text : Text) : Option Statement :=
  match splitName? text with
  | none => none
  | some (name, rest) =>
    if dropSeparator rest = ['{'] then some (opening target name)
    else some (value target name (dropSeparator rest))

def ofText? : Text → Option Statement
  | ['}'] => some close
  | '$' :: text => ofNamed? .binding text
  | text => ofNamed? .key text

end Statement

end ScopedConfig
