import ScopedConfig.Group

namespace ScopedConfig

structure JsonLayout where
  /-- Before a member at the given depth, and before the brace that closes an object there. -/
  lineBreak : Nat → Text
  colon : Text

def JsonLayout.pretty : JsonLayout :=
  ⟨fun depth => '\n' :: List.replicate (2 * depth) ' ', [':', ' ']⟩

def JsonLayout.compact : JsonLayout := ⟨fun _ => [], [':']⟩

def hexEscape (n : Nat) : Text := ['0', '0', Nat.digitChar (n / 16), Nat.digitChar (n % 16)]

/-- A character inside a JSON string. Only quotes, backslashes and control characters below the
space are escaped. -/
def jsonChar (c : Char) : Text :=
  if c = '\x22' then ['\\', '\x22']
  else if c = '\\' then ['\\', '\\']
  else if c = '\x08' then ['\\', 'b']
  else if c = '\x0c' then ['\\', 'f']
  else if c = '\n' then ['\\', 'n']
  else if c = '\r' then ['\\', 'r']
  else if c = '\t' then ['\\', 't']
  else if c.toNat < 0x20 then '\\' :: 'u' :: hexEscape c.toNat
  else [c]

def jsonString (text : Text) : Text := '\x22' :: text.flatMap jsonChar ++ ['\x22']

namespace Group

def jsonBraces (layout : JsonLayout) (depth : Nat) (group : Group) (members : Text) : Text :=
  if group.isEmpty then ['{', '}'] else '{' :: members ++ layout.lineBreak depth ++ ['}']

def jsonComma (rest : Group) : Text := if rest.isEmpty then [] else [',']

def jsonMembers (layout : JsonLayout) : Nat → Group → Text
  | _, empty => []
  | depth, scalar key value rest =>
    layout.lineBreak depth ++ jsonString key ++ layout.colon ++ jsonString value ++
      rest.jsonComma ++ rest.jsonMembers layout depth
  | depth, nested key body rest =>
    layout.lineBreak depth ++ jsonString key ++ layout.colon ++
      body.jsonBraces layout depth (body.jsonMembers layout (depth + 1)) ++
      rest.jsonComma ++ rest.jsonMembers layout depth

def json (layout : JsonLayout) (group : Group) : Text :=
  group.jsonBraces layout 0 (group.jsonMembers layout 1)

end Group

end ScopedConfig
