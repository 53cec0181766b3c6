import ScopedConfig.Group

/-!
The part of JSON that groups need: objects, and strings in them. An object stands for a group with one
entry for each member, in the order of the members; a string stands for a scalar. Blanks may stand
between any two parts of an object, and a character of a string is written as itself or as an escape.
-/

namespace ScopedConfig

def isJsonBlank (c : Char) : Bool := c = ' ' || c = '\t' || c = '\n' || c = '\r'

def JsonBlank (text : Text) : Prop := ∀ c ∈ text, isJsonBlank c = true

def JsonMark (mark : Char) (text : Text) : Prop :=
  ∃ before after, text = before ++ mark :: after ∧ JsonBlank before ∧ JsonBlank after

def JsonLead (later : Bool) (text : Text) : Prop :=
  if later then JsonMark ',' text else JsonBlank text

/-- What the letter after a backslash stands for, but for the `u` of a code unit. -/
def escaped? : Char → Option Char
  | '\x22' => some '\x22'
  | '\\' => some '\\'
  | '/' => some '/'
  | 'b' => some '\x08'
  | 'f' => some '\x0c'
  | 'n' => some '\n'
  | 'r' => some '\r'
  | 't' => some '\t'
  | _ => none

def hexDigit? (c : Char) : Option Nat :=
  if '0' ≤ c ∧ c ≤ '9' then some (c.toNat - '0'.toNat)
  else if 'a' ≤ c ∧ c ≤ 'f' then some (10 + c.toNat - 'a'.toNat)
  else if 'A' ≤ c ∧ c ≤ 'F' then some (10 + c.toNat - 'A'.toNat)
  else none

def codeUnit? (digits : Text) : Option Nat :=
  if digits.length = 4 then
    digits.foldlM (fun code digit => (hexDigit? digit).map (16 * code + ·)) 0
  else none

/-- The ways to write a character of a string. Quotes, backslashes and control characters need an
escape; a character beyond the first 65536 code points is escaped as two code units. -/
inductive IsJsonChar : Char → Text → Prop where
  | plain {c : Char} (printed : 0x20 ≤ c.toNat) (notQuote : c ≠ '\x22') (notBackslash : c ≠ '\\') :
    IsJsonChar c [c]
  | short {c letter : Char} (meant : escaped? letter = some c) : IsJsonChar c ['\\', letter]
  | unit {c : Char} {digits : Text} (code : codeUnit? digits = some c.toNat) :
    IsJsonChar c ('\\' :: 'u' :: digits)
  | pair {c : Char} {first second : Text} {high low : Nat} (highBound : high < 0x400)
    (lowBound : low < 0x400) (code : codeUnit? first = some (0xD800 + high))
    (codeToo : codeUnit? second = some (0xDC00 + low))
    (whole : c.toNat = 0x10000 + 0x400 * high + low) :
    IsJsonChar c ('\\' :: 'u' :: (first ++ '\\' :: 'u' :: second))

inductive IsJsonChars : Text → Text → Prop where
  | nil : IsJsonChars [] []
  | cons {c : Char} {text written rest : Text} (first : IsJsonChar c written)
    (later : IsJsonChars text rest) : IsJsonChars (c :: text) (written ++ rest)

def IsJsonString (text written : Text) : Prop :=
  ∃ inner, written = '\x22' :: (inner ++ ['\x22']) ∧ IsJsonChars text inner

inductive JsonPart where
  | close
  | scalar (key value : Text)
  | opening (key : Text)
  deriving DecidableEq, Repr

inductive JsonPart.Written : Bool → JsonPart → Text → Prop where
  | close {later : Bool} {blanks : Text} (blank : JsonBlank blanks) :
    Written later .close (blanks ++ ['\x7d'])
  | scalar {later : Bool} {lead name colon text key value : Text} (leads : JsonLead later lead)
    (named : IsJsonString key name) (parts : JsonMark ':' colon)
    (valued : IsJsonString value text) :
    Written later (.scalar key value) (lead ++ (name ++ (colon ++ text)))
  | opening {later : Bool} {lead name colon key : Text} (leads : JsonLead later lead)
    (named : IsJsonString key name) (parts : JsonMark ':' colon) :
    Written later (.opening key) (lead ++ (name ++ (colon ++ ['\x7b'])))

/-- What is left of an object, from one of its members on or from its closing brace. -/
inductive IsJsonMembers : Bool → Group → Text → Prop where
  | close {later : Bool} {text : Text} (last : JsonPart.Written later .close text) :
    IsJsonMembers later .empty text
  | scalar {later : Bool} {key value text restText : Text} {rest : Group}
    (first : JsonPart.Written later (.scalar key value) text)
    (others : IsJsonMembers true rest restText) :
    IsJsonMembers later (.scalar key value rest) (text ++ restText)
  | nested {later : Bool} {key text bodyText restText : Text} {body rest : Group}
    (first : JsonPart.Written later (.opening key) text)
    (inside : IsJsonMembers false body bodyText) (others : IsJsonMembers true rest restText) :
    IsJsonMembers later (.nested key body rest) (text ++ (bodyText ++ restText))

def IsJson (group : Group) (text : Text) : Prop :=
  ∃ before members after, text = before ++ '\x7b' :: (members ++ after) ∧
    JsonBlank before ∧ IsJsonMembers false group members ∧ JsonBlank after

end ScopedConfig
