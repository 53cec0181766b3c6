import ScopedConfig.Group.Json.Grammar

namespace ScopedConfig

/-- The character with a code point. A surrogate is no character. -/
def charOfCode? (code : Nat) : Option Char :=
  if (Char.ofNat code).toNat = code then some (Char.ofNat code) else none

def readCodeUnit? (text : Text) : Option (Nat × Text) :=
  (codeUnit? (text.take 4)).map (·, text.drop 4)

def readSecondUnit? (first : Nat) : Text → Option (Char × Text)
  | '\\' :: 'u' :: text =>
    (readCodeUnit? text).bind fun (second, rest) =>
      if 0xDC00 ≤ second ∧ second < 0xE000 then
        (charOfCode? (0x10000 + 0x400 * (first - 0xD800) + (second - 0xDC00))).map (·, rest)
      else none
  | _ => none

def readCode? (text : Text) : Option (Char × Text) :=
  (readCodeUnit? text).bind fun (code, rest) =>
    if 0xD800 ≤ code ∧ code < 0xDC00 then readSecondUnit? code rest
    else (charOfCode? code).map (·, rest)

def readEscape? : Text → Option (Char × Text)
  | [] => none
  | letter :: rest =>
    if letter = 'u' then readCode? rest else (escaped? letter).map (·, rest)

def readJsonChar? : Text → Option (Char × Text)
  | [] => none
  | c :: rest =>
    if c = '\\' then readEscape? rest
    else if 0x20 ≤ c.toNat ∧ c ≠ '\x22' then some (c, rest)
    else none

section Characters

variable {text rest : Text} {c : Char}

theorem charOfCode?_eq_some_iff (code : Nat) : charOfCode? code = some c ↔ c.toNat = code := by
  unfold charOfCode?
  constructor
  · intro found
    split at found
    · next same =>
      cases found
      exact same
    · contradiction
  · rintro rfl
    simp [Char.ofNat_toNat]

theorem written_of_readCodeUnit? {code : Nat} (read : readCodeUnit? text = some (code, rest)) :
    ∃ digits, text = digits ++ rest ∧ codeUnit? digits = some code := by
  obtain ⟨_, unit, same⟩ := Option.map_eq_some_iff.mp read
  cases same
  exact ⟨text.take 4, (List.take_append_drop 4 text).symm, unit⟩

theorem written_of_readSecondUnit? {high : Nat}
    (read : readSecondUnit? (0xD800 + high) text = some (c, rest)) :
    ∃ digits low, text = '\\' :: 'u' :: (digits ++ rest) ∧ low < 0x400 ∧
      codeUnit? digits = some (0xDC00 + low) ∧ c.toNat = 0x10000 + 0x400 * high + low := by
  unfold readSecondUnit? at read
  split at read
  · next more =>
    obtain ⟨⟨second, behind⟩, unit, found⟩ := Option.bind_eq_some_iff.mp read
    dsimp only at found
    split at found
    · next surrogate =>
      obtain ⟨_, char, same⟩ := Option.map_eq_some_iff.mp found
      cases same
      obtain ⟨low, rfl⟩ := Nat.exists_eq_add_of_le surrogate.1
      obtain ⟨digits, rfl, code⟩ := written_of_readCodeUnit? unit
      have whole := (charOfCode?_eq_some_iff _).mp char
      exact ⟨digits, low, rfl, by omega, code, by omega⟩
    · contradiction
  · contradiction

theorem written_of_readCode? (read : readCode? text = some (c, rest)) :
    ∃ written, text = written ++ rest ∧ IsJsonChar c ('\\' :: 'u' :: written) := by
  obtain ⟨⟨code, behind⟩, unit, found⟩ := Option.bind_eq_some_iff.mp read
  obtain ⟨digits, rfl, first⟩ := written_of_readCodeUnit? unit
  dsimp only at found
  split at found
  · next surrogate =>
    obtain ⟨high, rfl⟩ := Nat.exists_eq_add_of_le surrogate.1
    obtain ⟨digits', low, rfl, bound, second, whole⟩ := written_of_readSecondUnit? found
    refine ⟨digits ++ '\\' :: 'u' :: digits', by simp, ?_⟩
    exact .pair (by omega) bound first second whole
  · obtain ⟨_, char, same⟩ := Option.map_eq_some_iff.mp found
    cases same
    rw [charOfCode?_eq_some_iff] at char
    exact ⟨digits, rfl, .unit (char ▸ first)⟩

theorem written_of_readEscape? (read : readEscape? text = some (c, rest)) :
    ∃ written, text = written ++ rest ∧ IsJsonChar c ('\\' :: written) := by
  cases text with
  | nil => contradiction
  | cons letter behind =>
    rw [readEscape?] at read
    split at read
    · next isCode =>
      subst isCode
      obtain ⟨written, rfl, form⟩ := written_of_readCode? read
      exact ⟨'u' :: written, rfl, form⟩
    · obtain ⟨_, meant, same⟩ := Option.map_eq_some_iff.mp read
      cases same
      exact ⟨[letter], rfl, .short meant⟩

theorem written_of_readJsonChar? (read : readJsonChar? text = some (c, rest)) :
    ∃ written, text = written ++ rest ∧ IsJsonChar c written := by
  cases text with
  | nil => contradiction
  | cons first behind =>
    rw [readJsonChar?] at read
    split at read
    · next backslash =>
      subst backslash
      obtain ⟨written, rfl, form⟩ := written_of_readEscape? read
      exact ⟨'\\' :: written, rfl, form⟩
    · next notBackslash =>
      split at read
      · next plain =>
        cases read
        exact ⟨[c], rfl, .plain plain.1 plain.2 notBackslash⟩
      · contradiction

theorem IsJsonChar.head {written : Text} (form : IsJsonChar c written) :
    ∃ first more, written = first :: more ∧ first ≠ '\x22' := by
  cases form with
  | plain printed notQuote notBackslash => exact ⟨c, [], rfl, notQuote⟩
  | short meant => exact ⟨'\\', _, rfl, by decide⟩
  | unit code => exact ⟨'\\', _, rfl, by decide⟩
  | pair highBound lowBound code codeToo whole => exact ⟨'\\', _, rfl, by decide⟩

theorem length_readJsonChar? (read : readJsonChar? text = some (c, rest)) :
    rest.length < text.length := by
  obtain ⟨written, rfl, form⟩ := written_of_readJsonChar? read
  obtain ⟨first, more, rfl, -⟩ := form.head
  rw [List.cons_append, List.length_cons, List.length_append]
  omega

end Characters

def readJsonChars? : Text → Option (Text × Text)
  | [] => none
  | c :: rest =>
    if c = '\x22' then some ([], rest)
    else
      match _ : readJsonChar? (c :: rest) with
      | none => none
      | some (first, left) =>
        (readJsonChars? left).map fun (later, left) => (first :: later, left)
termination_by text => text.length
decreasing_by exact length_readJsonChar? ‹_›

def readJsonString? : Text → Option (Text × Text)
  | '\x22' :: rest => readJsonChars? rest
  | _ => none

def skipJsonBlanks (text : Text) : Text := text.dropWhile isJsonBlank

def readJsonMark? (mark : Char) (text : Text) : Option Text :=
  match skipJsonBlanks text with
  | [] => none
  | c :: rest => if c = mark then some (skipJsonBlanks rest) else none

def readJsonLead? (later : Bool) (text : Text) : Option Text :=
  if later then readJsonMark? ',' text else some (skipJsonBlanks text)

def readJsonValue? (key : Text) : Text → Option (JsonPart × Text)
  | '\x7b' :: rest => some (.opening key, rest)
  | text => (readJsonString? text).map fun (value, rest) => (.scalar key value, rest)

def readJsonMember? (later : Bool) (text : Text) : Option (JsonPart × Text) := do
  let text ← readJsonLead? later text
  let (key, text) ← readJsonString? text
  let text ← readJsonMark? ':' text
  readJsonValue? key text

def readJsonPart? (later : Bool) (text : Text) : Option (JsonPart × Text) :=
  match skipJsonBlanks text with
  | '\x7d' :: rest => some (.close, rest)
  | _ => readJsonMember? later text

section Parts

variable {text rest key : Text} {part : JsonPart} {later : Bool}

theorem written_of_readJsonChars? {chars : Text} (read : readJsonChars? text = some (chars, rest)) :
    ∃ written, text = written ++ '\x22' :: rest ∧ IsJsonChars chars written := by
  fun_induction readJsonChars? text generalizing chars with
  | case1 => contradiction
  | case2 behind =>
    cases read
    exact ⟨[], rfl, .nil⟩
  | case3 => contradiction
  | case4 c behind notQuote first left found ih =>
    obtain ⟨⟨others, _⟩, inner, same⟩ := Option.map_eq_some_iff.mp read
    cases same
    obtain ⟨written, shape, form⟩ := written_of_readJsonChar? found
    obtain ⟨more, rfl, later⟩ := ih inner
    exact ⟨written ++ more, by rw [shape, List.append_assoc], .cons form later⟩

theorem written_of_readJsonString? {string : Text}
    (read : readJsonString? text = some (string, rest)) :
    ∃ written, text = written ++ rest ∧ IsJsonString string written := by
  unfold readJsonString? at read
  split at read
  · obtain ⟨inner, rfl, form⟩ := written_of_readJsonChars? read
    exact ⟨'\x22' :: (inner ++ ['\x22']), by simp, inner, rfl, form⟩
  · contradiction

theorem skipJsonBlanks_split (text : Text) :
    ∃ blanks, text = blanks ++ skipJsonBlanks text ∧ JsonBlank blanks :=
  ⟨text.takeWhile isJsonBlank, List.takeWhile_append_dropWhile.symm,
    List.all_eq_true.mp List.all_takeWhile⟩

theorem written_of_readJsonMark? {mark : Char} (read : readJsonMark? mark text = some rest) :
    ∃ written, text = written ++ rest ∧ JsonMark mark written := by
  obtain ⟨before, split, blank⟩ := skipJsonBlanks_split text
  unfold readJsonMark? at read
  split at read
  · contradiction
  · next c behind shape =>
    split at read
    · next same =>
      cases read
      subst same
      obtain ⟨after, splitToo, blankToo⟩ := skipJsonBlanks_split behind
      refine ⟨before ++ c :: after, ?_, before, after, rfl, blank, blankToo⟩
      rw [List.append_assoc, List.cons_append, ← splitToo, ← shape, ← split]
    · contradiction

theorem written_of_readJsonLead? (read : readJsonLead? later text = some rest) :
    ∃ written, text = written ++ rest ∧ JsonLead later written := by
  cases later with
  | true => exact written_of_readJsonMark? read
  | false =>
    cases read
    exact skipJsonBlanks_split text

theorem written_of_readJsonMember? (read : readJsonMember? later text = some (part, rest)) :
    ∃ written, text = written ++ rest ∧ part.Written later written := by
  obtain ⟨_, first, member⟩ := Option.bind_eq_some_iff.mp read
  obtain ⟨⟨key, _⟩, second, entry⟩ := Option.bind_eq_some_iff.mp member
  obtain ⟨_, third, fourth⟩ := Option.bind_eq_some_iff.mp entry
  obtain ⟨lead, split, leads⟩ := written_of_readJsonLead? first
  obtain ⟨name, splitKey, named⟩ := written_of_readJsonString? second
  obtain ⟨colon, splitColon, parts⟩ := written_of_readJsonMark? third
  subst split splitKey splitColon
  unfold readJsonValue? at fourth
  split at fourth
  · cases fourth
    exact ⟨lead ++ (name ++ (colon ++ ['\x7b'])), by simp, .opening leads named parts⟩
  · obtain ⟨⟨value, _⟩, last, same⟩ := Option.map_eq_some_iff.mp fourth
    cases same
    obtain ⟨written, rfl, valued⟩ := written_of_readJsonString? last
    exact ⟨lead ++ (name ++ (colon ++ written)), by simp, .scalar leads named parts valued⟩

theorem written_of_readJsonPart? (read : readJsonPart? later text = some (part, rest)) :
    ∃ written, text = written ++ rest ∧ part.Written later written := by
  obtain ⟨blanks, split, blank⟩ := skipJsonBlanks_split text
  unfold readJsonPart? at read
  split at read
  · next shape =>
    cases read
    refine ⟨blanks ++ ['\x7d'], ?_, .close blank⟩
    rw [List.append_assoc, List.singleton_append, ← shape, ← split]
  · exact written_of_readJsonMember? read

theorem JsonPart.Written.nonempty {written : Text} (form : JsonPart.Written later part written) :
    written ≠ [] := by
  cases form with
  | close blank => simp
  | scalar leads named parts valued =>
    obtain ⟨inner, rfl, -⟩ := named
    simp
  | opening leads named parts => simp

theorem length_readJsonPart? (read : readJsonPart? later text = some (part, rest)) :
    rest.length < text.length := by
  obtain ⟨written, rfl, form⟩ := written_of_readJsonPart? read
  have visible := List.length_pos_iff.mpr form.nonempty
  rw [List.length_append]
  omega

end Parts

end ScopedConfig
