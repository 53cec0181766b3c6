import ScopedConfig.Group.Json.Reader
import ScopedConfig.Proofs.Text

namespace ScopedConfig

section Characters

variable {text rest : Text} {c : Char}

theorem codeUnit?_length {digits : Text} {code : Nat} (unit : codeUnit? digits = some code) :
    digits.length = 4 := by
  unfold codeUnit? at unit
  split at unit
  · assumption
  · contradiction

theorem readCodeUnit?_written {digits : Text} {code : Nat} (unit : codeUnit? digits = some code)
    (rest : Text) : readCodeUnit? (digits ++ rest) = some (code, rest) := by
  have four := codeUnit?_length unit
  rw [readCodeUnit?, List.take_left' four, List.drop_left' four, unit]
  rfl

theorem not_surrogate (c : Char) : ¬ (0xD800 ≤ c.toNat ∧ c.toNat < 0xE000) := by
  have valid : c.toNat < 0xD800 ∨ (0xDFFF < c.toNat ∧ c.toNat < 0x110000) := c.valid
  omega

theorem readCode?_unit {digits : Text} (code : codeUnit? digits = some c.toNat) (rest : Text) :
    readCode? (digits ++ rest) = some (c, rest) := by
  have proper : ¬ (0xD800 ≤ c.toNat ∧ c.toNat < 0xDC00) := by
    have other := not_surrogate c
    omega
  have char := (charOfCode?_eq_some_iff c.toNat).mpr rfl
  simp only [readCode?, readCodeUnit?_written code, Option.bind_some, if_neg proper, char,
    Option.map_some]

theorem readCode?_pair {first second : Text} {high low : Nat} (highBound : high < 0x400)
    (lowBound : low < 0x400) (code : codeUnit? first = some (0xD800 + high))
    (codeToo : codeUnit? second = some (0xDC00 + low))
    (whole : c.toNat = 0x10000 + 0x400 * high + low) (rest : Text) :
    readCode? (first ++ '\\' :: 'u' :: (second ++ rest)) = some (c, rest) := by
  have leads : 0xD800 ≤ 0xD800 + high ∧ 0xD800 + high < 0xDC00 := by omega
  have follows : 0xDC00 ≤ 0xDC00 + low ∧ 0xDC00 + low < 0xE000 := by omega
  have char : charOfCode? (0x10000 + 0x400 * (0xD800 + high - 0xD800) + (0xDC00 + low - 0xDC00)) =
      some c := by
    rw [charOfCode?_eq_some_iff]
    omega
  simp only [readCode?, readCodeUnit?_written code, readSecondUnit?,
    readCodeUnit?_written codeToo, Option.bind_some, if_pos leads, if_pos follows, char,
    Option.map_some]

theorem readJsonChar?_written {written : Text} (form : IsJsonChar c written) (rest : Text) :
    readJsonChar? (written ++ rest) = some (c, rest) := by
  cases form with
  | plain printed notQuote notBackslash =>
    rw [List.singleton_append, readJsonChar?, if_neg notBackslash, if_pos ⟨printed, notQuote⟩]
  | @short letter meant =>
    have other : letter ≠ 'u' := by
      rintro rfl
      contradiction
    rw [List.cons_append, List.singleton_append, readJsonChar?, if_pos rfl, readEscape?,
      if_neg other, meant]
    rfl
  | unit code =>
    rw [List.cons_append, List.cons_append, readJsonChar?, if_pos rfl, readEscape?, if_pos rfl,
      readCode?_unit code]
  | pair highBound lowBound code codeToo whole =>
    rw [List.cons_append, List.cons_append, readJsonChar?, if_pos rfl, readEscape?, if_pos rfl,
      List.append_assoc, List.cons_append, List.cons_append,
      readCode?_pair highBound lowBound code codeToo whole]

theorem readJsonChars?_char {written : Text} (form : IsJsonChar c written) (more : Text) :
    readJsonChars? (written ++ more) =
      (readJsonChars? more).map fun (later, left) => (c :: later, left) := by
  have read := readJsonChar?_written form more
  obtain ⟨first, others, rfl, notQuote⟩ := form.head
  rw [List.cons_append] at read ⊢
  rw [readJsonChars?, if_neg notQuote]
  split
  · next failed =>
    rw [read] at failed
    contradiction
  · next found =>
    cases read.symm.trans found
    rfl

theorem readJsonChars?_written {chars written : Text} (form : IsJsonChars chars written)
    (rest : Text) : readJsonChars? (written ++ '\x22' :: rest) = some (chars, rest) := by
  induction form with
  | nil => rw [List.nil_append, readJsonChars?, if_pos rfl]
  | cons first later ih =>
    rw [List.append_assoc, readJsonChars?_char first, ih]
    rfl

theorem readJsonString?_written {string written : Text} (form : IsJsonString string written)
    (rest : Text) : readJsonString? (written ++ rest) = some (string, rest) := by
  obtain ⟨inner, rfl, chars⟩ := form
  have read := readJsonChars?_written chars rest
  rwa [List.cons_append, List.append_assoc, List.singleton_append]

end Characters

section Parts

variable {later : Bool} {part : JsonPart}

def BeginsVisibly (text : Text) : Prop := ∀ c ∈ text.head?, isJsonBlank c = false

theorem beginsVisibly_cons {c : Char} (visible : isJsonBlank c = false) (text : Text) :
    BeginsVisibly (c :: text) := by
  intro first same
  rwa [← Option.some.inj same]

theorem skipJsonBlanks_append {blanks text : Text} (blank : JsonBlank blanks)
    (visible : BeginsVisibly text) : skipJsonBlanks (blanks ++ text) = text :=
  (span_append isJsonBlank blanks text blank visible).2

theorem readJsonMark?_written {mark : Char} {written text : Text} (form : JsonMark mark written)
    (visibleMark : isJsonBlank mark = false) (visible : BeginsVisibly text) :
    readJsonMark? mark (written ++ text) = some text := by
  obtain ⟨before, after, rfl, blank, blankToo⟩ := form
  have marked := beginsVisibly_cons visibleMark (after ++ text)
  rw [List.append_assoc, List.cons_append, readJsonMark?, skipJsonBlanks_append blank marked]
  simp only [if_pos, skipJsonBlanks_append blankToo visible]

theorem readJsonLead?_written {written text : Text} (form : JsonLead later written)
    (visible : BeginsVisibly text) : readJsonLead? later (written ++ text) = some text := by
  cases later with
  | true => exact readJsonMark?_written form (by decide) visible
  | false => exact congrArg some (skipJsonBlanks_append form visible)

theorem IsJsonString.beginsVisibly {string written : Text} (form : IsJsonString string written)
    (rest : Text) : BeginsVisibly (written ++ rest) := by
  obtain ⟨inner, rfl, -⟩ := form
  exact beginsVisibly_cons (by decide) _

theorem readJsonMember?_written {lead name colon key text rest : Text}
    (leads : JsonLead later lead) (named : IsJsonString key name) (parts : JsonMark ':' colon)
    (visible : BeginsVisibly text) (value : readJsonValue? key text = some (part, rest)) :
    readJsonMember? later (lead ++ (name ++ (colon ++ text))) = some (part, rest) := by
  have first := readJsonLead?_written leads (named.beginsVisibly (colon ++ text))
  have third := readJsonMark?_written parts (by decide) visible
  simp only [readJsonMember?, bind, first, Option.bind_some,
    readJsonString?_written named, third, value]

theorem skipJsonBlanks_lead {lead name key : Text} (leads : JsonLead later lead)
    (named : IsJsonString key name) (more : Text) :
    ∃ c rest, skipJsonBlanks (lead ++ (name ++ more)) = c :: rest ∧ c ≠ '\x7d' := by
  cases later with
  | true =>
    obtain ⟨before, after, rfl, blank, -⟩ := leads
    rw [List.append_assoc, List.cons_append]
    exact ⟨',', _, skipJsonBlanks_append blank (beginsVisibly_cons (by decide) _), by decide⟩
  | false =>
    have visible := named.beginsVisibly more
    obtain ⟨inner, rfl, -⟩ := named
    exact ⟨'\x22', _, skipJsonBlanks_append leads visible, by decide⟩

theorem readJsonPart?_member {lead name key more : Text} (leads : JsonLead later lead)
    (named : IsJsonString key name) :
    readJsonPart? later (lead ++ (name ++ more)) =
      readJsonMember? later (lead ++ (name ++ more)) := by
  obtain ⟨c, rest, shape, other⟩ := skipJsonBlanks_lead leads named more
  unfold readJsonPart?
  split
  · next closed =>
    cases shape.symm.trans closed
    exact absurd rfl other
  · rfl

theorem readJsonValue?_string {key value text : Text} (valued : IsJsonString value text)
    (rest : Text) : readJsonValue? key (text ++ rest) = some (.scalar key value, rest) := by
  have read := readJsonString?_written valued rest
  obtain ⟨inner, rfl, -⟩ := valued
  rw [List.cons_append] at read ⊢
  rw [readJsonValue?, read]
  · rfl
  · simp

theorem readJsonPart?_written {written : Text} (form : part.Written later written) (rest : Text) :
    readJsonPart? later (written ++ rest) = some (part, rest) := by
  cases form with
  | @close blanks blank =>
    have closing : BeginsVisibly ('\x7d' :: rest) := beginsVisibly_cons (by decide) rest
    rw [List.append_assoc, List.singleton_append, readJsonPart?,
      skipJsonBlanks_append blank closing]
    rfl
  | @scalar lead name colon text key value leads named parts valued =>
    have shape : lead ++ (name ++ (colon ++ text)) ++ rest =
        lead ++ (name ++ (colon ++ (text ++ rest))) := by
      simp
    rw [shape, readJsonPart?_member leads named]
    exact readJsonMember?_written leads named parts (valued.beginsVisibly rest)
      (readJsonValue?_string valued rest)
  | @opening lead name colon key leads named parts =>
    have shape : lead ++ (name ++ (colon ++ ['\x7b'])) ++ rest =
        lead ++ (name ++ (colon ++ '\x7b' :: rest)) := by
      simp
    have opening : BeginsVisibly ('\x7b' :: rest) := beginsVisibly_cons (by decide) rest
    rw [shape, readJsonPart?_member leads named]
    exact readJsonMember?_written leads named parts opening rfl

end Parts

section Members

variable {depth : Nat} {later : Bool} {text : Text} {groups : List Group}

theorem readJsonMembers?_close {left : Text} (read : readJsonPart? later text = some (.close, left)) :
    readJsonMembers? (depth + 1) later text =
      (readJsonMembers? depth true left).map (.empty :: ·) := by
  rw [readJsonMembers?]
  split <;> rename_i found <;> cases found.symm.trans read
  rfl

theorem readJsonMembers?_scalar {left key value : Text}
    (read : readJsonPart? later text = some (.scalar key value, left)) :
    readJsonMembers? (depth + 1) later text =
      (readJsonMembers? (depth + 1) true left).map (withScalar key value) := by
  rw [readJsonMembers?]
  split <;> rename_i found <;> cases found.symm.trans read
  rfl

theorem readJsonMembers?_opening {left key : Text}
    (read : readJsonPart? later text = some (.opening key, left)) :
    readJsonMembers? (depth + 1) later text =
      (readJsonMembers? (depth + 2) false left).map (withNested key) := by
  rw [readJsonMembers?]
  split <;> rename_i found <;> cases found.symm.trans read
  rfl

/-- The rest of an object is read as its group, and reading goes on in the object around it. -/
theorem readJsonMembers?_written {group : Group} (form : IsJsonMembers later group text)
    (depth : Nat) (rest : Text) :
    readJsonMembers? (depth + 1) later (text ++ rest) =
      (readJsonMembers? depth true rest).map (group :: ·) := by
  -- What follows stays free: behind the body of a nested object comes the rest of the outer one.
  induction form generalizing depth rest with
  | close last => exact readJsonMembers?_close (readJsonPart?_written last rest)
  | scalar first others ih =>
    rw [List.append_assoc, readJsonMembers?_scalar (readJsonPart?_written first _), ih]
    cases readJsonMembers? depth true rest <;> rfl
  | nested first inside others bodyIH ih =>
    rw [List.append_assoc, List.append_assoc,
      readJsonMembers?_opening (readJsonPart?_written first _), bodyIH, ih]
    cases readJsonMembers? depth true rest <;> rfl

inductive IsJsonRest : Bool → List Group → Text → Prop where
  | done {later : Bool} {blanks : Text} (blank : JsonBlank blanks) : IsJsonRest later [] blanks
  | next {later : Bool} {group : Group} {groups : List Group} {text rest : Text}
    (members : IsJsonMembers later group text) (outer : IsJsonRest true groups rest) :
    IsJsonRest later (group :: groups) (text ++ rest)

theorem rest_of_readJsonMembers? (read : readJsonMembers? depth later text = some groups) :
    groups.length = depth ∧ IsJsonRest later groups text := by
  -- Along the reader's own recursion. The length rules out the lists that are too short for a part.
  fun_induction readJsonMembers? depth later text generalizing groups with
  | case1 later text blank =>
    cases read
    exact ⟨rfl, .done (List.all_eq_true.mp blank)⟩
  | case2 => contradiction
  | case3 => contradiction
  | case4 depth later text left found ih =>
    obtain ⟨outer, inner, rfl⟩ := Option.map_eq_some_iff.mp read
    obtain ⟨length, rest⟩ := ih inner
    obtain ⟨written, rfl, form⟩ := written_of_readJsonPart? found
    exact ⟨congrArg (· + 1) length, .next (.close form) rest⟩
  | case5 depth later text key value left found ih =>
    obtain ⟨inside, inner, rfl⟩ := Option.map_eq_some_iff.mp read
    obtain ⟨length, rest⟩ := ih inner
    obtain ⟨written, rfl, form⟩ := written_of_readJsonPart? found
    cases rest with
    | done blank => contradiction
    | next members outer =>
      refine ⟨length, ?_⟩
      rw [← List.append_assoc]
      exact .next (.scalar form members) outer
  | case6 depth later text key left found ih =>
    obtain ⟨inside, inner, rfl⟩ := Option.map_eq_some_iff.mp read
    obtain ⟨length, rest⟩ := ih inner
    obtain ⟨written, rfl, form⟩ := written_of_readJsonPart? found
    cases rest with
    | done blank => contradiction
    | next body around =>
      cases around with
      | done blank => exact absurd (Nat.succ.inj length) (Nat.succ_ne_zero depth).symm
      | next members outer =>
        refine ⟨Nat.succ.inj length, ?_⟩
        rw [← List.append_assoc, ← List.append_assoc, List.append_assoc written]
        exact .next (.nested form body members) outer

end Members

/-- The reader takes exactly the texts of the grammar, for the groups that they stand for. -/
theorem readJson?_eq_some_iff (text : Text) (group : Group) :
    readJson? text = some group ↔ IsJson group text := by
  constructor
  · intro read
    obtain ⟨before, split, blank⟩ := skipJsonBlanks_split text
    unfold readJson? at read
    split at read
    · next members shape =>
      obtain ⟨groups, inner, first⟩ := Option.bind_eq_some_iff.mp read
      obtain ⟨length, rest⟩ := rest_of_readJsonMembers? inner
      cases rest with
      | done => contradiction
      | @next _ _ groups inside after form outer =>
        cases first
        obtain rfl : groups = [] := List.length_eq_zero_iff.mp (Nat.succ.inj length)
        cases outer with
        | done blankToo =>
          refine ⟨before, inside, after, ?_, blank, form, blankToo⟩
          rw [← shape, ← split]
    · contradiction
  · rintro ⟨before, members, after, rfl, blank, form, blankToo⟩
    have opening : BeginsVisibly ('\x7b' :: (members ++ after)) :=
      beginsVisibly_cons (by decide) _
    have ending : readJsonMembers? 0 true after = some [] := by
      rw [readJsonMembers?, if_pos (List.all_eq_true.mpr blankToo)]
    have membersRead := readJsonMembers?_written form 0 after
    rw [ending] at membersRead
    rw [readJson?, skipJsonBlanks_append blank opening]
    exact congrArg (Option.bind · List.head?) membersRead

example :
    readJson? " \x7b \"\\u0041\" : \"\\uD83d\\ude00\\/\" ,\n\"b\":\x7b\x7d\x7d ".toList =
      some (.scalar ['A'] ['😀', '/'] (.nested ['b'] .empty .empty)) := by
  decide +kernel

end ScopedConfig
