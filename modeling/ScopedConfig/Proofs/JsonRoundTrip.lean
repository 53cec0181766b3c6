import ScopedConfig.Group.Json
import ScopedConfig.Proofs.JsonReading

/-!
The text that is printed for a group is an object that stands for it, in both layouts. As a text stands
for one group at most, nothing of a group is lost in its text.
-/

namespace ScopedConfig

section Strings

theorem hexDigit?_digitChar : ∀ digit < 16, hexDigit? (Nat.digitChar digit) = some digit := by
  decide

theorem codeUnit?_hexEscape {n : Nat} (small : n < 256) : codeUnit? (hexEscape n) = some n := by
  have zero : hexDigit? '0' = some 0 := by decide
  have high := hexDigit?_digitChar (n / 16) (by omega)
  have low := hexDigit?_digitChar (n % 16) (by omega)
  have whole : 16 * (n / 16) + n % 16 = n := by omega
  simp [codeUnit?, hexEscape, zero, high, low, whole]

theorem isJsonChar_jsonChar (c : Char) : IsJsonChar c (jsonChar c) := by
  unfold jsonChar
  split_ifs with quote backslash backspace feed line carriage tab control
  · exact .short (congrArg some quote.symm)
  · exact .short (congrArg some backslash.symm)
  · exact .short (congrArg some backspace.symm)
  · exact .short (congrArg some feed.symm)
  · exact .short (congrArg some line.symm)
  · exact .short (congrArg some carriage.symm)
  · exact .short (congrArg some tab.symm)
  · exact .unit (codeUnit?_hexEscape (by omega))
  · exact .plain (by omega) quote backslash

theorem isJsonString_jsonString (text : Text) : IsJsonString text (jsonString text) := by
  refine ⟨text.flatMap jsonChar, rfl, ?_⟩
  induction text with
  | nil => exact .nil
  | cons c rest ih => exact .cons (isJsonChar_jsonChar c) ih

end Strings

structure JsonLayout.Proper (layout : JsonLayout) : Prop where
  lineBreak (depth : Nat) : JsonBlank (layout.lineBreak depth)
  colon : JsonMark ':' layout.colon

theorem JsonLayout.pretty_proper : JsonLayout.pretty.Proper where
  lineBreak depth := by
    intro c member
    rcases List.mem_cons.mp member with rfl | member
    · rfl
    · rw [List.eq_of_mem_replicate member]
      rfl
  colon := ⟨[], [' '], rfl, by simp [JsonBlank], by simp [JsonBlank, isJsonBlank]⟩

theorem JsonLayout.compact_proper : JsonLayout.compact.Proper where
  lineBreak _ := by simp [JsonLayout.compact, JsonBlank]
  colon := ⟨[], [], rfl, by simp [JsonBlank], by simp [JsonBlank]⟩

namespace Group

section Members

variable (layout : JsonLayout) (depth : Nat) (later : Bool)

def jsonLead : Text := (if later then [','] else []) ++ layout.lineBreak (depth + 1)

/-- The text of an object that closes at the given depth, from a member on or from the closing brace.
The comma that parts two members is counted to the second one. -/
def jsonRest (group : Group) : Text :=
  (if later then group.jsonComma else []) ++
    (group.jsonMembers layout (depth + 1) ++ (layout.lineBreak depth ++ ['\x7d']))

def jsonInside (group : Group) : Text :=
  if group.isEmpty then ['\x7d'] else group.jsonRest layout depth false

theorem jsonBraces_eq (group : Group) :
    group.jsonBraces layout depth (group.jsonMembers layout (depth + 1)) =
      '\x7b' :: group.jsonInside layout depth := by
  cases group <;> simp [jsonBraces, jsonInside, jsonRest, isEmpty]

theorem jsonRest_empty :
    empty.jsonRest layout depth later = layout.lineBreak depth ++ ['\x7d'] := by
  cases later <;> rfl

theorem jsonRest_scalar (key value : Text) (rest : Group) :
    (scalar key value rest).jsonRest layout depth later =
      jsonLead layout depth later ++ (jsonString key ++ (layout.colon ++ jsonString value)) ++
        rest.jsonRest layout depth true := by
  simp [jsonRest, jsonLead, jsonComma, jsonMembers, isEmpty]

theorem jsonRest_nested (key : Text) (body rest : Group) :
    (nested key body rest).jsonRest layout depth later =
      jsonLead layout depth later ++ (jsonString key ++ (layout.colon ++ ['\x7b'])) ++
        (body.jsonInside layout (depth + 1) ++ rest.jsonRest layout depth true) := by
  simp [jsonRest, jsonLead, jsonComma, jsonMembers, jsonBraces_eq, isEmpty]

variable {layout}

theorem isJsonMembers_jsonInside {group : Group}
    (form : IsJsonMembers false group (group.jsonRest layout depth false)) :
    IsJsonMembers false group (group.jsonInside layout depth) := by
  unfold jsonInside
  split
  · next vacant =>
    have closing : JsonPart.Written false .close ([] ++ ['\x7d']) := .close (by simp [JsonBlank])
    cases group <;> cases vacant
    exact .close closing
  · exact form

variable (proper : layout.Proper)

include proper

theorem jsonLead_lead : JsonLead later (jsonLead layout depth later) := by
  have blank := proper.lineBreak (depth + 1)
  cases later with
  | false => exact blank
  | true => exact ⟨[], layout.lineBreak (depth + 1), rfl, by simp [JsonBlank], blank⟩

theorem isJsonMembers_jsonRest (group : Group) :
    IsJsonMembers later group (group.jsonRest layout depth later) := by
  induction group generalizing depth later with
  | empty =>
    rw [jsonRest_empty]
    exact .close (.close (proper.lineBreak depth))
  | scalar key value rest ih =>
    rw [jsonRest_scalar]
    exact .scalar (.scalar (jsonLead_lead depth later proper) (isJsonString_jsonString key)
      proper.colon (isJsonString_jsonString value)) (ih depth true)
  | nested key body rest bodyIH ih =>
    have inside := isJsonMembers_jsonInside (depth + 1) (bodyIH (depth + 1) false)
    rw [jsonRest_nested]
    exact .nested (.opening (jsonLead_lead depth later proper) (isJsonString_jsonString key)
      proper.colon) inside (ih depth true)

theorem isJson_json (group : Group) : IsJson group (group.json layout) := by
  have members := isJsonMembers_jsonInside 0 (isJsonMembers_jsonRest 0 false proper group)
  refine ⟨[], group.jsonInside layout 0, [], ?_, by simp [JsonBlank], members, by simp [JsonBlank]⟩
  rw [List.append_nil]
  exact jsonBraces_eq layout 0 group

theorem readJson?_json (group : Group) : readJson? (group.json layout) = some group :=
  (readJson?_eq_some_iff _ group).mpr (isJson_json proper group)

theorem json_injective : Function.Injective (json layout) := by
  intro first second same
  have found := readJson?_json proper first
  rw [same, readJson?_json proper second] at found
  exact (Option.some.inj found).symm

end Members

/-- The printed text of a group is an object of the grammar, in both layouts. The reader, which takes
exactly the objects of the grammar, reads the group back from it, with all keys and scalars in their
order at every level. So groups with the same printed text are the same. -/
theorem json_reads_back (group : Group) :
    (∀ text other, readJson? text = some other ↔ IsJson other text) ∧
    IsJson group (group.json .pretty) ∧ readJson? (group.json .pretty) = some group ∧
    IsJson group (group.json .compact) ∧ readJson? (group.json .compact) = some group ∧
    ∀ other : Group, other.json .pretty = group.json .pretty ↔ other = group := by
  have pretty := JsonLayout.pretty_proper
  have compact := JsonLayout.compact_proper
  refine ⟨readJson?_eq_some_iff, isJson_json pretty group, readJson?_json pretty group,
    isJson_json compact group, readJson?_json compact group, ?_⟩
  intro other
  exact (json_injective pretty).eq_iff

end Group

end ScopedConfig
