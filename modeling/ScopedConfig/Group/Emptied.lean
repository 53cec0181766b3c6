import ScopedConfig.Group.Path

namespace ScopedConfig

namespace Group

def emptyAt : List Text → Group → Group
  | [], _ => empty
  | _ :: _, empty => empty
  | key :: keys, scalar other value rest => scalar other value (emptyAt (key :: keys) rest)
  | key :: keys, nested other body rest =>
    if other = key then nested other (emptyAt keys body) rest
    else nested other body (emptyAt (key :: keys) rest)

theorem emptyAt_nil (group : Group) : group.emptyAt [] = empty := by
  cases group <;> rfl

theorem emptyAt_cons_other (key other : Text) (keys : List Text) (entry : Entry) (rest : Group)
    (different : other ≠ key) :
    (cons other entry rest).emptyAt (key :: keys) =
      cons other entry (rest.emptyAt (key :: keys)) := by
  cases entry <;> simp [cons, emptyAt, different]

@[simp] theorem contains_emptyAt (key name : Text) (keys : List Text) (group : Group) :
    (group.emptyAt (key :: keys)).contains name = group.contains name := by
  rw [contains, contains]
  induction group with
  | empty => rfl
  | scalar other value rest ih =>
    by_cases here : other = name
    · simp [emptyAt, get?, here]
    · simp [emptyAt, get?, here, ih]
  | nested other body rest bodyIH ih =>
    by_cases same : other = key
    · by_cases here : key = name
      · simp [emptyAt, get?, same, here]
      · simp [emptyAt, get?, same, here]
    · by_cases here : other = name
      · subst here
        simp [emptyAt, get?, same]
      · simp [emptyAt, get?, same, here, ih]

theorem emptyAt_insert_other (key other : Text) (keys : List Text) (entry : Entry) (group : Group)
    (different : other ≠ key) :
    (group.insert other entry).emptyAt (key :: keys) =
      (group.emptyAt (key :: keys)).insert other entry := by
  induction group with
  | empty => exact emptyAt_cons_other key other keys entry empty different
  | scalar present value rest ih =>
    by_cases same : present = other
    · simp [insert, emptyAt, same, emptyAt_cons_other key other keys entry rest different]
    · simp [insert, emptyAt, same, ih]
  | nested present body rest bodyIH ih =>
    by_cases same : present = other
    · simp [insert, emptyAt, same, different,
        emptyAt_cons_other key other keys entry rest different]
    · by_cases here : present = key
      · simp [insert, emptyAt, here, Ne.symm different]
      · simp [insert, emptyAt, same, here, ih]

/-- Emptying inside a group that has just been added is adding the group emptied. -/
theorem emptyAt_insert_new (key : Text) (keys : List Text) (body group : Group)
    (absent : group.contains key = false) :
    (group.insert key (.group body)).emptyAt (key :: keys) =
      group.insert key (.group (body.emptyAt keys)) := by
  induction group with
  | empty => simp [insert, cons, emptyAt]
  | scalar other value rest ih =>
    by_cases same : other = key
    · simp [contains, get?, same] at absent
    · have later : rest.contains key = false := by simpa [contains, get?, same] using absent
      simp [insert, emptyAt, same, ih later]
  | nested other inner rest bodyIH ih =>
    by_cases same : other = key
    · simp [contains, get?, same] at absent
    · have later : rest.contains key = false := by simpa [contains, get?, same] using absent
      simp [insert, emptyAt, same, ih later]

end Group

end ScopedConfig
