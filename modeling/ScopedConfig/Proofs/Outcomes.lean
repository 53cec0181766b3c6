import ScopedConfig.Agreement

namespace ScopedConfig

variable {ε α β : Type}

theorem ok_bind (value : α) (next : α → Except ε β) : (Except.ok value >>= next) = next value := rfl

theorem error_bind (error : ε) (next : α → Except ε β) :
    (Except.error error >>= next) = .error error := rfl

theorem bind_eq_ok {outcome : Except ε α} {next : α → Except ε β} {result : β} :
    outcome >>= next = .ok result ↔ ∃ value, outcome = .ok value ∧ next value = .ok result := by
  cases outcome with
  | error error => simp [error_bind]
  | ok value => simp [ok_bind]

theorem bind_eq_error {outcome : Except ε α} {next : α → Except ε β} {error : ε} :
    outcome >>= next = .error error ↔
      outcome = .error error ∨ ∃ value, outcome = .ok value ∧ next value = .error error := by
  cases outcome with
  | error other => simp [error_bind]
  | ok value => simp [ok_bind]

theorem map_eq_error {outcome : Except ε α} {change : α → β} {error : ε} :
    outcome.map change = .error error ↔ outcome = .error error := by
  cases outcome <;> simp [Except.map]

theorem map_eq_ok {outcome : Except ε α} {change : α → β} {result : β} :
    outcome.map change = .ok result ↔ ∃ value, outcome = .ok value ∧ change value = result := by
  cases outcome with
  | error error => simp [Except.map]
  | ok value => simp [Except.map]

namespace Agree

variable {γ δ : Type} {errors : ε → ε → Prop} {values : α → β → Prop} {results : γ → δ → Prop}
  {left : Except ε α} {right : Except ε β}

theorem bind {next : α → Except ε γ} {next' : β → Except ε δ} (agree : Agree errors values left right)
    (later : ∀ value value', left = .ok value → right = .ok value' → values value value' →
      Agree errors results (next value) (next' value')) :
    Agree errors results (left >>= next) (right >>= next') := by
  cases agree with
  | error alike => exact .error alike
  | ok alike => exact later _ _ rfl rfl alike

theorem map {change : α → γ} {change' : β → δ} (agree : Agree errors values left right)
    (changed : ∀ value value', values value value' → results (change value) (change' value')) :
    Agree errors results (left.map change) (right.map change') := by
  cases agree with
  | error alike => exact .error alike
  | ok alike => exact .ok (changed _ _ alike)

theorem weaken {results : α → β → Prop} (agree : Agree errors values left right)
    (weaker : ∀ value value', left = .ok value → right = .ok value' → values value value' →
      results value value') : Agree errors results left right := by
  cases agree with
  | error alike => exact .error alike
  | ok alike => exact .ok (weaker _ _ rfl rfl alike)

theorem of_ok {value : α} (agree : Agree errors values left right) (found : left = .ok value) :
    ∃ value', right = .ok value' ∧ values value value' := by
  subst found
  cases agree with
  | ok alike => exact ⟨_, rfl, alike⟩

theorem of_error {error : ε} (agree : Agree errors values left right)
    (failed : left = .error error) : ∃ error', right = .error error' ∧ errors error error' := by
  subst failed
  cases agree with
  | error alike => exact ⟨_, rfl, alike⟩

end Agree

/-- Outcomes that agree, unless the first is an error that is excused. -/
def AgreeUnless (excused : ε → Prop) (errors : ε → ε → Prop) (values : α → β → Prop)
    (left : Except ε α) (right : Except ε β) : Prop :=
  (∃ error, left = .error error ∧ excused error) ∨ Agree errors values left right

namespace AgreeUnless

variable {γ δ : Type} {excused : ε → Prop} {errors : ε → ε → Prop} {values : α → β → Prop}
  {results : γ → δ → Prop} {left : Except ε α} {right : Except ε β}

theorem bind {next : α → Except ε γ} {next' : β → Except ε δ}
    (agree : AgreeUnless excused errors values left right)
    (later : ∀ value value', left = .ok value → right = .ok value' → values value value' →
      AgreeUnless excused errors results (next value) (next' value')) :
    AgreeUnless excused errors results (left >>= next) (right >>= next') := by
  rcases agree with ⟨error, rfl, excuse⟩ | agree
  · exact Or.inl ⟨error, rfl, excuse⟩
  · cases agree with
    | error alike => exact Or.inr (.error alike)
    | ok alike => exact later _ _ rfl rfl alike

theorem of_ok {value : α} (agree : AgreeUnless excused errors values left right)
    (found : left = .ok value) : ∃ value', right = .ok value' ∧ values value value' := by
  rcases agree with ⟨error, failed, -⟩ | agree
  · rw [found] at failed
    cases failed
  · exact agree.of_ok found

theorem of_error {error : ε} (agree : AgreeUnless excused errors values left right)
    (failed : left = .error error) (strict : ¬ excused error) :
    ∃ error', right = .error error' ∧ errors error error' := by
  rcases agree with ⟨other, same, excuse⟩ | agree
  · rw [failed] at same
    cases same
    exact absurd excuse strict
  · exact agree.of_error failed

end AgreeUnless

end ScopedConfig
