import ScopedConfig.Proofs.Records

/-!
A variable that no line mentions might as well not be there: to forget it before some lines are read
or afterwards comes to the same.
-/

namespace ScopedConfig

def Frame.forget (name : Text) (frame : Frame) : Frame := frame.filter fun entry => entry.1 ≠ name

theorem Frame.lookup_forget {name other : Text} (different : other ≠ name) (frame : Frame) :
    (frame.forget name).lookup other = frame.lookup other := by
  induction frame with
  | nil => rfl
  | cons entry frame ih =>
    obtain ⟨here, declared⟩ := entry
    rw [forget] at ih ⊢
    by_cases same : here = name
    · rw [List.filter_cons_of_neg (by simpa using same), ih, List.lookup_cons, same,
        beq_eq_false_iff_ne.mpr different]
    · rw [List.filter_cons_of_pos (by simpa using same), List.lookup_cons, List.lookup_cons, ih]

namespace Scopes

variable {name other : Text}

def forget (name : Text) (scopes : Scopes) : Scopes := ⟨scopes.frames.map (Frame.forget name)⟩

theorem innermost_forget (scopes : Scopes) :
    (scopes.forget name).innermost = scopes.innermost.forget name := by
  obtain ⟨frames⟩ := scopes
  cases frames <;> rfl

theorem local?_forget (different : other ≠ name) (scopes : Scopes) :
    (scopes.forget name).local? other = scopes.local? other := by
  rw [local?, innermost_forget, Frame.lookup_forget different, local?]

theorem resolve?_forget (different : other ≠ name) (scopes : Scopes) :
    (scopes.forget name).resolve? other = scopes.resolve? other := by
  rw [resolve?, forget, List.findSome?_map, resolve?]
  congr 1
  funext frame
  exact Frame.lookup_forget different frame

theorem exit_forget (scopes : Scopes) : scopes.exit.forget name = (scopes.forget name).exit := by
  rw [forget, exit, exit, forget, List.map_tail]

theorem extend_forget (different : other ≠ name) (scopes : Scopes) (declared : Variable) :
    (scopes.extend other declared).forget name = (scopes.forget name).extend other declared := by
  have kept : Frame.forget name ((other, declared) :: scopes.innermost) =
      (other, declared) :: scopes.innermost.forget name :=
    List.filter_cons_of_pos (by simpa using different)
  rw [extend, extend, innermost_forget, forget, List.map_cons, kept, forget, List.map_tail]

/-- A variable that has just been declared under a name that no frame has is all there is to
forget. -/
theorem forget_extend_self (scopes : Scopes) (declared : Variable) (inside : scopes.frames ≠ [])
    (absent : ∀ frame ∈ scopes.frames, ∀ entry ∈ frame, entry.1 ≠ name) :
    (scopes.extend name declared).forget name = scopes := by
  have clean : ∀ frame ∈ scopes.frames, Frame.forget name frame = frame := by
    intro frame member
    apply List.filter_eq_self.mpr
    intro entry within
    simpa using absent frame member entry within
  obtain ⟨frames⟩ := scopes
  cases frames with
  | nil => exact absurd rfl inside
  | cons frame frames =>
    rw [List.forall_mem_cons] at clean
    have gone : Frame.forget name ((name, declared) :: frame) = frame := by
      rw [Frame.forget, List.filter_cons_of_neg (by simp), ← Frame.forget, clean.1]
    have others : frames.map (Frame.forget name) = frames := by
      rw [List.map_congr_left clean.2, List.map_id']
    change Scopes.mk (Frame.forget name ((name, declared) :: frame) ::
      frames.map (Frame.forget name)) = _
    rw [gone, others]

end Scopes

theorem joinAfter_forget {name : Text} (scopes : Scopes) (path : Text)
    (previous : Option TokenKind) (tokens : List Token)
    (unused : ∀ token ∈ tokens, token.kind ≠ .reference name) :
    joinAfter (scopes.forget name) path previous tokens = joinAfter scopes path previous tokens := by
  induction tokens generalizing previous with
  | nil => rfl
  | cons token tokens ih =>
    rw [List.forall_mem_cons] at unused
    have text : token.text (scopes.forget name) path = token.text scopes path := by
      unfold Token.text
      split
      · rfl
      · rfl
      · next other reference =>
        have different : other ≠ name := by
          rintro rfl
          exact unused.1 reference
        rw [Scopes.resolve?_forget different]
    rw [joinAfter, joinAfter, text, ih (some token.kind) unused.2]

theorem unused_of_lex {name : Text} {line : Line} {spaced : Bool} {part : Text} {segment : Segment}
    (unmentioned : ¬ '$' :: name <:+: line.text)
    (read : lex line.number spaced part = .ok segment) (within : part <:+ line.text) :
    ∀ token ∈ segment.tokens, token.kind ≠ .reference name := by
  intro token member reference
  obtain ⟨-, spelled⟩ := spelled_of_lex read token member
  rw [reference] at spelled
  exact unmentioned (spelled.trans within.isInfix)

namespace Pending

/-- A value that is neither for a variable nor mentions it. -/
structure Ignores (name : Text) (pending : Pending) : Prop where
  other : pending.target = .binding → pending.name ≠ name
  unused : ∀ token ∈ pending.segment.tokens, token.kind ≠ .reference name

variable {name : Text} {line : Line}

theorem ignores_of_head {target : Target} {other rest : Text} {segment : Segment}
    (unmentioned : ¬ '$' :: name <:+: line.text) (head : Head target line.text other rest)
    (read : lex line.number false rest = .ok segment) :
    Ignores name ⟨target, other, line.number, segment⟩ := by
  refine ⟨?_, unused_of_lex unmentioned read head.suffix⟩
  rintro rfl rfl
  exact unmentioned head.written.isInfix

theorem Ignores.extend {pending : Pending} {segment : Segment}
    (unmentioned : ¬ '$' :: name <:+: line.text) (ignores : pending.Ignores name)
    (extended : pending.segment.extend line = .ok segment) :
    Ignores name { pending with segment } := by
  obtain ⟨next, read, rfl⟩ := map_eq_ok.mp extended
  refine ⟨ignores.other, ?_⟩
  intro token member
  rcases List.mem_append.mp member with member | member
  · exact ignores.unused token member
  · exact unused_of_lex unmentioned read (List.suffix_refl _) token member

end Pending

namespace State

variable {name : Text} {state next : State}

def forget (name : Text) (state : State) : State :=
  { state with scopes := state.scopes.forget name }

theorem checkNew_forget {target : Target} {other : Text}
    (different : target = .binding → other ≠ name) (number : Nat) :
    (state.forget name).checkNew target other number = state.checkNew target other number := by
  cases target with
  | key => rfl
  | binding =>
    simp only [checkNew, forget, Scopes.local?_forget (different rfl)]
    rfl

theorem assign_forget {pending : Pending} (ignores : pending.Ignores name) :
    (state.forget name).assign pending = (state.assign pending).map (State.forget name) := by
  obtain ⟨target, other, number, segment⟩ := pending
  have joined : join (state.forget name).scopes ((state.forget name).qualified other)
      segment.tokens = join state.scopes (state.qualified other) segment.tokens :=
    joinAfter_forget state.scopes (state.qualified other) none segment.tokens ignores.unused
  simp only [assign, joined]
  cases join state.scopes (state.qualified other) segment.tokens with
  | error error => rfl
  | ok value =>
    cases target with
    | key => rfl
    | binding =>
      have different : other ≠ name := ignores.other rfl
      have found : (state.forget name).scopes.local? other = state.scopes.local? other :=
        Scopes.local?_forget different state.scopes
      simp only [ok_bind, Scopes.declare, found]
      cases state.scopes.local? other with
      | none =>
        have declared := Scopes.extend_forget different state.scopes ⟨value, number⟩
        simp only [forget, ← declared]
        rfl
      | some first => rfl

theorem settle_forget {pending : Pending} (ignores : pending.Ignores name) :
    (state.forget name).settle pending = (state.settle pending).map (State.forget name) := by
  rw [settle, settle]
  split
  · rfl
  · exact assign_forget ignores

theorem closeGroup_forget (number : Nat) :
    (state.forget name).closeGroup number = (state.closeGroup number).map (State.forget name) := by
  cases inside : state.outer with
  | nil =>
    simp only [closeGroup, forget, inside]
    rfl
  | cons group outer =>
    simp only [closeGroup, forget, inside, ← Scopes.exit_forget]
    rfl

theorem begin_forget {line : Line} (unmentioned : ¬ '$' :: name <:+: line.text) :
    (state.forget name).begin line = (state.begin line).map (State.forget name) := by
  unfold begin
  split
  · rfl
  · exact closeGroup_forget line.number
  · rfl
  · next other shown =>
    have checked : (state.forget name).checkNew .key other line.number =
        state.checkNew .key other line.number := rfl
    rw [checked]
    cases state.checkNew .key other line.number <;> rfl
  · next target other rest shown =>
    have head := (Statement.head_of_value shown).1
    have different : target = .binding → other ≠ name := by
      rintro rfl rfl
      exact unmentioned head.written.isInfix
    rw [checkNew_forget different]
    cases state.checkNew target other line.number with
    | error error => rfl
    | ok _ =>
      cases read : lex line.number false rest with
      | error error => rfl
      | ok segment => exact settle_forget (Pending.ignores_of_head unmentioned head read)

theorem step_forget {line : Line} (unmentioned : ¬ '$' :: name <:+: line.text)
    (ignores : ∀ pending ∈ state.pending, pending.Ignores name) :
    (state.forget name).step line = (state.step line).map (State.forget name) := by
  cases reading : state.pending with
  | none =>
    have readingToo : (state.forget name).pending = none := reading
    simp only [step, reading, readingToo]
    exact begin_forget unmentioned
  | some pending =>
    have readingToo : (state.forget name).pending = some pending := reading
    rw [step_pending readingToo, step_pending reading]
    cases extended : pending.segment.extend line with
    | error error => rfl
    | ok segment => exact settle_forget ((ignores pending reading).extend unmentioned extended)

theorem ignores_of_settle {pending : Pending} (ignores : pending.Ignores name)
    (settled : state.settle pending = .ok next) :
    ∀ later ∈ next.pending, later.Ignores name := by
  unfold settle at settled
  split at settled
  · cases settled
    intro later member
    obtain rfl : pending = later := by simpa using member
    exact ignores
  · obtain ⟨value, -, ⟨-, rfl⟩ | ⟨-, -, rfl⟩⟩ := assign_cases settled <;> simp

theorem ignores_of_step {line : Line} (unmentioned : ¬ '$' :: name <:+: line.text)
    (ignores : ∀ pending ∈ state.pending, pending.Ignores name)
    (stepped : state.step line = .ok next) : ∀ pending ∈ next.pending, pending.Ignores name := by
  cases reading : state.pending with
  | none =>
    simp only [step, reading] at stepped
    rcases begin_cases stepped with ⟨-, closed⟩ | ⟨other, -, -, rfl⟩ |
      ⟨target, other, rest, segment, shown, -, read, settled⟩
    · obtain ⟨group, outer, -, rfl⟩ := closeGroup_cases closed
      simp
    · simp [openGroup]
    · have head := (Statement.head_of_value shown).1
      exact ignores_of_settle (Pending.ignores_of_head unmentioned head read) settled
  | some pending =>
    rw [step_pending reading] at stepped
    obtain ⟨segment, extended, settled⟩ := bind_eq_ok.mp stepped
    exact ignores_of_settle ((ignores pending reading).extend unmentioned extended) settled

theorem run_forget {lines : List Line} (unmentioned : ∀ line ∈ lines, ¬ '$' :: name <:+: line.text)
    (ignores : ∀ pending ∈ state.pending, pending.Ignores name) :
    (state.forget name).run lines = (state.run lines).map (State.forget name) := by
  induction lines generalizing state with
  | nil => rfl
  | cons line lines ih =>
    rw [List.forall_mem_cons] at unmentioned
    rw [run_cons, run_cons, step_forget unmentioned.1 ignores]
    cases stepped : state.step line with
    | error error => rfl
    | ok next => exact ih unmentioned.2 (ignores_of_step unmentioned.1 ignores stepped)

/-- Readings from states that differ in a variable only, between two values, end alike. -/
theorem finish_run_of_forget {extended : State} (forgotten : extended.forget name = state)
    (clear : state.pending = none) {lines : List Line}
    (unmentioned : ∀ line ∈ lines, ¬ '$' :: name <:+: line.text) (total : Nat) :
    (extended.run lines >>= finish total) = state.run lines >>= finish total := by
  have ignores : ∀ pending ∈ extended.pending, pending.Ignores name := by
    rw [← forgotten] at clear
    intro pending member
    exact absurd (clear.symm.trans member) (by simp)
  rw [← forgotten, run_forget unmentioned ignores]
  cases extended.run lines <;> rfl

end State

end ScopedConfig
