import ScopedConfig.Document
import ScopedConfig.Proofs.Outcomes

namespace ScopedConfig

namespace State

variable {state : State} {number : Nat} {text : Text}

theorem qualified_outermost (outermost : state.outer = []) (name : Text) :
    state.qualified name = name := by
  simp [qualified, path, outermost]

theorem step_close (clear : state.pending = none) (shown : Statement.ofText? text = some .close) :
    state.step ⟨number, text⟩ = state.closeGroup number := by
  simp only [step, clear, begin, shown]

theorem closeGroup_inside {group : OpenGroup} {outer : List OpenGroup}
    (inside : state.outer = group :: outer) :
    state.closeGroup number = .ok ⟨state.scopes.exit, outer,
      group.before.insert group.name (.group state.entries), none⟩ := by
  simp only [closeGroup, inside]

theorem closeGroup_cases {next : State} (closed : state.closeGroup number = .ok next) :
    ∃ group outer, state.outer = group :: outer ∧ next = ⟨state.scopes.exit, outer,
      group.before.insert group.name (.group state.entries), none⟩ := by
  unfold closeGroup at closed
  split at closed
  · contradiction
  · next group outer inside => exact ⟨group, outer, inside, (Except.ok.inj closed).symm⟩

theorem step_opening {name : Text} (clear : state.pending = none)
    (shown : Statement.ofText? text = some (.opening .key name))
    (fresh : state.entries.contains name = false) :
    state.step ⟨number, text⟩ = .ok (state.openGroup name) := by
  simp only [step, clear, begin, shown, checkNew, fresh]
  rfl

theorem step_value {target : Target} {name rest : Text} (clear : state.pending = none)
    (shown : Statement.ofText? text = some (.value target name rest))
    (fresh : state.checkNew target name number = .ok ()) :
    state.step ⟨number, text⟩ =
      lex number false rest >>= fun segment => state.settle ⟨target, name, number, segment⟩ := by
  simp only [step, clear, begin, shown, fresh]
  rfl

theorem step_pending {pending : Pending} (open_ : state.pending = some pending) (line : Line) :
    state.step line =
      pending.segment.extend line >>= fun segment => state.settle { pending with segment } := by
  simp only [step, open_]

theorem checkNew_key {name : Text} (fresh : state.entries.contains name = false) :
    state.checkNew .key name number = .ok () := by
  simp [checkNew, fresh]

theorem fresh_of_checkNew {name : Text} (checked : state.checkNew .key name number = .ok ()) :
    state.entries.contains name = false := by
  simp only [checkNew] at checked
  split at checked
  · contradiction
  · next absent => simpa using absent

theorem checkNew_binding {name : Text} (fresh : state.scopes.local? name = none) :
    state.checkNew .binding name number = .ok () := by
  simp [checkNew, fresh]

theorem unbound_of_checkNew {name : Text}
    (checked : state.checkNew .binding name number = .ok ()) :
    state.scopes.local? name = none := by
  simp only [checkNew] at checked
  split at checked
  · contradiction
  · next unbound => exact unbound

theorem assign_key {name value : Text} {segment : Segment}
    (joined : join state.scopes (state.qualified name) segment.tokens = .ok value) :
    state.assign ⟨.key, name, number, segment⟩ =
      .ok { state with entries := state.entries.insert name (.scalar value), pending := none } := by
  simp only [assign, joined, ok_bind]
  rfl

theorem assign_binding {name value : Text} {segment : Segment}
    (joined : join state.scopes (state.qualified name) segment.tokens = .ok value)
    (fresh : state.scopes.local? name = none) :
    state.assign ⟨.binding, name, number, segment⟩ =
      .ok { state with scopes := state.scopes.extend name ⟨value, number⟩, pending := none } := by
  simp only [assign, joined, ok_bind, Scopes.declare_new state.scopes name value number fresh]
  rfl

theorem settle_key {name value : Text} {segment : Segment} (complete : segment.continues = false)
    (joined : join state.scopes (state.qualified name) segment.tokens = .ok value) :
    state.settle ⟨.key, name, number, segment⟩ =
      .ok { state with entries := state.entries.insert name (.scalar value), pending := none } := by
  rw [settle, if_neg (by simp [complete]), assign_key joined]

theorem settle_binding {name value : Text} {segment : Segment}
    (complete : segment.continues = false)
    (joined : join state.scopes (state.qualified name) segment.tokens = .ok value)
    (fresh : state.scopes.local? name = none) :
    state.settle ⟨.binding, name, number, segment⟩ =
      .ok { state with scopes := state.scopes.extend name ⟨value, number⟩, pending := none } := by
  rw [settle, if_neg (by simp [complete]), assign_binding joined fresh]

theorem begin_cases {line : Line} {next : State} (begun : state.begin line = .ok next) :
    (Statement.ofText? line.text = some .close ∧ state.closeGroup line.number = .ok next) ∨
    (∃ name, Statement.ofText? line.text = some (.opening .key name) ∧
      state.entries.contains name = false ∧ next = state.openGroup name) ∨
    ∃ target name rest segment, Statement.ofText? line.text = some (.value target name rest) ∧
      state.checkNew target name line.number = .ok () ∧
      lex line.number false rest = .ok segment ∧
      state.settle ⟨target, name, line.number, segment⟩ = .ok next := by
  unfold begin at begun
  split at begun
  · contradiction
  · next shown => exact Or.inl ⟨shown, begun⟩
  · contradiction
  · next name shown =>
    obtain ⟨_, checked, opened⟩ := bind_eq_ok.mp begun
    have fresh := fresh_of_checkNew checked
    exact Or.inr (Or.inl ⟨name, shown, fresh, (Except.ok.inj opened).symm⟩)
  · next target name rest shown =>
    obtain ⟨_, checked, opened⟩ := bind_eq_ok.mp begun
    obtain ⟨segment, read, settled⟩ := bind_eq_ok.mp opened
    exact Or.inr (Or.inr ⟨target, name, rest, segment, shown, checked, read, settled⟩)

theorem assign_cases {target : Target} {name : Text} {segment : Segment} {next : State}
    (assigned : state.assign ⟨target, name, number, segment⟩ = .ok next) :
    ∃ value, join state.scopes (state.qualified name) segment.tokens = .ok value ∧
      ((target = .key ∧ next =
        { state with entries := state.entries.insert name (.scalar value), pending := none }) ∨
      (target = .binding ∧ state.scopes.local? name = none ∧ next =
        { state with scopes := state.scopes.extend name ⟨value, number⟩, pending := none })) := by
  obtain ⟨value, joined, given⟩ := bind_eq_ok.mp assigned
  refine ⟨value, joined, ?_⟩
  cases target with
  | key => exact Or.inl ⟨rfl, (Except.ok.inj given).symm⟩
  | binding =>
    cases found : state.scopes.local? name with
    | none =>
      simp only [Scopes.declare_new state.scopes name value number found] at given
      exact Or.inr ⟨rfl, rfl, (Except.ok.inj given).symm⟩
    | some first =>
      simp only [Scopes.declare, found] at given
      contradiction

/-- Going on with a value opens and closes nothing: only the innermost frame may grow. -/
theorem settle_keeps {pending : Pending} {next : State}
    (settled : state.settle pending = .ok next) :
    next.outer = state.outer ∧ next.scopes.exit = state.scopes.exit := by
  unfold settle at settled
  split at settled
  · cases settled
    exact ⟨rfl, rfl⟩
  · obtain ⟨value, -, ⟨-, rfl⟩ | ⟨-, -, rfl⟩⟩ := assign_cases settled
    · exact ⟨rfl, rfl⟩
    · exact ⟨rfl, rfl⟩

theorem step_cases {line : Line} {next : State} (stepped : state.step line = .ok next) :
    (next.outer = state.outer ∧ next.scopes.exit = state.scopes.exit) ∨
    (∃ name, state.entries.contains name = false ∧ next = state.openGroup name) ∨
    (Statement.ofText? line.text = some .close ∧ ∃ group outer, state.outer = group :: outer ∧
      next = ⟨state.scopes.exit, outer,
        group.before.insert group.name (.group state.entries), none⟩) := by
  cases reading : state.pending with
  | none =>
    simp only [step, reading] at stepped
    rcases begin_cases stepped with ⟨shown, closed⟩ | ⟨name, -, fresh, opened⟩ |
      ⟨target, name, rest, segment, -, -, -, settled⟩
    · exact Or.inr (Or.inr ⟨shown, closeGroup_cases closed⟩)
    · exact Or.inr (Or.inl ⟨name, fresh, opened⟩)
    · exact Or.inl (settle_keeps settled)
  | some pending =>
    rw [step_pending reading] at stepped
    obtain ⟨segment, -, settled⟩ := bind_eq_ok.mp stepped
    exact Or.inl (settle_keeps settled)

theorem finish_eq_ok_iff {total : Nat} {tree : Group} :
    state.finish total = .ok tree ↔
      state.pending = none ∧ state.outer = [] ∧ state.entries = tree := by
  unfold finish
  split
  · next clear outermost => simp [clear, outermost]
  · next unfinished =>
    constructor
    · intro finished
      contradiction
    · rintro ⟨clear, outermost, -⟩
      exact absurd outermost (unfinished clear)

end State

theorem parse_eq_ok_iff {text : Text} {tree : Group} :
    parse text = .ok tree ↔
      ∃ final, State.start.run (Source.ofText text).lines = .ok final ∧ final.pending = none ∧
        final.outer = [] ∧ final.entries = tree := by
  rw [parse]
  simp only [bind_eq_ok, State.finish_eq_ok_iff]

theorem parse_append (first second : Text) :
    parse (first ++ '\n' :: second) =
      State.start.run (Source.ofText first).lines >>= fun state =>
        state.run (contentLines (physicalLines second) ((physicalLines first).length + 1)) >>=
          State.finish ((physicalLines first).length + (physicalLines second).length) := by
  have lines : (Source.ofText (first ++ '\n' :: second)).lines = (Source.ofText first).lines ++
      contentLines (physicalLines second) ((physicalLines first).length + 1) := by
    rw [Source.ofText, physicalLines_append, contentLines_append, Nat.add_comm 1]
    rfl
  have total : (Source.ofText (first ++ '\n' :: second)).total =
      (physicalLines first).length + (physicalLines second).length := by
    rw [Source.ofText, physicalLines_append, List.length_append]
  rw [parse, lines, total, State.run_append, bind_assoc]

end ScopedConfig
