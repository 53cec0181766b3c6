import ScopedConfig.Descent
import ScopedConfig.Proofs.Steps

namespace ScopedConfig

namespace State

variable {state : State} {target : Target} {name : Text} {number total : Nat}

theorem settle_whole (tokens : List Token) :
    (state.settle ⟨target, name, number, ⟨tokens, false⟩⟩ >>= fun next => next.run []) =
      state.assign ⟨target, name, number, ⟨tokens, false⟩⟩ := by
  rw [settle, if_neg (by simp)]
  cases state.assign ⟨target, name, number, ⟨tokens, false⟩⟩ <;> rfl

theorem run_of_complete {segment : Segment} {lines rest : List Line} {tokens : List Token}
    (completed : segment.complete total lines = (.ok tokens, rest)) :
    ∃ read, lines = read ++ rest ∧
      (state.settle ⟨target, name, number, segment⟩ >>= fun next => next.run read) =
        state.assign ⟨target, name, number, ⟨tokens, false⟩⟩ := by
  obtain ⟨known, continues⟩ := segment
  induction lines generalizing known continues state with
  | nil =>
    cases continues with
    | true => simp [Segment.complete] at completed
    | false =>
      cases completed
      exact ⟨[], rfl, settle_whole known⟩
  | cons line lines ih =>
    cases continues with
    | true =>
      rw [Segment.complete, if_pos rfl] at completed
      cases extended : Segment.extend ⟨known, true⟩ line with
      | error error => simp [extended] at completed
      | ok longer =>
        simp only [extended] at completed
        obtain ⟨read, shape, ran⟩ := ih longer.tokens longer.continues completed
        refine ⟨line :: read, by rw [shape]; rfl, ?_⟩
        rw [settle, if_pos rfl, ok_bind, run_cons, step_pending rfl, extended, ok_bind, ran]
        rfl
    | false =>
      cases completed
      exact ⟨[], rfl, settle_whole known⟩

theorem run_of_incomplete {segment : Segment} {lines rest : List Line} {error : ParseError}
    (completed : segment.complete total lines = (.error error, rest)) :
    (state.settle ⟨target, name, number, segment⟩ >>= fun next =>
      next.run lines >>= finish total) = .error error := by
  obtain ⟨known, continues⟩ := segment
  induction lines generalizing known continues state with
  | nil =>
    cases continues with
    | true =>
      cases completed
      rfl
    | false => simp [Segment.complete] at completed
  | cons line lines ih =>
    cases continues with
    | true =>
      rw [Segment.complete, if_pos rfl] at completed
      rw [settle, if_pos rfl, ok_bind, run_cons, step_pending rfl]
      cases extended : Segment.extend ⟨known, true⟩ line with
      | error error =>
        simp only [extended] at completed
        cases completed
        rfl
      | ok longer =>
        simp only [extended] at completed
        rw [ok_bind, bind_assoc]
        exact ih longer.tokens longer.continues completed
    | false => simp [Segment.complete] at completed

variable {line : Line} {rest : Text} {source : Source}

theorem run_statement {value : Text} (clear : state.pending = none)
    (shown : Statement.ofText? line.text = some (.value target name rest))
    (free : state.checkNew target name line.number = .ok ())
    (read : ((readValue rest line.number source).1 >>=
      join state.scopes (state.qualified name)) = .ok value) :
    ∃ taken tokens, source.lines = taken ++ (readValue rest line.number source).2.lines ∧
      join state.scopes (state.qualified name) tokens = .ok value ∧
      state.run (line :: taken) = state.assign ⟨target, name, line.number, ⟨tokens, false⟩⟩ := by
  unfold readValue at read ⊢
  cases first : lex line.number false rest with
  | error error =>
    simp only [first] at read
    contradiction
  | ok segment =>
    simp only [first] at read ⊢
    rcases completed : segment.complete source.total source.lines with ⟨result, later⟩
    simp only [completed] at read ⊢
    cases result with
    | error error => contradiction
    | ok tokens =>
      obtain ⟨taken, shape, ran⟩ := run_of_complete completed
      refine ⟨taken, tokens, shape, read, ?_⟩
      rw [run_cons, step_value clear shown free, first, ok_bind]
      exact ran

theorem run_statement_error {error : ParseError} (clear : state.pending = none)
    (shown : Statement.ofText? line.text = some (.value target name rest))
    (free : state.checkNew target name line.number = .ok ())
    (read : ((readValue rest line.number source).1 >>=
      join state.scopes (state.qualified name)) = .error error) :
    (state.run (line :: source.lines) >>= finish source.total) = .error error := by
  unfold readValue at read
  rw [run_cons, step_value clear shown free]
  cases first : lex line.number false rest with
  | error found =>
    simp only [first] at read
    cases read
    rfl
  | ok segment =>
    simp only [first] at read
    rcases completed : segment.complete source.total source.lines with ⟨result, later⟩
    simp only [completed] at read
    rw [ok_bind, bind_assoc]
    cases result with
    | error found =>
      cases read
      exact run_of_incomplete completed
    | ok tokens =>
      obtain ⟨taken, shape, ran⟩ := run_of_complete completed
      rw [ok_bind] at read
      have unassigned : state.assign ⟨target, name, line.number, ⟨tokens, false⟩⟩ =
          .error error := by
        rw [assign, read]
        rfl
      simp only [shape, run_append, ← bind_assoc]
      rw [ran, unassigned]
      rfl

end State

namespace Parser

variable {parser here inner after reached : Parser} {depth : Nat} {items : Group} {state : State}
  {line : Line} {move : Move} {result : Except ParseError Group}

/-- Between two statements, a parser in the middle of a group and a state stand for one another. -/
structure Mirrors (parser : Parser) (depth : Nat) (items : Group) (state : State) : Prop where
  scopes : state.scopes = parser.scopes
  path : state.path = parser.path
  entries : state.entries = items
  clear : state.pending = none
  depth : depth = state.outer.length

theorem mirrors_start (text : Text) : Mirrors (ofText text).enterScope 0 .empty .start :=
  ⟨rfl, rfl, rfl, rfl, rfl⟩

theorem Mirrors.qualified (mirrors : Mirrors parser depth items state) (name : Text) :
    state.qualified name = parser.qualified name := by
  rw [State.qualified, mirrors.path, Parser.qualified]

theorem Mirrors.outermost_iff (mirrors : Mirrors parser depth items state) :
    depth = 0 ↔ state.outer = [] := by
  rw [mirrors.depth, List.length_eq_zero_iff]

theorem Mirrors.checkNew_key (mirrors : Mirrors parser depth items state) (name : Text)
    (number : Nat) : state.checkNew .key name number = parser.ensureNew items name number := by
  simp only [State.checkNew, ensureNew, mirrors.entries, mirrors.qualified]

theorem Mirrors.of_fetch? (mirrors : Mirrors parser depth items state)
    (fetched : parser.fetch? = some (line, here)) : Mirrors here depth items state := by
  obtain ⟨-, -, scopes, path⟩ := fetch?_eq_some fetched
  exact ⟨mirrors.scopes.trans scopes.symm, mirrors.path.trans path.symm, mirrors.entries,
    mirrors.clear, mirrors.depth⟩

theorem Mirrors.openGroup (mirrors : Mirrors parser depth items state) (name : Text) :
    Mirrors (parser.push name).enterScope (parser.push name).path.length .empty
      (state.openGroup name) := by
  have path : (state.openGroup name).path = parser.path ++ [name] := by
    rw [← mirrors.path]
    simp [State.path, State.openGroup]
  refine ⟨?_, path, rfl, rfl, ?_⟩
  · rw [State.openGroup, mirrors.scopes]
    rfl
  · rw [push, ← path, State.path]
    simp

inductive Turned (here : Parser) (depth : Nat) (items : Group) (state : State) (line : Line) :
    Move → Parser → Prop where
  | fails {error : ParseError} {after : Parser}
    (ended : (state.run (line :: here.source.lines) >>= State.finish here.source.total) =
      .error error) :
    Turned here depth items state line (.ends (.error error)) after
  | closes {group : OpenGroup} {outer : List OpenGroup} (inside : state.outer = group :: outer)
    (stepped : state.step line = .ok ⟨here.scopes.exit, outer,
      group.before.insert group.name (.group items), none⟩) :
    Turned here depth items state line (.ends (.ok items)) here
  | goesOn {more : Group} {next : State} {after : Parser} {taken : List Line}
    (shape : here.source.lines = taken ++ after.source.lines)
    (ran : state.run (line :: taken) = .ok next) (mirrors : Mirrors after depth more next)
    (outer : next.outer = state.outer) :
    Turned here depth items state line (.goesOn more) after
  | enters {name : Text} (stepped : state.step line = .ok (state.openGroup name)) :
    Turned here depth items state line (.enters name) (here.push name)

theorem turned_of_failure {error : ParseError} (failed : state.step line = .error error) :
    Turned here depth items state line (.ends (.error error)) after := by
  apply Turned.fails
  rw [State.run_cons, failed]
  rfl

theorem Mirrors.turned_close (mirrors : Mirrors here depth items state)
    (shown : Statement.ofText? line.text = some .close) :
    Turned here depth items state line
      (.ends (if depth = 0 then .error (.strayClose line.number) else .ok items)) here := by
  have closes : state.step line = state.closeGroup line.number :=
    State.step_close mirrors.clear shown
  cases groups : state.outer with
  | nil =>
    rw [if_pos (mirrors.outermost_iff.mpr groups)]
    apply turned_of_failure
    rw [closes, State.closeGroup, groups]
  | cons group outer =>
    have nested : depth ≠ 0 := by simp [mirrors.outermost_iff, groups]
    rw [if_neg nested]
    apply Turned.closes groups
    rw [closes, State.closeGroup_inside groups, mirrors.entries, mirrors.scopes]

theorem Mirrors.turned_scalar (mirrors : Mirrors here depth items state) {name rest : Text}
    (shown : Statement.ofText? line.text = some (.value .key name rest)) :
    Turned here depth items state line
      (.ofResult (here.readScalar items name rest line.number).1)
      (here.readScalar items name rest line.number).2 := by
  have checked := mirrors.checkNew_key name line.number
  have path := mirrors.qualified name
  unfold readScalar
  cases free : here.ensureNew items name line.number with
  | error error =>
    rw [free] at checked
    apply turned_of_failure
    simp only [State.step, mirrors.clear, State.begin, shown, checked]
    rfl
  | ok _ =>
    rw [free] at checked
    dsimp only
    rw [← path, ← mirrors.scopes]
    cases read : (readValue rest line.number here.source).1 >>=
        join state.scopes (state.qualified name) with
    | error error => exact .fails (State.run_statement_error mirrors.clear shown checked read)
    | ok value =>
      obtain ⟨taken, tokens, shape, joined, ran⟩ :=
        State.run_statement mirrors.clear shown checked read
      apply Turned.goesOn shape (ran.trans (State.assign_key joined)) _ rfl
      exact ⟨rfl, mirrors.path, by rw [mirrors.entries], rfl, mirrors.depth⟩

theorem Mirrors.turned_variable (mirrors : Mirrors here depth items state) {name rest : Text}
    (shown : Statement.ofText? line.text = some (.value .binding name rest)) :
    Turned here depth items state line
      (.ofResult ((here.readVariable name rest line.number).1.map fun _ => items))
      (here.readVariable name rest line.number).2 := by
  have path := mirrors.qualified name
  rw [readVariable, ← mirrors.scopes, ← path]
  dsimp only
  cases found : state.scopes.local? name with
  | some first =>
    apply turned_of_failure
    simp only [State.step, mirrors.clear, State.begin, shown, State.checkNew, found]
    rfl
  | none =>
    have checked : state.checkNew .binding name line.number = .ok () :=
      State.checkNew_binding found
    dsimp only
    cases read : (readValue rest line.number here.source).1 >>=
        join state.scopes (state.qualified name) with
    | error error => exact .fails (State.run_statement_error mirrors.clear shown checked read)
    | ok value =>
      obtain ⟨taken, tokens, shape, joined, ran⟩ :=
        State.run_statement mirrors.clear shown checked read
      dsimp only
      rw [Scopes.declare_new _ name value line.number found]
      apply Turned.goesOn shape (ran.trans (State.assign_binding joined found)) _ rfl
      exact ⟨rfl, mirrors.path, mirrors.entries, rfl, mirrors.depth⟩

/-- A turn of the parser is what the state does with the lines that the turn takes. -/
theorem Mirrors.turned (mirrors : Mirrors here depth items state) (line : Line) :
    Turned here depth items state line (here.turn depth items line).1
      (here.turn depth items line).2 := by
  unfold turn
  split
  · next shown =>
    apply turned_of_failure
    simp only [State.step, mirrors.clear, State.begin, shown]
  · next shown => exact mirrors.turned_close shown
  · next name shown =>
    apply turned_of_failure
    simp only [State.step, mirrors.clear, State.begin, shown, mirrors.qualified]
  · next name shown =>
    have checked := mirrors.checkNew_key name line.number
    split
    · next error taken =>
      rw [taken] at checked
      apply turned_of_failure
      simp only [State.step, mirrors.clear, State.begin, shown, checked]
      rfl
    · next fresh =>
      rw [fresh] at checked
      exact .enters (State.step_opening mirrors.clear shown (State.fresh_of_checkNew checked))
  · next name rest shown => exact mirrors.turned_variable shown
  · next name rest shown => exact mirrors.turned_scalar shown

theorem Mirrors.turned_of_turn (mirrors : Mirrors here depth items state)
    (taken : here.turn depth items line = (move, after)) :
    Turned here depth items state line move after := by
  have turned := mirrors.turned line
  rwa [taken] at turned

end Parser

end ScopedConfig
