import ScopedConfig.Proofs.Faults
import ScopedConfig.Proofs.Lines

/-!
What a state remembers of the lines that led to it. Every variable in sight and every part of a value
that is being read stands on one of these lines. The variables of a frame differ in their names, and
those of an inner frame were declared after those of the frames around it.
-/

namespace ScopedConfig

def Target.written : Target → Text → Text
  | .key, name => name
  | .binding, name => '$' :: name

theorem Head.written {target : Target} {line name value : Text}
    (head : Head target line name value) : target.written name <+: line := by
  cases head with
  | key named longest separated => exact List.prefix_append _ _
  | binding named longest separated => exact List.prefix_append ('$' :: name) _

theorem head_of_defined {text name : Text} {statement : Statement} {target : Target}
    (shown : Statement.ofText? text = some statement)
    (defined : statement.defined? = some (target, name)) :
    ∃ value, Head target text name value := by
  cases statement with
  | close => contradiction
  | opening other otherName =>
    cases defined
    exact ⟨_, Statement.head_of_opening shown⟩
  | value other otherName rest =>
    cases defined
    exact ⟨_, (Statement.head_of_value shown).1⟩

namespace Scopes

theorem mem_of_local? {scopes : Scopes} {name : Text} {declared : Variable}
    (found : scopes.local? name = some declared) :
    ∃ frame ∈ scopes.frames, (name, declared) ∈ frame := by
  obtain ⟨frames⟩ := scopes
  cases frames with
  | nil => contradiction
  | cons frame frames =>
    obtain ⟨before, after, shape, -⟩ := List.lookup_eq_some_iff.mp found
    rw [innermost, List.headD_cons] at shape
    exact ⟨frame, List.mem_cons_self, by simp [shape]⟩

/-- Variables that were declared on the lines `read`, in the order of their frames. -/
structure Recorded (read : List Line) (scopes : Scopes) : Prop where
  declared : ∀ frame ∈ scopes.frames, ∀ entry ∈ frame,
    ∃ line ∈ read, line.number = entry.2.line ∧ '$' :: entry.1 <+: line.text
  distinct : ∀ frame ∈ scopes.frames, (frame.map Prod.fst).Nodup
  nested : scopes.frames.Pairwise fun inner outer =>
    ∀ entry ∈ inner, ∀ other ∈ outer, other.2.line < entry.2.line

variable {read more : List Line} {scopes : Scopes}

theorem Recorded.mono (recorded : scopes.Recorded read) (subset : read ⊆ more) :
    scopes.Recorded more := by
  refine ⟨?_, recorded.distinct, recorded.nested⟩
  intro frame member entry within
  obtain ⟨line, present, shown⟩ := recorded.declared frame member entry within
  exact ⟨line, subset present, shown⟩

theorem Recorded.enter (recorded : scopes.Recorded read) : scopes.enter.Recorded read := by
  constructor
  · intro frame member entry within
    rcases List.mem_cons.mp member with rfl | member
    · exact absurd within List.not_mem_nil
    · exact recorded.declared frame member entry within
  · intro frame member
    rcases List.mem_cons.mp member with rfl | member
    · exact List.nodup_nil
    · exact recorded.distinct frame member
  · apply List.Pairwise.cons _ recorded.nested
    intro outer _ entry within
    exact absurd within List.not_mem_nil

theorem Recorded.exit (recorded : scopes.Recorded read) : scopes.exit.Recorded read := by
  constructor
  · intro frame member
    exact recorded.declared frame (List.mem_of_mem_tail member)
  · intro frame member
    exact recorded.distinct frame (List.mem_of_mem_tail member)
  · exact recorded.nested.sublist (List.tail_sublist _)

theorem Recorded.extend (recorded : scopes.Recorded read) {name value : Text} {number : Nat}
    (fresh : scopes.local? name = none)
    (begun : ∃ line ∈ read, line.number = number ∧ '$' :: name <+: line.text)
    (latest : ∀ frame ∈ scopes.frames, ∀ entry ∈ frame, entry.2.line < number) :
    (scopes.extend name ⟨value, number⟩).Recorded read := by
  obtain ⟨frames⟩ := scopes
  have inner : ∀ entry ∈ Scopes.innermost ⟨frames⟩, ∃ frame ∈ frames, entry ∈ frame := by
    cases frames with
    | nil => simp [Scopes.innermost]
    | cons frame frames => exact fun entry within => ⟨frame, List.mem_cons_self, within⟩
  constructor
  · intro frame member entry within
    rcases List.mem_cons.mp member with rfl | member
    · rcases List.mem_cons.mp within with rfl | within
      · exact begun
      · obtain ⟨frame, member, within⟩ := inner entry within
        exact recorded.declared frame member entry within
    · exact recorded.exit.declared frame member entry within
  · intro frame member
    rcases List.mem_cons.mp member with rfl | member
    · rw [List.map_cons, List.nodup_cons]
      constructor
      · intro again
        obtain ⟨entry, within, same⟩ := List.mem_map.mp again
        have different := List.lookup_eq_none_iff.mp fresh entry within
        simp [same] at different
      · cases frames with
        | nil => exact List.nodup_nil
        | cons frame frames => exact recorded.distinct frame List.mem_cons_self
    · exact recorded.exit.distinct frame member
  · apply List.Pairwise.cons _ recorded.exit.nested
    intro outer member entry within other withinOuter
    rcases List.mem_cons.mp within with rfl | within
    · exact latest outer (List.mem_of_mem_tail member) other withinOuter
    · cases frames with
      | nil => exact absurd within List.not_mem_nil
      | cons frame frames =>
        exact (List.pairwise_cons.mp recorded.nested).1 outer member entry within other withinOuter

end Scopes

/-- A value that is being read: its name and its tokens stand on the lines `read`, and the variables
in sight were declared before. -/
structure Pending.Recorded (read : List Line) (scopes : Scopes) (pending : Pending) : Prop where
  named : IsName pending.name
  begun : ∃ line ∈ read,
    line.number = pending.line ∧ pending.target.written pending.name <+: line.text
  latest : ∀ frame ∈ scopes.frames, ∀ entry ∈ frame, entry.2.line < pending.line
  spelled : ∀ token ∈ pending.segment.tokens,
    ∃ line ∈ read, line.number = token.line ∧ token.kind.spelling <:+: line.text

theorem Pending.Recorded.mono {read more : List Line} {scopes : Scopes} {pending : Pending}
    (recorded : pending.Recorded read scopes) (subset : read ⊆ more) :
    pending.Recorded more scopes := by
  refine ⟨recorded.named, ?_, recorded.latest, ?_⟩
  · obtain ⟨line, present, shown⟩ := recorded.begun
    exact ⟨line, subset present, shown⟩
  · intro token member
    obtain ⟨line, present, shown⟩ := recorded.spelled token member
    exact ⟨line, subset present, shown⟩

theorem spelled_on_line {line : Line} {spaced : Bool} {part : Text} {segment : Segment}
    {read : List Line} (lexed : lex line.number spaced part = .ok segment)
    (within : part <:+ line.text) (present : line ∈ read) :
    ∀ token ∈ segment.tokens,
      ∃ line ∈ read, line.number = token.line ∧ token.kind.spelling <:+: line.text := by
  intro token member
  obtain ⟨number, spelled⟩ := spelled_of_lex lexed token member
  exact ⟨line, present, number.symm, spelled.trans within.isInfix⟩

namespace State

structure Recorded (read : List Line) (state : State) : Prop where
  scopes : state.scopes.Recorded read
  named : ∀ group ∈ state.outer, IsName group.name
  reading : ∀ pending ∈ state.pending, pending.Recorded read state.scopes

variable {read : List Line} {state next : State}

theorem recorded_start : start.Recorded [] := by
  refine ⟨⟨?_, ?_, ?_⟩, ?_, ?_⟩ <;> simp [start, Scopes.enter, Scopes.empty]

theorem Recorded.mono {more : List Line} (recorded : state.Recorded read) (subset : read ⊆ more) :
    state.Recorded more :=
  ⟨recorded.scopes.mono subset, recorded.named,
    fun pending member => (recorded.reading pending member).mono subset⟩

theorem Recorded.settle {pending : Pending} (recorded : state.Recorded read)
    (reading : pending.Recorded read state.scopes) (settled : state.settle pending = .ok next) :
    next.Recorded read := by
  unfold State.settle at settled
  split at settled
  · cases settled
    refine ⟨recorded.scopes, recorded.named, ?_⟩
    intro other member
    obtain rfl : pending = other := by simpa using member
    exact reading
  · obtain ⟨target, name, number, segment⟩ := pending
    obtain ⟨value, -, ⟨-, rfl⟩ | ⟨rfl, fresh, rfl⟩⟩ := assign_cases settled
    · exact ⟨recorded.scopes, recorded.named, by simp⟩
    · exact ⟨recorded.scopes.extend fresh reading.begun reading.latest, recorded.named, by simp⟩

/-- What a line adds to what is remembered stands on the line. It has to come after all lines that
were read before it, so that what it declares is younger than what they declare. -/
theorem Recorded.step {line : Line} (recorded : state.Recorded read)
    (later : ∀ earlier ∈ read, earlier.number < line.number) (stepped : state.step line = .ok next) :
    next.Recorded (read ++ [line]) := by
  have wider := recorded.mono (List.subset_append_left read [line])
  have present : line ∈ read ++ [line] := List.mem_append_right read List.mem_cons_self
  cases reading : state.pending with
  | none =>
    simp only [State.step, reading] at stepped
    rcases begin_cases stepped with ⟨-, closed⟩ | ⟨name, shown, -, rfl⟩ |
      ⟨target, name, rest, segment, shown, -, lexed, settled⟩
    · obtain ⟨group, outer, inside, rfl⟩ := closeGroup_cases closed
      refine ⟨wider.scopes.exit, ?_, by simp⟩
      intro other member
      exact recorded.named other (by rw [inside]; exact List.mem_cons_of_mem group member)
    · refine ⟨wider.scopes.enter, ?_, by simp [State.openGroup]⟩
      intro group member
      rcases List.mem_cons.mp member with rfl | member
      · exact (Statement.head_of_opening shown).named
      · exact recorded.named group member
    · have head := (Statement.head_of_value shown).1
      apply wider.settle _ settled
      refine ⟨head.named, ⟨line, present, rfl, head.written⟩, ?_, ?_⟩
      · intro frame member entry within
        obtain ⟨earlier, known, number, -⟩ := recorded.scopes.declared frame member entry within
        exact number ▸ later earlier known
      · exact spelled_on_line lexed head.suffix present
  | some pending =>
    rw [step_pending reading] at stepped
    obtain ⟨segment, extended, settled⟩ := bind_eq_ok.mp stepped
    obtain ⟨added, lexed, rfl⟩ := map_eq_ok.mp extended
    have before := wider.reading pending reading
    apply wider.settle _ settled
    refine ⟨before.named, before.begun, before.latest, ?_⟩
    intro token member
    rcases List.mem_append.mp member with member | member
    · exact before.spelled token member
    · exact spelled_on_line lexed (List.suffix_refl _) present token member

theorem Recorded.run {lines : List Line} (recorded : state.Recorded read)
    (increasing : (read ++ lines).Pairwise fun line later => line.number < later.number)
    (ran : state.run lines = .ok next) : next.Recorded (read ++ lines) := by
  induction lines generalizing state read with
  | nil =>
    cases ran
    rwa [List.append_nil]
  | cons line lines ih =>
    rw [run_cons] at ran
    obtain ⟨between, stepped, ran⟩ := bind_eq_ok.mp ran
    have later := (List.pairwise_append.mp increasing).2.2
    have after := recorded.step (fun earlier known => later earlier known line List.mem_cons_self)
      stepped
    rw [List.append_cons] at increasing ⊢
    exact ih after increasing ran

end State

theorem recorded_of_run {text : Text} {before after : List Line} {reached : State}
    (shape : (Source.ofText text).lines = before ++ after)
    (ran : State.start.run before = .ok reached) : reached.Recorded before := by
  have increasing := source_increasing text
  rw [shape] at increasing
  exact State.recorded_start.run (List.pairwise_append.mp increasing).1 ran

end ScopedConfig
