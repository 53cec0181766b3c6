import ScopedConfig.Proofs.Mirroring
import ScopedConfig.Proofs.Records
import ScopedConfig.Proofs.Restoration

/-!
Recursive descent against the reading line by line. Both come to the same, and whenever a line is
fetched, the lines before it have led to a state that stands for the parser; what is known of such
states holds of the parser.
-/

namespace ScopedConfig

namespace Parser

variable {parser here inner after reached : Parser} {depth : Nat} {items : Group} {state : State}
  {line : Line} {result : Except ParseError Group}

/-- What the lines that are left to a state come to, when the entries of its innermost group are
read: an error, the end of the text outside every group, or the closing of the group. -/
inductive Ends (total : Nat) (state : State) (lines : List Line) :
    Except ParseError Group → Parser → Prop where
  | fails {error : ParseError} {after : Parser}
    (ended : (state.run lines >>= State.finish total) = .error error) :
    Ends total state lines (.error error) after
  | finishes {body : Group} {after : Parser} (outermost : state.outer = [])
    (ended : (state.run lines >>= State.finish total) = .ok body) :
    Ends total state lines (.ok body) after
  | closes {body : Group} {after : Parser} {group : OpenGroup} {outer : List OpenGroup}
    {taken : List Line} (inside : state.outer = group :: outer)
    (shape : lines = taken ++ after.source.lines)
    (ran : state.run taken = .ok ⟨after.scopes.exit, outer,
      group.before.insert group.name (.group body), none⟩) :
    Ends total state lines (.ok body) after

theorem Ends.precede {total : Nat} {next : State} {lines first : List Line}
    (ends : Ends total next lines result after) (ran : state.run first = .ok next)
    (same : next.outer = state.outer) : Ends total state (first ++ lines) result after := by
  cases ends with
  | fails ended =>
    apply Ends.fails
    rwa [State.run_append, ran]
  | finishes outermost ended =>
    apply Ends.finishes (same ▸ outermost)
    rwa [State.run_append, ran]
  | @closes body _ group outer taken inside shape later =>
    have longer : first ++ lines = (first ++ taken) ++ after.source.lines := by
      rw [shape, List.append_assoc]
    apply Ends.closes (same ▸ inside) longer
    rwa [State.run_append, ran]

theorem ends_exhausted (mirrors : Mirrors parser depth items state) (total : Nat) :
    Ends total state [] (if depth = 0 then .ok items else .error (.unfinished total)) after := by
  cases groups : state.outer with
  | nil =>
    rw [if_pos (mirrors.outermost_iff.mpr groups)]
    apply Ends.finishes groups
    rw [State.run_nil, ok_bind, State.finish, mirrors.clear, groups, mirrors.entries]
  | cons group outer =>
    have nested : depth ≠ 0 := by simp [mirrors.outermost_iff, groups]
    rw [if_neg nested]
    apply Ends.fails
    rw [State.run_nil, ok_bind, State.finish, mirrors.clear, groups]

theorem Mirrors.entered {name : Text} (mirrors : Mirrors parser depth items state)
    (fetched : parser.fetch? = some (line, here))
    (taken : here.turn depth items line = (.enters name, inner)) :
    parser.source.lines = line :: inner.source.lines ∧
      state.step line = .ok (state.openGroup name) ∧
      Mirrors inner.enterScope inner.path.length .empty (state.openGroup name) := by
  have mirrorsHere := mirrors.of_fetch? fetched
  cases mirrorsHere.turned_of_turn taken with
  | enters stepped => exact ⟨(fetch?_eq_some fetched).1, stepped, mirrorsHere.openGroup name⟩

theorem Mirrors.returned {name : Text} {body : Group} (mirrors : Mirrors parser depth items state)
    (fetched : parser.fetch? = some (line, here))
    (taken : here.turn depth items line = (.enters name, inner))
    (inside : Reads inner.path.length .empty inner.enterScope (.ok body) reached)
    (ends : Ends inner.source.total (state.openGroup name) inner.source.lines (.ok body) reached) :
    ∃ first next, parser.source.lines = first ++ reached.source.lines ∧
      state.run first = .ok next ∧ next.outer = state.outer ∧
      Mirrors reached.exitScope.pop depth (items.insert name (.group body)) next := by
  obtain ⟨lines, stepped, -⟩ := mirrors.entered fetched taken
  have back := path_returned fetched taken (inside.kept.2 body rfl)
  cases ends with
  | finishes outermost ended => exact absurd outermost (List.cons_ne_nil _ _)
  | @closes _ _ group outer first groups shape ran =>
    obtain ⟨rfl, rfl⟩ := List.cons.inj groups
    refine ⟨line :: first,
      ⟨reached.scopes.exit, state.outer, state.entries.insert name (.group body), none⟩, ?_, ?_,
      rfl, rfl, mirrors.path.trans back.symm, by rw [mirrors.entries], rfl, mirrors.depth⟩
    · rw [lines, shape, List.cons_append]
    · rw [State.run_cons, stepped, ok_bind, ran]

theorem Reads.ends_of_mirrors (reads : Reads depth items parser result after)
    (mirrors : Mirrors parser depth items state) :
    Ends parser.source.total state parser.source.lines result after := by
  induction reads generalizing state with
  | exhausted fetched =>
    rw [lines_of_exhausted fetched]
    exact ends_exhausted mirrors _
  | ends fetched taken =>
    obtain ⟨lines, total, -, -⟩ := fetch?_eq_some fetched
    rw [lines, ← total]
    cases (mirrors.of_fetch? fetched).turned_of_turn taken with
    | fails ended => exact .fails ended
    | closes inside stepped =>
      apply Ends.closes inside List.singleton_append.symm
      rw [State.run_cons, stepped]
      rfl
  | goesOn fetched taken later ih =>
    obtain ⟨lines, -, -, -⟩ := fetch?_eq_some fetched
    obtain ⟨kept, -⟩ := kept_of_turn fetched taken
    cases (mirrors.of_fetch? fetched).turned_of_turn taken with
    | goesOn shape ran nextMirrors outer =>
      rw [lines, shape, ← List.cons_append, ← kept.total]
      exact (ih nextMirrors).precede ran outer
  | fails fetched taken inside ih =>
    obtain ⟨lines, stepped, opened⟩ := mirrors.entered fetched taken
    obtain ⟨kept, -⟩ := kept_of_turn fetched taken
    cases ih opened with
    | fails ended =>
      apply Ends.fails
      rw [lines, ← kept.total, State.run_cons, stepped]
      exact ended
  | @returns depth items body parser here inner reached after line name result fetched taken inside
      later ih ihLater =>
    obtain ⟨-, -, opened⟩ := mirrors.entered fetched taken
    obtain ⟨first, next, shape, ran, outer, returned⟩ :=
      mirrors.returned fetched taken inside (ih opened)
    obtain ⟨kept, -⟩ := kept_of_turn fetched taken
    rw [shape, ← (kept.trans inside.kept.1.exitScope).total]
    exact (ihLater returned).precede ran outer

/-- Recursive descent and the reading line by line come to the same. -/
theorem readGroup_eq_parse (text : Text) : (ofText text).readGroup.result = parse text := by
  obtain ⟨reached, reads, -⟩ := (ofText text).reads_readGroup
  have ends := reads.ends_of_mirrors (mirrors_start text)
  have whole : parse text = State.start.run (Source.ofText text).lines >>=
      State.finish (Source.ofText text).total := rfl
  rw [whole]
  generalize (ofText text).readGroup.result = result at ends
  cases ends with
  | fails ended => exact ended.symm
  | finishes outermost ended => exact ended.symm
  | closes inside shape ran => contradiction

theorem Fetches.mirrored {text : Text} {names : List Text}
    (fetches : Fetches text names depth items parser) :
    ∃ read state, (Source.ofText text).lines = read ++ parser.source.lines ∧
      State.start.run read = .ok state ∧ Mirrors parser depth items state ∧ parser.path = names := by
  induction fetches with
  | start => exact ⟨[], .start, rfl, rfl, mirrors_start text, rfl⟩
  | @goesOn names depth items more parser here after line fetches fetched taken ih =>
    obtain ⟨read, state, shape, ran, mirrors, path⟩ := ih
    obtain ⟨lines, -, -, -⟩ := fetch?_eq_some fetched
    cases (mirrors.of_fetch? fetched).turned_of_turn taken with
    | @goesOn _ next _ first remaining later nextMirrors outer =>
      refine ⟨read ++ line :: first, next, ?_, ?_, nextMirrors, ?_⟩
      · rw [shape, lines, remaining]
        simp
      · rw [State.run_append, ran]
        exact later
      · exact (kept_of_turn fetched taken).2.trans path
  | @enters names depth items parser here inner line name fetches fetched taken ih =>
    obtain ⟨read, state, shape, ran, mirrors, path⟩ := ih
    obtain ⟨lines, stepped, opened⟩ := mirrors.entered fetched taken
    refine ⟨read ++ [line], state.openGroup name, ?_, ?_, opened, ?_⟩
    · rw [shape, lines, List.append_cons]
      rfl
    · rw [State.run_append, ran, ok_bind, State.run_cons, stepped]
      rfl
    · rw [← path]
      exact (kept_of_turn fetched taken).2
  | @returns names depth items body parser here inner line name fetches fetched taken complete ih =>
    obtain ⟨read, state, shape, ran, mirrors, path⟩ := ih
    obtain ⟨reached, reads, after⟩ := inner.reads_readGroup
    rw [complete] at reads
    obtain ⟨-, -, opened⟩ := mirrors.entered fetched taken
    obtain ⟨first, next, remaining, later, outer, returned⟩ :=
      mirrors.returned fetched taken reads (reads.ends_of_mirrors opened)
    rw [after]
    refine ⟨read ++ first, next, ?_, ?_, returned, ?_⟩
    · rw [shape, remaining, List.append_assoc]
      rfl
    · rw [State.run_append, ran]
      exact later
    · exact (path_returned fetched taken (reads.kept.2 body rfl)).trans path

theorem Fetches.orderly {text : Text} {names : List Text}
    (fetches : Fetches text names depth items parser) : parser.Orderly text names := by
  obtain ⟨read, state, shape, ran, mirrors, path⟩ := fetches.mirrored
  have sound := State.sound_start.run read ran
  have recorded := (recorded_of_run shape ran).scopes
  rw [mirrors.scopes] at recorded
  refine ⟨?_, path, recorded.distinct, ?_, recorded.nested⟩
  · rw [← mirrors.scopes, ← mirrors.path, sound.frames, State.path, List.length_reverse,
      List.length_map]
  · intro frame member entry within
    obtain ⟨line, known, number, -⟩ := recorded.declared frame member entry within
    exact ⟨read, shape, List.mem_map.mpr ⟨line, known, number⟩⟩

theorem declare_inside {scopes : Scopes} {name : Text} (inside : scopes.frames ≠ [])
    (fresh : scopes.local? name = none) (number : Nat) :
    ∃ frame outer, scopes.frames = frame :: outer ∧ ∀ value,
      scopes.declare name value number = .ok ⟨((name, ⟨value, number⟩) :: frame) :: outer⟩ := by
  obtain ⟨frames⟩ := scopes
  cases frames with
  | nil => exact absurd rfl inside
  | cons frame outer =>
    exact ⟨frame, outer, rfl, fun value => Scopes.declare_new _ name value number fresh⟩

/-- Recursive descent reads what is read line by line. Every group gives back the frames that it was
given, and the path if it is read without a fault. Whenever a line is fetched, frames and path are
those of the open groups, so that a variable which its group does not have yet is put into a frame
that is there. -/
theorem readGroup_orderly (text : Text) :
    (ofText text).readGroup.result = parse text ∧
      (∀ parser : Parser, parser.readGroup.after.scopes = parser.scopes ∧
        ∀ body, parser.readGroup.result = .ok body →
          parser.readGroup.after.path = parser.path) ∧
      ∀ names depth items parser, Fetches text names depth items parser →
        parser.Orderly text names ∧
          ∀ line here, parser.fetch? = some (line, here) →
            ∀ name, here.scopes.local? name = none →
              ∃ frame outer, here.scopes.frames = frame :: outer ∧ ∀ value,
                here.scopes.declare name value line.number =
                  .ok ⟨((name, ⟨value, line.number⟩) :: frame) :: outer⟩ := by
  refine ⟨readGroup_eq_parse text, readGroup_kept, ?_⟩
  intro names depth items parser fetches
  constructor
  · exact fetches.orderly
  · intro line here fetched name fresh
    obtain ⟨-, -, scopes, -⟩ := fetch?_eq_some fetched
    apply declare_inside _ fresh
    intro none
    have frames := fetches.orderly.frames
    rw [← scopes, none] at frames
    contradiction

deriving instance DecidableEq for Move

theorem readGroup_orderly_inside :
    let text : Text := "g \x7b\n$x = 1\n$y = $x\n\x7d".toList
    let reached : Parser := ⟨⟨4, [⟨3, "$y = $x".toList⟩, ⟨4, ['\x7d']⟩]⟩,
      ⟨[[(['x'], ⟨['1'], 2⟩)], []]⟩, [['g']]⟩
    Fetches text [['g']] 1 .empty reached ∧ reached.Orderly text [['g']] ∧
      ∀ value, reached.scopes.declare ['y'] value 3 =
        .ok ⟨[[(['y'], ⟨value, 3⟩), (['x'], ⟨['1'], 2⟩)], []]⟩ := by
  intro text reached
  have opened : Fetches text [['g']] 1 .empty
      ⟨⟨4, ⟨2, "$x = 1".toList⟩ :: reached.source.lines⟩, ⟨[[], []]⟩, [['g']]⟩ :=
    @Fetches.enters text [] 0 .empty _ _ ⟨_, ⟨[[]]⟩, [['g']]⟩ _ _ .start rfl rfl
  have fetches : Fetches text [['g']] 1 .empty reached :=
    .goesOn opened rfl (by decide +kernel)
  obtain ⟨-, -, kept⟩ := readGroup_orderly text
  obtain ⟨orderly, declares⟩ := kept _ _ _ _ fetches
  obtain ⟨frame, outer, shape, declared⟩ := declares _ _ rfl ['y'] rfl
  cases shape
  exact ⟨fetches, orderly, declared⟩

end Parser

end ScopedConfig
