import ScopedConfig.Descent

/-!
What a reading by recursive descent does to its parser. Every group gives back the frames that it was
given; the path is what it was before, unless the reading failed.
-/

namespace ScopedConfig

namespace Parser

/-- How the entries of a group are read: by the turns that are taken, from the first to the last. -/
inductive Reads : Nat → Group → Parser → Except ParseError Group → Parser → Prop where
  | exhausted {depth : Nat} {items : Group} {parser : Parser} (fetched : parser.fetch? = none) :
    Reads depth items parser
      (if depth = 0 then .ok items else .error (.unfinished parser.source.total)) parser
  | ends {depth : Nat} {items : Group} {parser here after : Parser} {line : Line}
    {result : Except ParseError Group} (fetched : parser.fetch? = some (line, here))
    (taken : here.turn depth items line = (.ends result, after)) :
    Reads depth items parser result after
  | goesOn {depth : Nat} {items more : Group} {parser here next after : Parser} {line : Line}
    {result : Except ParseError Group} (fetched : parser.fetch? = some (line, here))
    (taken : here.turn depth items line = (.goesOn more, next))
    (later : Reads depth more next result after) : Reads depth items parser result after
  | fails {depth : Nat} {items : Group} {parser here inner reached : Parser} {line : Line}
    {name : Text} {error : ParseError} (fetched : parser.fetch? = some (line, here))
    (taken : here.turn depth items line = (.enters name, inner))
    (inside : Reads inner.path.length .empty inner.enterScope (.error error) reached) :
    Reads depth items parser (.error error) reached.exitScope
  | returns {depth : Nat} {items body : Group} {parser here inner reached after : Parser}
    {line : Line} {name : Text} {result : Except ParseError Group}
    (fetched : parser.fetch? = some (line, here))
    (taken : here.turn depth items line = (.enters name, inner))
    (inside : Reads inner.path.length .empty inner.enterScope (.ok body) reached)
    (later : Reads depth (items.insert name (.group body)) reached.exitScope.pop result after) :
    Reads depth items parser result after

theorem readGroup_eq (parser : Parser) :
    parser.readGroup.result = (parser.enterScope.readEntries parser.path.length .empty).result ∧
      parser.readGroup.after =
        (parser.enterScope.readEntries parser.path.length .empty).after.exitScope := by
  rw [readGroup]
  exact ⟨rfl, rfl⟩

theorem reads_readEntries (parser : Parser) (depth : Nat) (items : Group) :
    Reads depth items parser (parser.readEntries depth items).result
      (parser.readEntries depth items).after := by
  rw [readEntries]
  split
  · next fetched => exact .exhausted fetched
  · next line here fetched =>
    split
    · next result after taken => exact .ends fetched taken
    · next more next taken =>
      have fewer := left_of_turn fetched taken
      exact .goesOn fetched taken (reads_readEntries next depth more)
    · next name inner taken =>
      have fewer := left_of_turn fetched taken
      have inside := reads_readEntries inner.enterScope inner.path.length .empty
      have shorter := inner.readGroup.shorter
      obtain ⟨entries, after⟩ := inner.readGroup_eq
      rw [← entries] at inside
      dsimp only
      split
      · next error failed =>
        rw [failed] at inside
        have whole := Reads.fails fetched taken inside
        rwa [← after] at whole
      · next body complete =>
        rw [complete] at inside
        have later := reads_readEntries inner.readGroup.after.pop depth
          (items.insert name (.group body))
        rw [after] at later
        have whole := Reads.returns fetched taken inside later
        rwa [← after] at whole
termination_by parser.left
decreasing_by
  · exact fewer
  · exact fewer
  · exact Nat.lt_of_le_of_lt shorter fewer

def Move.pathFrom (path : List Text) : Move → List Text
  | enters name => path ++ [name]
  | _ => path

theorem Move.pathFrom_ofResult (path : List Text) (result : Except ParseError Group) :
    (ofResult result).pathFrom path = path := by
  cases result <;> rfl

theorem path_turn (parser : Parser) (depth : Nat) (items : Group) (line : Line) :
    (parser.turn depth items line).2.path =
      (parser.turn depth items line).1.pathFrom parser.path := by
  unfold turn
  split
  · rfl
  · rfl
  · rfl
  · split <;> rfl
  · exact (parser.readVariable_kept _ _ _).2.trans (Move.pathFrom_ofResult _ _).symm
  · exact (parser.readScalar_kept _ _ _ _).2.trans (Move.pathFrom_ofResult _ _).symm

theorem Kept.trans {first second third : Parser} (kept : Kept first second)
    (later : Kept second third) : Kept first third :=
  ⟨later.total.trans kept.total, later.lines.trans kept.lines, later.scopes.trans kept.scopes⟩

theorem kept_of_turn {parser here after : Parser} {depth : Nat} {items : Group} {line : Line}
    {move : Move} (fetched : parser.fetch? = some (line, here))
    (taken : here.turn depth items line = (move, after)) :
    Kept parser after ∧ after.path = move.pathFrom parser.path := by
  obtain ⟨lines, total, scopes, path⟩ := fetch?_eq_some fetched
  have behind : Kept parser here := ⟨total, lines ▸ List.suffix_cons line _, by rw [scopes]⟩
  have turned := here.turn_kept depth items line
  have moved := here.path_turn depth items line
  rw [taken] at turned moved
  rw [path] at moved
  exact ⟨behind.trans turned, moved⟩

theorem Kept.pop {before after : Parser} (kept : Kept before after) : Kept before after.pop :=
  ⟨kept.total, kept.lines, kept.scopes⟩

theorem Kept.restored {inner reached : Parser} (kept : Kept inner.enterScope reached) :
    reached.exitScope.scopes = inner.scopes :=
  kept.scopes.trans (Scopes.exit_enter inner.scopes)

theorem Kept.exitScope {inner reached : Parser} (kept : Kept inner.enterScope reached) :
    Kept inner reached.exitScope :=
  ⟨kept.total, kept.lines, congrArg Scopes.exit kept.restored⟩

theorem path_returned {parser here inner reached : Parser} {depth : Nat} {items : Group}
    {line : Line} {name : Text} (fetched : parser.fetch? = some (line, here))
    (taken : here.turn depth items line = (.enters name, inner))
    (unchanged : reached.path = inner.path) : reached.exitScope.pop.path = parser.path := by
  have entered : inner.path = parser.path ++ [name] := (kept_of_turn fetched taken).2
  calc
    reached.path.dropLast = inner.path.dropLast := by rw [unchanged]
    _ = parser.path := by rw [entered, List.dropLast_concat]

/-- Reading the entries of a group leaves the frames outside it alone, and the path too if it does
not fail. -/
theorem Reads.kept {depth : Nat} {items : Group} {parser after : Parser}
    {result : Except ParseError Group} (reads : Reads depth items parser result after) :
    Kept parser after ∧ ∀ body, result = .ok body → after.path = parser.path := by
  induction reads with
  | exhausted fetched => exact ⟨⟨rfl, List.suffix_refl _, rfl⟩, fun _ _ => rfl⟩
  | ends fetched taken =>
    obtain ⟨kept, path⟩ := kept_of_turn fetched taken
    exact ⟨kept, fun _ _ => path⟩
  | goesOn fetched taken later ih =>
    obtain ⟨kept, path⟩ := kept_of_turn fetched taken
    exact ⟨kept.trans ih.1, fun body complete => (ih.2 body complete).trans path⟩
  | fails fetched taken inside ih =>
    obtain ⟨kept, -⟩ := kept_of_turn fetched taken
    exact ⟨kept.trans ih.1.exitScope, fun body complete => nomatch complete⟩
  | returns fetched taken inside later ih ihLater =>
    obtain ⟨kept, -⟩ := kept_of_turn fetched taken
    have path := path_returned fetched taken (ih.2 _ rfl)
    exact ⟨(kept.trans ih.1.exitScope.pop).trans ihLater.1,
      fun body complete => (ihLater.2 body complete).trans path⟩

theorem reads_readGroup (parser : Parser) :
    ∃ reached, Reads parser.path.length .empty parser.enterScope parser.readGroup.result reached ∧
      parser.readGroup.after = reached.exitScope := by
  obtain ⟨entries, after⟩ := parser.readGroup_eq
  rw [entries]
  exact ⟨_, reads_readEntries parser.enterScope parser.path.length .empty, after⟩

theorem readGroup_kept (parser : Parser) :
    parser.readGroup.after.scopes = parser.scopes ∧
      ∀ body, parser.readGroup.result = .ok body → parser.readGroup.after.path = parser.path := by
  obtain ⟨reached, reads, after⟩ := parser.reads_readGroup
  obtain ⟨kept, path⟩ := reads.kept
  rw [after]
  exact ⟨kept.restored, path⟩

end Parser

end ScopedConfig
