import Mathlib.Data.List.Forall2
import ScopedConfig.Proofs.Invariant
import ScopedConfig.Proofs.LexicalGrammar
import ScopedConfig.Proofs.Lines

/-!
Two readings side by side. If the states of two readings stand for one another and the operations
on states respect that, then lines with the same texts lead to the same outcomes: to states that
stand for one another again, or to errors that do. What stands for what is left open.
-/

namespace ScopedConfig

structure Variable.Alike (same : Nat → Nat → Prop) (left right : Variable) : Prop where
  value : left.value = right.value
  line : same left.line right.line

structure Token.Alike (same : Nat → Nat → Prop) (left right : Token) : Prop where
  kind : left.kind = right.kind
  spaced : left.spaced = right.spaced
  line : same left.line right.line

structure Segment.Alike (same : Nat → Nat → Prop) (left right : Segment) : Prop where
  tokens : List.Forall₂ (Token.Alike same) left.tokens right.tokens
  continues : left.continues = right.continues

structure Pending.Alike (same : Nat → Nat → Prop) (left right : Pending) : Prop where
  target : left.target = right.target
  name : left.name = right.name
  line : same left.line right.line
  segment : Segment.Alike same left.segment right.segment

structure Line.Alike (same : Nat → Nat → Prop) (left right : Line) : Prop where
  text : left.text = right.text
  number : same left.number right.number

theorem alike_contentLines (same : Nat → Nat → Prop) (lines : List Text) (first first' : Nat)
    (numbers : ∀ place < lines.length, same (first + place) (first' + place)) :
    List.Forall₂ (Line.Alike same) (contentLines lines first) (contentLines lines first') := by
  induction lines generalizing first first' with
  | nil => exact .nil
  | cons line lines ih =>
    have here : List.Forall₂ (Line.Alike same) (contentLines [line] first)
        (contentLines [line] first') := by
      have start := numbers 0 (Nat.zero_lt_succ _)
      by_cases content : LineKind.ofText line = .content
      · simpa [contentLines, content] using ⟨rfl, start⟩
      · simp [contentLines, content]
    have later := ih (first + 1) (first' + 1) fun place bound => by
      have next := numbers (place + 1) (Nat.succ_lt_succ bound)
      rwa [Nat.add_right_comm, Nat.add_right_comm first']
    rw [contentLines_cons, contentLines_cons line lines first']
    exact List.rel_append here later

section Values

variable {same : Correspondence}

theorem Segment.Alike.cons {left right : Segment} {token token' : Token}
    (segments : Segment.Alike same.line left right) (tokens : Token.Alike same.line token token') :
    Segment.Alike same.line (left.cons token) (right.cons token') :=
  ⟨.cons tokens segments.tokens, segments.continues⟩

theorem lex_alike {left right : Nat} (numbers : same.line left right) (spaced : Bool)
    (text : Text) :
    Agree (ParseError.Alike same) (Segment.Alike same.line) (lex left spaced text)
      (lex right spaced text) := by
  have token (kind : TokenKind) (spaced : Bool) :
      Token.Alike same.line ⟨kind, spaced, left⟩ ⟨kind, spaced, right⟩ := ⟨rfl, rfl, numbers⟩
  fun_induction lex left spaced text with
  | case1 spaced =>
    rw [lex]
    exact .ok ⟨.nil, rfl⟩
  | case2 spaced c rest space ih =>
    rw [lex, if_pos space]
    exact ih
  | case3 spaced c rest visible quote closed ih =>
    rw [lex, if_neg visible, if_pos quote, if_pos closed]
    exact ih.map fun first second segments => segments.cons (token _ spaced)
  | case4 spaced c rest visible quote unclosed =>
    rw [lex, if_neg visible, if_pos quote, if_neg unclosed]
    exact .error (.unmatchedQuote c numbers)
  | case5 spaced rest nameless visible quote =>
    rw [lex, if_neg visible, if_neg quote, if_pos rfl, nameless]
    exact .error (.unrecognizedToken _ numbers)
  | case6 spaced rest visible quote named ih =>
    have read := lex_reference right spaced _ _ (isName_takeWhile rest named)
      (head?_dropWhile isNameChar rest)
    rw [List.takeWhile_append_dropWhile] at read
    rw [read]
    exact ih.map fun first second segments => segments.cons (token _ spaced)
  | case7 spaced c rest visible quote dollar closing =>
    rw [lex, if_neg visible, if_neg quote, if_neg dollar, if_pos closing]
    exact .ok ⟨.nil, rfl⟩
  | case8 spaced c rest visible quote dollar inner ih =>
    rw [lex, if_neg visible, if_neg quote, if_neg dollar, if_neg inner]
    exact ih.map fun first second segments => segments.cons (token _ spaced)

theorem Segment.Alike.extend {left right : Segment} {line line' : Line}
    (segments : Segment.Alike same.line left right) (lines : Line.Alike same.line line line') :
    Agree (ParseError.Alike same) (Segment.Alike same.line) (left.extend line)
      (right.extend line') := by
  rw [Segment.extend, Segment.extend, ← lines.text]
  apply (lex_alike lines.number true line.text).map
  intro next next' later
  exact ⟨List.rel_append segments.tokens later.tokens, later.continues⟩

theorem joinAfter_alike {left right : Scopes} {path path' : Text} {tokens tokens' : List Token}
    (found : ∀ name,
      Option.Rel (Variable.Alike same.line) (left.resolve? name) (right.resolve? name))
    (paths : same.path path path') (previous : Option TokenKind)
    (alike : List.Forall₂ (Token.Alike same.line) tokens tokens') :
    Agree (ParseError.Alike same) Eq (joinAfter left path previous tokens)
      (joinAfter right path' previous tokens') := by
  induction alike generalizing previous with
  | nil => exact .ok rfl
  | @cons token token' tokens tokens' first later ih =>
    have texts : Agree (ParseError.Alike same) Eq (token.text left path)
        (token'.text right path') := by
      rw [Token.text, Token.text, ← first.kind]
      cases token.kind with
      | bare word => exact .ok rfl
      | quoted content => exact .ok rfl
      | reference name =>
        have meaning := found name
        dsimp only
        generalize left.resolve? name = declared, right.resolve? name = declared' at meaning ⊢
        cases meaning with
        | none => exact .error (.unknownVariable name paths first.line)
        | some declarations => exact .ok declarations.value
    have separators : token.separator previous = token'.separator previous := by
      cases previous with
      | none => rfl
      | some before => rw [Token.separator, Token.separator, first.kind, first.spaced]
    rw [joinAfter, joinAfter, separators, ← first.kind]
    apply texts.bind
    intro text text' _ _ sameText
    apply (ih (some token.kind)).bind
    intro after after' _ _ sameAfter
    rw [sameText, sameAfter]
    exact .ok rfl

end Values

/-- A relation between the states of two readings that their operations respect, the closing of a
group apart. It does not look at the values that are being read. -/
structure Matching (same : Correspondence) (related : State → State → Prop) : Prop where
  pending : ∀ {left right : State}, related left right → ∀ reading reading',
    related { left with pending := reading } { right with pending := reading' }
  qualified : ∀ {left right : State}, related left right → ∀ name,
    same.path (left.qualified name) (right.qualified name)
  contains : ∀ {left right : State}, related left right → ∀ name,
    left.entries.contains name = right.entries.contains name
  local? : ∀ {left right : State}, related left right → ∀ name,
    Option.Rel (Variable.Alike same.line) (left.scopes.local? name) (right.scopes.local? name)
  resolve? : ∀ {left right : State}, related left right → ∀ name,
    Option.Rel (Variable.Alike same.line) (left.scopes.resolve? name) (right.scopes.resolve? name)
  opened : ∀ {left right : State}, related left right → ∀ name,
    left.entries.contains name = false → related (left.openGroup name) (right.openGroup name)
  inserted : ∀ {left right : State}, related left right → ∀ name value,
    left.entries.contains name = false →
      related { left with entries := left.entries.insert name (.scalar value) }
        { right with entries := right.entries.insert name (.scalar value) }
  declared : ∀ {left right : State}, related left right → ∀ name value,
    ∀ {line line' : Nat}, same.line line line' →
      related { left with scopes := left.scopes.extend name ⟨value, line⟩ }
        { right with scopes := right.scopes.extend name ⟨value, line'⟩ }

/-- A relation that the closing of a group respects as well, unless the first reading fails on it
with an error that is excused. -/
structure SimulationUnless (excused : ParseError → Prop) (same : Correspondence)
    (related : State → State → Prop) : Prop extends Matching same related where
  closed : ∀ {left right : State}, related left right → left.Sound →
    ∀ {line line' : Nat}, same.line line line' → AgreeUnless excused (ParseError.Alike same) related
      (left.closeGroup line) (right.closeGroup line')

structure Simulation (same : Correspondence) (related : State → State → Prop) : Prop extends
    Matching same related where
  closed : ∀ {left right : State}, related left right → left.Sound →
    ∀ {line line' : Nat}, same.line line line' →
      Agree (ParseError.Alike same) related (left.closeGroup line) (right.closeGroup line')

namespace State

/-- States that are related and in the middle of the same value, if of any. -/
structure Beside (same : Correspondence) (related : State → State → Prop) (left right : State) :
    Prop where
  related : related left right
  pending : Option.Rel (Pending.Alike same.line) left.pending right.pending

end State

variable {excused : ParseError → Prop} {same : Correspondence} {related : State → State → Prop}
  {left right : State}

namespace Matching

theorem checkNew (matching : Matching same related) (relation : related left right)
    (target : Target) (name : Text) {line line' : Nat} (lines : same.line line line') :
    Agree (ParseError.Alike same) (fun _ _ => True) (left.checkNew target name line)
      (right.checkNew target name line') := by
  have paths := matching.qualified relation name
  cases target with
  | key =>
    simp only [State.checkNew, ← matching.contains relation name]
    split
    · exact .error (.duplicateKey paths lines)
    · exact .ok trivial
  | binding =>
    have first := matching.local? relation name
    simp only [State.checkNew]
    generalize left.scopes.local? name = declared, right.scopes.local? name = declared' at first ⊢
    cases first with
    | none => exact .ok trivial
    | some declarations => exact .error (.duplicateVariable paths lines declarations.line)

theorem assign (matching : Matching same related) (relation : related left right)
    {pending pending' : Pending} (readings : Pending.Alike same.line pending pending')
    (free : left.checkNew pending.target pending.name pending.line = .ok ()) :
    Agree (ParseError.Alike same) (State.Beside same related) (left.assign pending)
      (right.assign pending') := by
  obtain ⟨target, name, line, segment⟩ := pending
  obtain ⟨target', name', line', segment'⟩ := pending'
  obtain ⟨rfl, rfl, lines, segments⟩ := readings
  have paths := matching.qualified relation name
  have values := joinAfter_alike (matching.resolve? relation) paths none segments.tokens
  apply values.bind
  intro value value' _ _ sameValue
  subst sameValue
  cases target with
  | key =>
    have inserted := matching.inserted relation name value (State.fresh_of_checkNew free)
    exact .ok ⟨matching.pending inserted none none, .none⟩
  | binding =>
    have declared := matching.declared relation name value lines
    have first := matching.local? relation name
    simp only [Scopes.declare]
    generalize left.scopes.local? name = before, right.scopes.local? name = before' at first ⊢
    cases first with
    | none => exact .ok ⟨matching.pending declared none none, .none⟩
    | some declarations => exact .error (.duplicateVariable paths lines declarations.line)

theorem settle (matching : Matching same related) (relation : related left right)
    {pending pending' : Pending} (readings : Pending.Alike same.line pending pending')
    (free : left.checkNew pending.target pending.name pending.line = .ok ()) :
    Agree (ParseError.Alike same) (State.Beside same related) (left.settle pending)
      (right.settle pending') := by
  rw [State.settle, State.settle, ← readings.segment.continues]
  split
  · exact .ok ⟨matching.pending relation _ _, .some readings⟩
  · exact matching.assign relation readings free

end Matching

namespace SimulationUnless

theorem begin (simulation : SimulationUnless excused same related) (relation : related left right)
    (sound : left.Sound) {line line' : Line} (lines : Line.Alike same.line line line') :
    AgreeUnless excused (ParseError.Alike same) (State.Beside same related) (left.begin line)
      (right.begin line') := by
  have numbers := lines.number
  rw [State.begin, State.begin, ← lines.text]
  cases Statement.ofText? line.text with
  | none => exact Or.inr (.error (.nameExpected numbers))
  | some statement =>
    cases statement with
    | close =>
      rcases simulation.closed relation sound numbers with excuse | agree
      · exact Or.inl excuse
      · refine Or.inr (agree.weaken fun next next' closed closed' later => ?_)
        obtain ⟨_, _, -, rfl⟩ := State.closeGroup_cases closed
        obtain ⟨_, _, -, rfl⟩ := State.closeGroup_cases closed'
        exact ⟨later, .none⟩
    | opening target name =>
      right
      cases target with
      | key =>
        apply (simulation.checkNew relation .key name numbers).bind
        intro _ _ free _ _
        have opened := simulation.opened relation name (State.fresh_of_checkNew free)
        exact .ok ⟨opened, .none⟩
      | binding =>
        exact .error (.variableHoldsGroup (simulation.qualified relation name) numbers)
    | value target name rest =>
      right
      apply (simulation.checkNew relation target name numbers).bind
      intro _ _ free _ _
      apply (lex_alike numbers false rest).bind
      intro segment segment' _ _ segments
      exact simulation.settle relation ⟨rfl, rfl, numbers, segments⟩ free

theorem step (simulation : SimulationUnless excused same related)
    (beside : State.Beside same related left right) (sound : left.Sound) {line line' : Line}
    (lines : Line.Alike same.line line line') :
    AgreeUnless excused (ParseError.Alike same) (State.Beside same related) (left.step line)
      (right.step line') := by
  have readings := beside.pending
  rw [State.step, State.step]
  cases reading : left.pending with
  | none =>
    rw [reading] at readings
    generalize right.pending = reading' at readings ⊢
    cases readings
    exact simulation.begin beside.related sound lines
  | some pending =>
    rw [reading] at readings
    generalize right.pending = reading' at readings ⊢
    cases readings with
    | some values =>
      right
      apply (values.segment.extend lines).bind
      intro segment segment' _ _ segments
      exact simulation.settle beside.related ⟨values.target, values.name, values.line, segments⟩
        (sound.awaited pending reading)

/-- Readings that start beside one another and take lines with the same texts stay so, or end in the
same error, unless the first ends in an error that is excused. -/
theorem run (simulation : SimulationUnless excused same related)
    (beside : State.Beside same related left right) (sound : left.Sound) {lines lines' : List Line}
    (alike : List.Forall₂ (Line.Alike same.line) lines lines') :
    AgreeUnless excused (ParseError.Alike same) (State.Beside same related) (left.run lines)
      (right.run lines') := by
  induction alike generalizing left right with
  | nil => exact Or.inr (.ok beside)
  | @cons line line' lines lines' first later ih =>
    rw [State.run_cons, State.run_cons]
    apply (simulation.step beside sound first).bind
    intro next next' stepped _ nextBeside
    exact ih nextBeside (sound.step line stepped)

end SimulationUnless

theorem Simulation.run (simulation : Simulation same related)
    (beside : State.Beside same related left right) (sound : left.Sound) {lines lines' : List Line}
    (alike : List.Forall₂ (Line.Alike same.line) lines lines') :
    Agree (ParseError.Alike same) (State.Beside same related) (left.run lines)
      (right.run lines') := by
  have strict : SimulationUnless (fun _ => False) same related :=
    ⟨simulation.toMatching, fun relation sound _ _ lines =>
      Or.inr (simulation.closed relation sound lines)⟩
  rcases strict.run beside sound alike with ⟨error, -, never⟩ | agree
  · exact never.elim
  · exact agree

theorem State.Beside.finish (beside : Beside same related left right)
    {values : Group → Group → Prop} (outermost : left.outer = [] ↔ right.outer = [])
    (entries : left.outer = [] → values left.entries right.entries) {total total' : Nat}
    (lasts : same.last total total') :
    Agree (ParseError.Alike same) values (left.finish total) (right.finish total') := by
  have readings := beside.pending
  rw [State.finish, State.finish]
  generalize left.pending = reading, right.pending = reading' at readings ⊢
  cases readings with
  | some pending => exact .error (.unfinished lasts)
  | none =>
    cases groups : left.outer with
    | nil =>
      rw [outermost.mp groups]
      exact .ok (entries groups)
    | cons group outer =>
      cases groups' : right.outer with
      | nil => exact absurd (outermost.mpr groups') (by simp [groups])
      | cons group' outer' => exact .error (.unfinished lasts)

end ScopedConfig
