import ScopedConfig.Placement
import ScopedConfig.Proofs.Invariant
import ScopedConfig.Proofs.LexicalGrammar
import ScopedConfig.Proofs.Statements

/-!
Where a reading can fail. A line is at fault for what it says itself or for a variable that it
mentions, never for what comes after it; that a text stops too early shows only at its end.
-/

namespace ScopedConfig

/-- What can be wrong with a line of a value: from some place on it is a quote that does not come
again, or a dollar sign without a name. -/
inductive Unreadable (line : Nat) (text : Text) : ParseError → Prop where
  | unmatchedQuote {quote : Char} {rest : Text} (part : quote :: rest <:+ text)
    (isQuoted : isQuote quote = true) (unclosed : quote ∉ rest) :
    Unreadable line text (.unmatchedQuote quote line)
  | unrecognizedToken {rest : Text} (part : '$' :: rest <:+ text)
    (nameless : ∀ c ∈ rest.head?, isNameChar c = false) :
    Unreadable line text (.unrecognizedToken ('$' :: rest.takeWhile isVisible) line)

theorem Unreadable.within {line : Nat} {text whole : Text} {error : ParseError}
    (unreadable : Unreadable line text error) (part : text <:+ whole) :
    Unreadable line whole error := by
  cases unreadable with
  | unmatchedQuote here isQuoted unclosed =>
    exact .unmatchedQuote (here.trans part) isQuoted unclosed
  | unrecognizedToken here nameless => exact .unrecognizedToken (here.trans part) nameless

theorem unreadable_of_lex {line : Nat} {spaced : Bool} {text : Text} {error : ParseError}
    (failed : lex line spaced text = .error error) : Unreadable line text error := by
  fun_induction lex line spaced text with
  | case1 spaced => contradiction
  | case2 spaced c rest space ih => exact (ih failed).within (List.suffix_cons c rest)
  | case3 spaced c rest visible quote closed ih =>
    have shorter := (List.tail_suffix _).trans (List.dropWhile_suffix (l := rest) (· != c))
    exact (ih (map_eq_error.mp failed)).within (shorter.trans (List.suffix_cons c rest))
  | case4 spaced c rest visible quote unclosed =>
    cases failed
    exact .unmatchedQuote (List.suffix_refl _) quote unclosed
  | case5 spaced rest nameless visible quote =>
    cases failed
    exact .unrecognizedToken (List.suffix_refl _) (head?_of_takeWhile_eq_nil isNameChar rest nameless)
  | case6 spaced rest visible quote named ih =>
    have shorter := List.dropWhile_suffix (l := rest) isNameChar
    exact (ih (map_eq_error.mp failed)).within (shorter.trans (List.suffix_cons '$' rest))
  | case7 spaced c rest visible quote dollar closing => contradiction
  | case8 spaced c rest visible quote dollar inner ih =>
    have shorter := List.dropWhile_suffix (l := rest) isVisible
    exact (ih (map_eq_error.mp failed)).within (shorter.trans (List.suffix_cons c rest))

theorem joinAfter_error {scopes : Scopes} {path : Text} {previous : Option TokenKind}
    {tokens : List Token} {error : ParseError}
    (failed : joinAfter scopes path previous tokens = .error error) :
    ∃ token ∈ tokens, ∃ name, token.kind = .reference name ∧
      error = .unknownVariable name path token.line := by
  induction tokens generalizing previous with
  | nil => contradiction
  | cons token tokens ih =>
    rw [joinAfter, bind_eq_error] at failed
    rcases failed with here | ⟨text, -, later⟩
    · refine ⟨token, List.mem_cons_self, ?_⟩
      unfold Token.text at here
      split at here
      · contradiction
      · contradiction
      · next name reference =>
        split at here
        · contradiction
        · exact ⟨name, reference, (Except.error.inj here).symm⟩
    · rcases bind_eq_error.mp later with later | ⟨after, -, done⟩
      · obtain ⟨culprit, member, fault⟩ := ih later
        exact ⟨culprit, List.mem_cons_of_mem token member, fault⟩
      · contradiction

namespace State

variable {state : State} {error : ParseError}

def Reads (state : State) (line : Line) (token : Token) : Prop :=
  (∃ pending ∈ state.pending, token ∈ pending.segment.tokens) ∨
    ∃ spaced part segment, part <:+ line.text ∧ lex line.number spaced part = .ok segment ∧
      token ∈ segment.tokens

inductive Refuses (state : State) (line : Line) : ParseError → Prop where
  | strayClose (clear : state.pending = none) (shown : Statement.ofText? line.text = some .close)
    (outermost : state.outer = []) : Refuses state line (.strayClose line.number)
  | nameExpected (clear : state.pending = none) (shown : Statement.ofText? line.text = none) :
    Refuses state line (.nameExpected line.number)
  | duplicateKey {statement : Statement} {name : Text} (clear : state.pending = none)
    (shown : Statement.ofText? line.text = some statement)
    (defined : statement.defined? = some (.key, name))
    (present : state.entries.contains name = true) :
    Refuses state line (.duplicateKey (state.qualified name) line.number)
  | duplicateVariable {statement : Statement} {name : Text} {first : Variable}
    (clear : state.pending = none) (shown : Statement.ofText? line.text = some statement)
    (defined : statement.defined? = some (.binding, name))
    (found : state.scopes.local? name = some first) :
    Refuses state line (.duplicateVariable (state.qualified name) line.number first.line)
  | variableHoldsGroup {name : Text} (clear : state.pending = none)
    (shown : Statement.ofText? line.text = some (.opening .binding name)) :
    Refuses state line (.variableHoldsGroup (state.qualified name) line.number)
  | unreadable {error : ParseError} (fault : Unreadable line.number line.text error) :
    Refuses state line error
  | unknownVariable {token : Token} {name owner : Text} (read : state.Reads line token)
    (reference : token.kind = .reference name) :
    Refuses state line (.unknownVariable name (state.qualified owner) token.line)

theorem refuses_of_checkNew {line : Line} {statement : Statement} {target : Target} {name : Text}
    (clear : state.pending = none) (shown : Statement.ofText? line.text = some statement)
    (defined : statement.defined? = some (target, name))
    (failed : state.checkNew target name line.number = .error error) :
    state.Refuses line error := by
  cases target with
  | key =>
    simp only [checkNew] at failed
    split at failed
    · next present =>
      cases failed
      exact .duplicateKey clear shown defined present
    · contradiction
  | binding =>
    simp only [checkNew] at failed
    split at failed
    · next first found =>
      cases failed
      exact .duplicateVariable clear shown defined found
    · contradiction

theorem settle_error {pending : Pending}
    (free : state.checkNew pending.target pending.name pending.line = .ok ())
    (failed : state.settle pending = .error error) :
    ∃ token ∈ pending.segment.tokens, ∃ name, token.kind = .reference name ∧
      error = .unknownVariable name (state.qualified pending.name) token.line := by
  obtain ⟨target, name, number, segment⟩ := pending
  unfold settle at failed
  split at failed
  · contradiction
  · rcases bind_eq_error.mp failed with unjoined | ⟨value, joined, unassigned⟩
    · exact joinAfter_error unjoined
    · cases target with
      | key => contradiction
      | binding =>
        simp only [Scopes.declare_new _ _ _ _ (unbound_of_checkNew free)] at unassigned
        contradiction

theorem refuses_of_begin {line : Line} (clear : state.pending = none)
    (failed : state.begin line = .error error) : state.Refuses line error := by
  unfold begin at failed
  split at failed
  · next shown =>
    cases failed
    exact .nameExpected clear shown
  · next shown =>
    unfold closeGroup at failed
    split at failed
    · next outermost =>
      cases failed
      exact .strayClose clear shown outermost
    · contradiction
  · next name shown =>
    cases failed
    exact .variableHoldsGroup clear shown
  · next name shown =>
    rcases bind_eq_error.mp failed with taken | ⟨_, -, opened⟩
    · exact refuses_of_checkNew clear shown rfl taken
    · contradiction
  · next target name rest shown =>
    have part : rest <:+ line.text := (Statement.head_of_value shown).1.suffix
    rcases bind_eq_error.mp failed with taken | ⟨_, free, failed⟩
    · exact refuses_of_checkNew clear shown rfl taken
    · rcases bind_eq_error.mp failed with unread | ⟨segment, read, unsettled⟩
      · exact .unreadable ((unreadable_of_lex unread).within part)
      · obtain ⟨token, member, other, reference, rfl⟩ := settle_error free unsettled
        exact .unknownVariable (Or.inr ⟨_, rest, segment, part, read, member⟩) reference

/-- A line that fails is refused for what it says itself, or for a variable that the value which it
ends mentions. -/
theorem refuses_of_step (sound : state.Sound) {line : Line}
    (failed : state.step line = .error error) : state.Refuses line error := by
  cases reading : state.pending with
  | none =>
    simp only [step, reading] at failed
    exact refuses_of_begin reading failed
  | some pending =>
    rw [step_pending reading] at failed
    rcases bind_eq_error.mp failed with unread | ⟨segment, extended, unsettled⟩
    · exact .unreadable (unreadable_of_lex (map_eq_error.mp unread))
    · obtain ⟨next, read, rfl⟩ := map_eq_ok.mp extended
      have free := sound.awaited pending reading
      obtain ⟨token, member, name, reference, rfl⟩ := @settle_error state _ { pending with
        segment := ⟨pending.segment.tokens ++ next.tokens, next.continues⟩ } free unsettled
      refine .unknownVariable ?_ reference
      rcases List.mem_append.mp member with member | member
      · exact Or.inl ⟨pending, reading, member⟩
      · exact Or.inr ⟨_, line.text, next, List.suffix_refl _, read, member⟩

theorem Refuses.ne_unfinished {line : Line} (refuses : state.Refuses line error) (last : Nat) :
    error ≠ .unfinished last := by
  rintro rfl
  cases refuses with
  | unreadable fault => cases fault

theorem run_error (sound : state.Sound) {lines : List Line}
    (failed : state.run lines = .error error) :
    ∃ before line after reached, lines = before ++ line :: after ∧ state.run before = .ok reached ∧
      reached.Refuses line error := by
  induction lines generalizing state with
  | nil => contradiction
  | cons line lines ih =>
    rw [run_cons] at failed
    rcases bind_eq_error.mp failed with stopped | ⟨next, stepped, later⟩
    · exact ⟨[], line, lines, state, rfl, rfl, refuses_of_step sound stopped⟩
    · obtain ⟨before, culprit, after, reached, rfl, ran, refuses⟩ :=
        ih (sound.step line stepped) later
      refine ⟨line :: before, culprit, after, reached, rfl, ?_, refuses⟩
      rw [run_cons, stepped, ok_bind, ran]

theorem finish_eq_error {total : Nat} {error : ParseError}
    (failed : state.finish total = .error error) :
    error = .unfinished total := by
  unfold finish at failed
  split at failed
  · contradiction
  · exact (Except.error.inj failed).symm

end State

theorem parse_eq_error_cases {text : Text} {error : ParseError}
    (failed : parse text = .error error) :
    (State.start.run (Source.ofText text).lines = .error error ∧ ∀ line, error ≠ .unfinished line) ∨
      ∃ final, State.start.run (Source.ofText text).lines = .ok final ∧
        error = .unfinished (physicalLines text).length := by
  rcases bind_eq_error.mp failed with stopped | ⟨final, ran, unfinished⟩
  · obtain ⟨_, _, _, _, -, -, refuses⟩ := State.run_error State.sound_start stopped
    exact Or.inl ⟨stopped, refuses.ne_unfinished⟩
  · exact Or.inr ⟨final, ran, State.finish_eq_error unfinished⟩

end ScopedConfig
