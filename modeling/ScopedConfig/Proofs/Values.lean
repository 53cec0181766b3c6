import ScopedConfig.Proofs.LexicalGrammar
import ScopedConfig.Proofs.Steps

namespace ScopedConfig

def Frame.bindings (frame : Frame) : Bindings := frame.map fun entry => (entry.1, entry.2.value)

def Scopes.bindings (scopes : Scopes) : List Bindings := scopes.frames.map Frame.bindings

theorem Frame.lookup_bindings (frame : Frame) (name : Text) :
    frame.bindings.lookup name = (frame.lookup name).map Variable.value := by
  induction frame with
  | nil => rfl
  | cons entry frame ih =>
    obtain ⟨other, declared⟩ := entry
    rw [bindings] at ih
    by_cases same : name = other
    · simp [bindings, same]
    · simp [bindings, List.lookup_cons, beq_eq_false_iff_ne.mpr same, ih]

theorem Scopes.findSome?_bindings (scopes : Scopes) (name : Text) :
    scopes.bindings.findSome? (·.lookup name) = (scopes.resolve? name).map Variable.value := by
  rw [bindings, resolve?, List.findSome?_map, List.map_findSome?]
  congr 1
  funext frame
  exact Frame.lookup_bindings frame name

theorem Scopes.local?_eq_none_iff {scopes : Scopes} {own : Bindings} {outer : List Bindings}
    (inSight : scopes.bindings = own :: outer) (name : Text) :
    scopes.local? name = none ↔ name ∉ own.map Prod.fst := by
  obtain ⟨frames⟩ := scopes
  cases frames with
  | nil => contradiction
  | cons frame frames =>
    obtain ⟨rfl, -⟩ := List.cons.inj inSight
    have names : frame.bindings.map Prod.fst = frame.map Prod.fst := by simp [Frame.bindings]
    rw [names, local?, innermost, List.headD_cons, List.lookup_eq_none_iff]
    simp only [List.mem_map, not_exists, not_and]
    constructor
    · intro absent entry member same
      exact absurd (absent entry member) (by simp [same])
    · intro absent entry member
      rw [bne_iff_ne]
      exact fun same => absent entry member same.symm

theorem Scopes.bindings_extend {scopes : Scopes} {own : Bindings} {outer : List Bindings}
    (inSight : scopes.bindings = own :: outer) (name : Text) (declared : Variable) :
    (scopes.extend name declared).bindings = ((name, declared.value) :: own) :: outer := by
  obtain ⟨frames⟩ := scopes
  cases frames with
  | nil => contradiction
  | cons frame frames =>
    obtain ⟨rfl, rfl⟩ := List.cons.inj inSight
    rfl

theorem Token.separator_eq_gap (previous : Option TokenKind) (token : Token) :
    token.separator previous = token.piece.gap previous := by
  obtain ⟨kind, spaced, line⟩ := token
  cases previous with
  | none => rfl
  | some before => cases before <;> cases kind <;> cases spaced <;> rfl

theorem Token.toOption_text (token : Token) (scopes : Scopes) (path : Text) :
    (token.text scopes path).toOption = token.kind.meaning? scopes.bindings := by
  obtain ⟨kind, spaced, line⟩ := token
  cases kind with
  | bare word => rfl
  | quoted content => rfl
  | reference name =>
    rw [TokenKind.meaning?, Scopes.findSome?_bindings, Token.text]
    cases found : scopes.resolve? name <;> simp [found, Except.toOption]

theorem toOption_joinAfter (scopes : Scopes) (path : Text) (previous : Option TokenKind)
    (tokens : List Token) :
    (joinAfter scopes path previous tokens).toOption =
      meaning? scopes.bindings previous (tokens.map Token.piece) := by
  induction tokens generalizing previous with
  | nil => rfl
  | cons token tokens ih =>
    have here := token.toOption_text scopes path
    have later := ih (some token.kind)
    rw [List.map_cons, meaning?, joinAfter, Token.separator_eq_gap]
    simp only [Token.piece] at here later ⊢
    rw [← here, ← later]
    cases token.text scopes path with
    | error error => rfl
    | ok text => cases joinAfter scopes path (some token.kind) tokens <;> rfl

theorem join_eq_ok_iff (scopes : Scopes) (path value : Text) (tokens : List Token) :
    join scopes path tokens = .ok value ↔
      meaning? scopes.bindings none (tokens.map Token.piece) = some value := by
  rw [← toOption_joinAfter scopes path, join]
  cases joinAfter scopes path none tokens <;> simp [Except.toOption]

namespace State

theorem run_of_values {spaced : Bool} {text : Text} {more : List Text} {pieces : List Piece}
    (values : ValuePieces spaced text more pieces) (state : State) (target : Target) (name : Text)
    (declared number : Nat) (before : List Token) (lines : List Line)
    (texts : lines.map Line.text = more) :
    ∃ segment tokens, lex number spaced text = .ok segment ∧ tokens.map Token.piece = pieces ∧
      (state.settle ⟨target, name, declared, ⟨before ++ segment.tokens, segment.continues⟩⟩ >>=
        fun next => next.run lines) =
      state.assign ⟨target, name, declared, ⟨before ++ tokens, false⟩⟩ := by
  induction values generalizing number before lines with
  | @whole spaced text pieces read =>
    rw [List.map_eq_nil_iff] at texts
    refine ⟨_, _, lex_of_pieces number read, map_piece_token number pieces, ?_⟩
    rw [texts, settle, if_neg (by simp)]
    cases state.assign _ <;> rfl
  | @continued spaced text next more pieces later read rest ih =>
    obtain ⟨line, lines, rfl, rfl, remaining⟩ := List.map_eq_cons_iff.mp texts
    obtain ⟨segment, tokens, lexed, shape, assigned⟩ :=
      ih line.number (before ++ pieces.map (Piece.token number)) lines remaining
    refine ⟨_, pieces.map (Piece.token number) ++ tokens, lex_of_pieces number read, ?_, ?_⟩
    · rw [List.map_append, map_piece_token, shape]
    · rw [settle, if_pos rfl, ok_bind, run_cons, step_pending rfl, Segment.extend, lexed]
      rw [← List.append_assoc, ← assigned]
      rfl

theorem values_of_run {spaced : Bool} {text : Text} {number : Nat} {segment : Segment}
    (lexed : lex number spaced text = .ok segment) (state final : State) (target : Target)
    (name : Text) (declared : Nat) (before : List Token) (lines : List Line)
    (ran : (state.settle ⟨target, name, declared,
      ⟨before ++ segment.tokens, segment.continues⟩⟩ >>= fun next => next.run lines) = .ok final)
    (clear : final.pending = none) :
    ∃ more rest tokens, lines = more ++ rest ∧
      ValuePieces spaced text (more.map Line.text) (tokens.map Token.piece) ∧
      (state.assign ⟨target, name, declared, ⟨before ++ tokens, false⟩⟩ >>=
        fun next => next.run rest) = .ok final := by
  have row := row_of_lex lexed
  induction lines generalizing spaced text number segment before with
  | nil =>
    cases ends : segment.continues with
    | true =>
      rw [settle, if_pos ends, ok_bind, run_nil] at ran
      cases ran
      contradiction
    | false =>
      rw [ends] at row ran
      exact ⟨[], [], segment.tokens, rfl, .whole row, ran⟩
  | cons line lines ih =>
    cases ends : segment.continues with
    | false =>
      rw [ends] at row ran
      exact ⟨[], line :: lines, segment.tokens, rfl, .whole row, ran⟩
    | true =>
      rw [settle, if_pos ends, ok_bind, run_cons, step_pending rfl, bind_assoc, bind_eq_ok] at ran
      obtain ⟨extended, extends_, ran⟩ := ran
      obtain ⟨next, lexedNext, rfl⟩ := map_eq_ok.mp extends_
      obtain ⟨more, rest, tokens, rfl, values, assigned⟩ :=
        ih lexedNext (before ++ segment.tokens) ran (row_of_lex lexedNext)
      rw [ends] at row
      refine ⟨line :: more, rest, segment.tokens ++ tokens, rfl, ?_, ?_⟩
      · rw [List.map_cons, List.map_append]
        exact .continued row values
      · rw [← List.append_assoc]
        exact assigned

end State

end ScopedConfig
