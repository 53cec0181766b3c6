import ScopedConfig.Group.WellNamed
import ScopedConfig.Proofs.Lines
import ScopedConfig.Proofs.Quoting
import ScopedConfig.Proofs.Statements
import ScopedConfig.Proofs.Steps

namespace ScopedConfig

theorem quoteValue_head (value : Text) :
    ∃ c rest, quoteValue value = c :: rest ∧ isQuote c = true := by
  obtain ⟨pieces, spelled, -⟩ := spells_quoteValue value
  cases pieces with
  | nil => exact absurd rfl (spells_nonempty value spelled)
  | cons piece pieces =>
    rw [spelled.text_eq, List.flatMap_cons, QuotedPiece.text, List.cons_append]
    exact ⟨piece.quote, _, rfl, (spelled.sound piece List.mem_cons_self).1⟩

theorem quoteValue_last (value : Text) :
    ∃ front c, quoteValue value = front ++ [c] ∧ isQuote c = true := by
  obtain ⟨pieces, spelled, -⟩ := spells_quoteValue value
  rcases List.eq_nil_or_concat pieces with rfl | ⟨before, piece, rfl⟩
  · exact absurd rfl (spells_nonempty value spelled)
  · have isQuoted := (spelled.sound piece (by simp)).1
    refine ⟨before.flatMap QuotedPiece.text ++ piece.quote :: piece.content, piece.quote, ?_, isQuoted⟩
    rw [spelled.text_eq]
    simp [QuotedPiece.text]

theorem quoteValue_clean (value : Text) (clean : '\n' ∉ value) : '\n' ∉ quoteValue value := by
  obtain ⟨pieces, spelled, -⟩ := spells_quoteValue value
  rw [spelled.value_eq] at clean
  rw [spelled.text_eq]
  intro feed
  obtain ⟨piece, member, within⟩ := List.mem_flatMap.mp feed
  simp only [QuotedPiece.text, List.mem_cons, List.mem_append, List.not_mem_nil, or_false] at within
  have quote : '\n' ≠ piece.quote := by
    rintro same
    have isQuoted := (spelled.sound piece member).1
    rw [← same] at isQuoted
    exact absurd isQuoted (by decide)
  rcases within with same | content | same
  · exact quote same
  · exact clean (List.mem_flatMap.mpr ⟨piece, member, content⟩)
  · exact quote same

theorem lex_quoteValue (line : Nat) (value : Text) :
    ∃ segment, lex line false (quoteValue value) = .ok segment ∧ segment.continues = false ∧
      ∀ scopes path, join scopes path segment.tokens = .ok value := by
  obtain ⟨pieces, spelled, -⟩ := spells_quoteValue value
  have tokens := lex_pieces line false pieces [] spelled.sound
  rw [List.append_nil, ← spelled.text_eq, lex_nil] at tokens
  refine ⟨_, tokens, rfl, ?_⟩
  intro scopes path
  simp only [Segment.after, List.append_nil]
  rw [join, joinAfter_quoted, ← spelled.value_eq]

def assignment (value : Text) : Text := ' ' :: '=' :: ' ' :: value

theorem dropSeparator_assignment (c : Char) (rest : Text) (visible : isSpace c = false) :
    dropSeparator (assignment (c :: rest)) = c :: rest := by
  have blank : Blank [' '] := blank_replicate 1
  rw [assignment, ← List.singleton_append, dropSeparator_blank [' '] _ blank,
    dropSeparator_of_separator '=' _ (Or.inl rfl), trimStart_space ' ' _ (by decide),
    trimStart_of_visible c rest visible]

theorem ofText?_assignment (name rest : Text) (c : Char) (named : IsName name)
    (visible : isSpace c = false) (plain : c ≠ '{') :
    Statement.ofText? (name ++ assignment (c :: rest)) = some (.value .key name (c :: rest)) := by
  have proper : c :: rest ≠ ['{'] := fun same => plain (List.cons.inj same).1
  rw [Statement.ofText?_key name _ named (by simp [assignment, show isNameChar ' ' = false by decide]),
    dropSeparator_assignment c rest visible, Statement.ofParts, if_neg proper]

theorem scalarLine_eq (key value : Text) (written : value ≠ []) :
    scalarLine key value = key ++ assignment (quoteValue value) := by
  have shown : value.isEmpty = false := by simpa using written
  simp [scalarLine, shown, assignment]

theorem openingLine_eq (key : Text) : openingLine key = key ++ assignment ['{'] := by
  simp [openingLine, assignment]

theorem ofText?_scalarLine (key value : Text) (named : IsName key) :
    ∃ rest, Statement.ofText? (scalarLine key value) = some (.value .key key rest) ∧
      ∀ line, ∃ segment, lex line false rest = .ok segment ∧ segment.continues = false ∧
        ∀ scopes path, join scopes path segment.tokens = .ok value := by
  by_cases written : value = []
  · subst written
    refine ⟨[], ?_, fun line => ⟨⟨[], false⟩, lex_nil line false, rfl, fun _ _ => rfl⟩⟩
    have alone := Statement.ofText?_key key [] named (by simp)
    rw [List.append_nil] at alone
    exact alone
  · obtain ⟨c, rest, shape, quoted⟩ := quoteValue_head value
    have plain : c ≠ '{' := by
      rintro rfl
      exact absurd quoted (by decide)
    refine ⟨quoteValue value, ?_, fun line => lex_quoteValue line value⟩
    rw [scalarLine_eq key value written, shape]
    exact ofText?_assignment key rest c named (isQuote_visible c quoted) plain

theorem count_indentation (depth : Nat) : (indentation depth).count '\n' = 0 := by
  rw [List.count_eq_zero]
  intro member
  exact absurd (List.eq_of_mem_replicate member) (by decide)

theorem clean_behind_indentation (depth : Nat) {line : Text} (clean : '\n' ∉ line) :
    '\n' ∉ indentation depth ++ line := by
  rw [List.mem_append, not_or]
  exact ⟨List.count_eq_zero.mp (count_indentation depth), clean⟩

theorem blank_indentation (depth : Nat) : Blank (indentation depth) := blank_replicate _

theorem IsName.clean {name : Text} (named : IsName name) : '\n' ∉ name := by
  intro member
  exact absurd (named.2 '\n' member) (by decide)

theorem scalarLine_clean (key value : Text) (plain : '\n' ∉ key) (clean : '\n' ∉ value) :
    '\n' ∉ scalarLine key value := by
  by_cases written : value = []
  · rw [written]
    exact plain
  · rw [scalarLine_eq key value written]
    simp [assignment, plain, quoteValue_clean value clean]

theorem openingLine_clean (key : Text) (plain : '\n' ∉ key) : '\n' ∉ openingLine key := by
  simp [openingLine, plain]

theorem trimEnd_scalarLine (key value : Text) (named : IsName key) :
    trimEnd (scalarLine key value) = scalarLine key value := by
  by_cases written : value = []
  · rw [written]
    exact trimEnd_of_visible key named.visible
  · obtain ⟨front, c, shape, quoted⟩ := quoteValue_last value
    have ends : scalarLine key value = key ++ assignment front ++ [c] := by
      rw [scalarLine_eq key value written, shape]
      simp [assignment]
    rw [ends]
    exact trimEnd_of_last _ c (isQuote_visible c quoted)

theorem content_of_name (depth number : Nat) (key rest trimmed : Text) (named : IsName key)
    (ends : trimEnd (key ++ rest) = key ++ trimmed) :
    contentLines [indentation depth ++ (key ++ rest)] number = [⟨number, key ++ trimmed⟩] := by
  obtain ⟨c, tail, rfl, first⟩ := named.uncons
  have visible := isNameChar_visible c first
  apply contentLines_content
  · rw [trim, trimStart_append _ _ (blank_indentation depth), List.cons_append,
      trimStart_of_visible c _ visible, ← List.cons_append, ends]
    rfl
  · rintro rfl
    exact absurd first (by decide)

theorem content_scalarLine (depth number : Nat) (key value : Text) (named : IsName key)
    (clean : '\n' ∉ value) :
    contentLines (physicalLines (indentation depth ++ scalarLine key value)) number =
      [⟨number, scalarLine key value⟩] := by
  have whole := clean_behind_indentation depth (scalarLine_clean key value named.clean clean)
  have ends := trimEnd_scalarLine key value named
  rw [physicalLines_clean _ whole]
  by_cases written : value = []
  · have alone : scalarLine key value = key ++ [] := by rw [written]; simp [scalarLine]
    rw [alone] at ends ⊢
    exact content_of_name depth number key [] [] named ends
  · rw [scalarLine_eq key value written] at ends ⊢
    exact content_of_name depth number key _ _ named ends

theorem physicalLines_openingLine (depth : Nat) (key : Text) (named : IsName key) :
    physicalLines (indentation depth ++ openingLine key) = [indentation depth ++ openingLine key] :=
  physicalLines_clean _ (clean_behind_indentation depth (openingLine_clean key named.clean))

theorem physicalLines_closingLine (depth : Nat) :
    physicalLines (indentation depth ++ closingLine) = [indentation depth ++ closingLine] :=
  physicalLines_clean _ (clean_behind_indentation depth (by decide))

theorem content_openingLine (depth number : Nat) (key : Text) (named : IsName key) :
    contentLines [indentation depth ++ openingLine key] number = [⟨number, openingLine key⟩] := by
  have ends : trimEnd (openingLine key) = openingLine key := by
    have shape : openingLine key = key ++ [' ', '=', ' '] ++ ['{'] := by
      simp [openingLine]
    rw [shape]
    exact trimEnd_of_last _ '{' (by decide)
  rw [openingLine_eq] at ends ⊢
  exact content_of_name depth number key _ _ named ends

theorem content_closingLine (depth number : Nat) :
    contentLines [indentation depth ++ closingLine] number = [⟨number, closingLine⟩] := by
  apply contentLines_content
  · have visible : ∀ c ∈ closingLine.head?, isSpace c = false := by
      intro c first
      cases first
      decide
    exact trim_line _ closingLine (blank_indentation depth) visible (by decide)
  · decide

theorem content_cutLine (depth number : Nat) (key value : Text) (named : IsName key)
    (broken : '\n' ∈ value) :
    ∃ (whole : List QuotedPiece) (opened : Text) (later : List Line),
      contentLines (physicalLines (indentation depth ++ scalarLine key value)) number =
        ⟨number, key ++ assignment
          (whole.flatMap QuotedPiece.text ++ breakQuote value :: opened)⟩ :: later ∧
      (∀ piece ∈ whole, piece.Sound) ∧ isQuote (breakQuote value) = true ∧
      breakQuote value ∉ opened := by
  obtain ⟨pieces, spelled, breaks⟩ := spells_quoteValue value
  obtain ⟨whole, opened, rest, cut, clean, sound, isQuoted, free⟩ := spelled.cut breaks broken
  have shape : indentation depth ++ scalarLine key value =
      indentation depth ++ (key ++ assignment
        (whole.flatMap QuotedPiece.text ++ breakQuote value :: opened)) ++ '\n' :: rest := by
    rw [scalarLine_eq key value (List.ne_nil_of_mem broken), cut]
    simp [assignment]
  have single : '\n' ∉ indentation depth ++ (key ++ assignment
      (whole.flatMap QuotedPiece.text ++ breakQuote value :: opened)) := by
    rw [List.mem_append, not_or, List.mem_append, not_or]
    refine ⟨List.count_eq_zero.mp (count_indentation depth), named.clean, ?_⟩
    simpa [assignment] using clean
  have ends : trimEnd (key ++ assignment
      (whole.flatMap QuotedPiece.text ++ breakQuote value :: opened)) =
      key ++ assignment (whole.flatMap QuotedPiece.text ++
        breakQuote value :: trimEnd opened) := by
    have trimmed := trimEnd_cons_visible (breakQuote value) opened
      (isQuote_visible (breakQuote value) isQuoted)
    have far := trimEnd_append (key ++ assignment (whole.flatMap QuotedPiece.text))
      (breakQuote value :: opened) (by rw [trimmed]; exact List.cons_ne_nil _ _)
    rw [trimmed] at far
    simpa [assignment] using far
  refine ⟨whole, trimEnd opened, contentLines (physicalLines rest) (number + 1), ?_, sound,
    isQuoted, fun member => free ((trimEnd_isPrefix opened).subset member)⟩
  rw [shape, physicalLines_append, physicalLines_clean _ single, List.singleton_append,
    contentLines_cons, content_of_name depth number key _ _ named ends, List.singleton_append]

namespace State

variable {state : State}

theorem step_scalarLine (number : Nat) (key value : Text) (named : IsName key)
    (clear : state.pending = none) (fresh : state.entries.contains key = false) :
    state.step ⟨number, scalarLine key value⟩ =
      .ok { state with entries := state.entries.insert key (.scalar value) } := by
  obtain ⟨rest, shown, reads⟩ := ofText?_scalarLine key value named
  obtain ⟨segment, tokens, complete, joined⟩ := reads number
  rw [step_value clear shown (checkNew_key fresh), tokens]
  have settled : state.settle ⟨.key, key, number, segment⟩ = _ :=
    settle_key complete (joined state.scopes (state.qualified key))
  rw [← clear] at settled
  exact settled

theorem step_openingLine (number : Nat) (key : Text) (named : IsName key)
    (clear : state.pending = none) (fresh : state.entries.contains key = false) :
    state.step ⟨number, openingLine key⟩ = .ok (state.openGroup key) := by
  apply step_opening clear _ fresh
  rw [openingLine_eq, Statement.ofText?_key key _ named
      (by simp [assignment, show isNameChar ' ' = false by decide]),
    dropSeparator_assignment '{' [] (by decide), Statement.ofParts, if_pos rfl]

/-- A line that is cut inside a quoted piece fails, whatever blanks are trimmed from its end. -/
theorem step_cutLine (number : Nat) (key opened : Text) (whole : List QuotedPiece) (quote : Char)
    (named : IsName key) (clear : state.pending = none)
    (fresh : state.entries.contains key = false) (sound : ∀ piece ∈ whole, piece.Sound)
    (isQuoted : isQuote quote = true) (free : quote ∉ opened) :
    state.step
        ⟨number, key ++ assignment (whole.flatMap QuotedPiece.text ++ quote :: opened)⟩ =
      .error (.unmatchedQuote quote number) := by
  have starts : ∃ c rest, whole.flatMap QuotedPiece.text ++ quote :: opened = c :: rest ∧
      isQuote c = true := by
    cases whole with
    | nil => exact ⟨quote, opened, rfl, isQuoted⟩
    | cons piece pieces =>
      rw [List.flatMap_cons, QuotedPiece.text, List.cons_append, List.cons_append]
      exact ⟨piece.quote, _, rfl, (sound piece List.mem_cons_self).1⟩
  obtain ⟨c, rest, shape, quoted⟩ := starts
  have plain : c ≠ '{' := by
    rintro rfl
    exact absurd quoted (by decide)
  have shown := ofText?_assignment key rest c named (isQuote_visible c quoted) plain
  rw [← shape] at shown
  rw [step_value clear shown (checkNew_key fresh),
    lex_cut number false whole quote opened sound isQuoted free]
  rfl

end State

end ScopedConfig
