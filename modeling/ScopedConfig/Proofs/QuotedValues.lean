import ScopedConfig.Proofs.Rows

namespace ScopedConfig

variable {line : Nat} {spaced : Bool} {pieces : List QuotedPiece}

theorem line_quotedTokens : ∀ token ∈ quotedTokens line spaced pieces, token.line = line := by
  induction pieces generalizing spaced with
  | nil => simp [quotedTokens]
  | cons piece pieces ih =>
    intro token member
    rcases List.mem_cons.mp member with rfl | member
    · rfl
    · exact ih token member

theorem kinds_quotedTokens :
    (quotedTokens line spaced pieces).map (·.kind) =
      (pieces.map QuotedPiece.content).map TokenKind.quoted := by
  induction pieces generalizing spaced with
  | nil => rfl
  | cons piece pieces ih => rw [quotedTokens, List.map_cons, ih, List.map_cons, List.map_cons]

theorem glued_quotedTokens : ∀ token ∈ quotedTokens line false pieces, token.spaced = false := by
  induction pieces with
  | nil => simp [quotedTokens]
  | cons piece pieces ih =>
    intro token member
    rcases List.mem_cons.mp member with rfl | member
    · rfl
    · exact ih token member

theorem spaced_quotedTokens (nonempty : pieces ≠ []) :
    ∃ token tokens, quotedTokens line spaced pieces = token :: tokens ∧ token.spaced = spaced ∧
      ∀ later ∈ tokens, later.spaced = false := by
  obtain ⟨piece, pieces, rfl⟩ := List.exists_cons_of_ne_nil nonempty
  exact ⟨_, _, rfl, rfl, glued_quotedTokens⟩

theorem lex_pieces_between (line : Nat) (sound : ∀ piece ∈ pieces, piece.Sound)
    {before after : Text} (blank : Blank before) (blankToo : Blank after) :
    lex line false (before ++ pieces.flatMap QuotedPiece.text ++ after) =
      .ok ⟨quotedTokens line (!before.isEmpty) pieces, false⟩ := by
  have ending (spaced : Bool) : lex line spaced after = .ok ⟨[], false⟩ := by
    have blanks := lex_blank line spaced after [] blankToo
    rwa [List.append_nil, lex_nil] at blanks
  rw [List.append_assoc, lex_blank line false before _ blank,
    lex_pieces line _ pieces after sound, ending]
  simp [Except.map, Segment.after]

/-- A value in quotes, with blanks before and after it, is read without another line: as quoted
tokens on its own line, glued to each other, whose contents put together are the value. Joined they
are the value, whichever variables are in sight. -/
theorem readValue_quoteValue (value : Text) (line : Nat) (source : Source) {before after : Text}
    (blank : Blank before) (blankToo : Blank after) :
    ∃ token tokens,
      readValue (before ++ quoteValue value ++ after) line source =
        (.ok (token :: tokens), source) ∧
      (∀ each ∈ token :: tokens, each.line = line) ∧
      token.spaced = !before.isEmpty ∧ (∀ later ∈ tokens, later.spaced = false) ∧
      (∃ contents : List Text,
        (token :: tokens).map (·.kind) = contents.map .quoted ∧ contents.flatten = value) ∧
      ∀ scopes path, join scopes path (token :: tokens) = .ok value := by
  -- The pieces of the quoted value, of which there is one at least, are the tokens.
  obtain ⟨pieces, spelled, -⟩ := spells_quoteValue value
  have nonempty : pieces ≠ [] := spells_nonempty value spelled
  have read := lex_pieces_between line spelled.sound blank blankToo
  rw [← spelled.text_eq] at read
  obtain ⟨token, tokens, shape, spaced, glued⟩ := spaced_quotedTokens nonempty
  have joined (scopes : Scopes) (path : Text) :
      join scopes path (quotedTokens line (!before.isEmpty) pieces) = .ok value := by
    rw [join, joinAfter_quoted, ← spelled.value_eq]
  rw [shape] at read joined
  refine ⟨token, tokens, readValue_whole read, ?_, spaced, glued, ?_, joined⟩
  · rw [← shape]
    exact line_quotedTokens
  · refine ⟨pieces.map QuotedPiece.content, ?_, ?_⟩
    · rw [← shape]
      exact kinds_quotedTokens
    · rw [← List.flatMap_def, ← spelled.value_eq]

/-- Quotes of both kinds at either end and next to each other, and a line feed between them. -/
theorem readValue_quoteValue_mixed :
    let value : Text := "\x22'\n\x22\x22'".toList
    let source : Source := ⟨9, [⟨5, ['x']⟩]⟩
    let tokens : List Token :=
      [⟨.quoted ['\x22'], true, 4⟩, ⟨.quoted "'\n".toList, false, 4⟩,
        ⟨.quoted ['\x22'], false, 4⟩, ⟨.quoted ['\x22'], false, 4⟩, ⟨.quoted ['\x27'], false, 4⟩]
    Blank ['\t'] ∧ Blank [' '] ∧
      readValue (['\t'] ++ quoteValue value ++ [' ']) 4 source = (.ok tokens, source) ∧
      ∀ scopes path, join scopes path tokens = .ok value := by
  intro value source tokens
  have blank : Blank ['\t'] := by simp [Blank]; decide
  have blankToo : Blank [' '] := blank_replicate 1
  have read : readValue (['\t'] ++ quoteValue value ++ [' ']) 4 source = (.ok tokens, source) := by
    decide +kernel
  obtain ⟨token, others, read', -, -, -, -, joined⟩ :=
    readValue_quoteValue value 4 source blank blankToo
  obtain same : tokens = token :: others := Except.ok.inj (congrArg Prod.fst (read.symm.trans read'))
  refine ⟨blank, blankToo, read, ?_⟩
  rw [same]
  exact joined

end ScopedConfig
