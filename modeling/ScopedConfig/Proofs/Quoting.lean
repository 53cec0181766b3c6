import ScopedConfig.Group.Render
import ScopedConfig.Proofs.Lexing
import ScopedConfig.Token.Join

namespace ScopedConfig

structure QuotedPiece where
  quote : Char
  content : Text

namespace QuotedPiece

def text (piece : QuotedPiece) : Text := piece.quote :: (piece.content ++ [piece.quote])

def Sound (piece : QuotedPiece) : Prop :=
  isQuote piece.quote = true ∧ piece.quote ∉ piece.content

end QuotedPiece

def quotedTokens (line : Nat) : Bool → List QuotedPiece → List Token
  | _, [] => []
  | spaced, piece :: pieces =>
    ⟨.quoted piece.content, spaced, line⟩ :: quotedTokens line false pieces

def Segment.after (tokens : List Token) (segment : Segment) : Segment :=
  ⟨tokens ++ segment.tokens, segment.continues⟩

theorem lex_pieces (line : Nat) (spaced : Bool) (pieces : List QuotedPiece) (rest : Text)
    (sound : ∀ piece ∈ pieces, piece.Sound) :
    lex line spaced (pieces.flatMap QuotedPiece.text ++ rest) =
      (lex line (spaced && pieces.isEmpty) rest).map
        (Segment.after (quotedTokens line spaced pieces)) := by
  induction pieces generalizing spaced with
  | nil =>
    have unchanged : Segment.after [] = id := rfl
    simp [quotedTokens, unchanged]
  | cons piece pieces ih =>
    obtain ⟨isQuoted, free⟩ := sound piece List.mem_cons_self
    have remaining := ih false fun other member => sound other (List.mem_cons_of_mem piece member)
    have shape : (piece :: pieces).flatMap QuotedPiece.text ++ rest =
        piece.quote :: (piece.content ++ piece.quote ::
          (pieces.flatMap QuotedPiece.text ++ rest)) := by
      simp [QuotedPiece.text]
    rw [shape, lex_quoted line spaced piece.quote piece.content _ isQuoted free, remaining]
    simp only [Bool.false_and, List.isEmpty_cons, Bool.and_false]
    cases lex line false rest <;> rfl

theorem joinAfter_quoted (scopes : Scopes) (path : Text) (line : Nat) (spaced : Bool)
    (pieces : List QuotedPiece) (previous : Option TokenKind) :
    joinAfter scopes path previous (quotedTokens line spaced pieces) =
      .ok (pieces.flatMap QuotedPiece.content) := by
  induction pieces generalizing spaced previous with
  | nil => rfl
  | cons piece pieces ih =>
    have glued : Token.separator previous ⟨.quoted piece.content, spaced, line⟩ = [] := by
      cases previous with
      | none => rfl
      | some kind => cases kind <;> simp [Token.separator, TokenKind.keepsSpace]
    simp only [quotedTokens, joinAfter, Token.text]
    rw [ih false (some (.quoted piece.content))]
    simp [glued, bind, Except.bind, pure, Except.pure]

/-- The pieces make up the text, and their contents the value. -/
structure Spells (pieces : List QuotedPiece) (value text : Text) : Prop where
  text_eq : text = pieces.flatMap QuotedPiece.text
  value_eq : value = pieces.flatMap QuotedPiece.content
  sound : ∀ piece ∈ pieces, piece.Sound

def BreaksWithin (quote : Char) (pieces : List QuotedPiece) : Prop :=
  ∀ piece ∈ pieces, '\n' ∈ piece.content → piece.quote = quote

theorem Spells.append {first last : List QuotedPiece} {value text other otherText : Text}
    (spelled : Spells first value text) (next : Spells last other otherText) :
    Spells (first ++ last) (value ++ other) (text ++ otherText) where
  text_eq := by rw [List.flatMap_append, spelled.text_eq, next.text_eq]
  value_eq := by rw [List.flatMap_append, spelled.value_eq, next.value_eq]
  sound := by
    intro piece member
    rcases List.mem_append.mp member with member | member
    · exact spelled.sound piece member
    · exact next.sound piece member

theorem BreaksWithin.append {quote : Char} {first last : List QuotedPiece}
    (breaks : BreaksWithin quote first) (later : BreaksWithin quote last) :
    BreaksWithin quote (first ++ last) := by
  intro piece member
  rcases List.mem_append.mp member with member | member
  · exact breaks piece member
  · exact later piece member

theorem spells_one (quote : Char) (value : Text) (isQuoted : isQuote quote = true)
    (free : quote ∉ value) : Spells [⟨quote, value⟩] value (quote :: value ++ [quote]) where
  text_eq := by simp [QuotedPiece.text]
  value_eq := by simp
  sound := by
    intro piece member
    rw [List.mem_singleton.mp member]
    exact ⟨isQuoted, free⟩

theorem breaksWithin_one (quote : Char) (value : Text) :
    BreaksWithin quote [⟨quote, value⟩] := by
  intro piece member _
  rw [List.mem_singleton.mp member]

theorem spells_quotePiece (part : Text) (free : '\x22' ∉ part) :
    ∃ pieces, Spells pieces part (quotePiece part) ∧ BreaksWithin '\x22' pieces := by
  cases part with
  | nil =>
    have nothing : Spells [] [] [] := ⟨rfl, rfl, by simp⟩
    exact ⟨[], nothing, by simp [BreaksWithin]⟩
  | cons c rest =>
    exact ⟨_, spells_one '\x22' (c :: rest) (by decide) free, breaksWithin_one '\x22' (c :: rest)⟩

theorem spells_parts (parts : List Text) (free : ∀ part ∈ parts, '\x22' ∉ part) :
    ∃ pieces, Spells pieces (['\x22'].intercalate parts)
        (['\x27', '\x22', '\x27'].intercalate (parts.map quotePiece)) ∧
      BreaksWithin '\x22' pieces := by
  induction parts with
  | nil => exact ⟨[], ⟨rfl, rfl, by simp⟩, by simp [BreaksWithin]⟩
  | cons part parts ih =>
    obtain ⟨first, spelled, breaks⟩ := spells_quotePiece part (free part List.mem_cons_self)
    obtain ⟨last, next, later⟩ := ih fun other member => free other (List.mem_cons_of_mem part member)
    cases parts with
    | nil => exact ⟨first, by simpa using spelled, breaks⟩
    | cons other parts =>
      have between := spells_one '\x27' ['\x22'] (by decide) (by decide)
      have unbroken : BreaksWithin '\x22' [⟨'\x27', ['\x22']⟩] := by simp [BreaksWithin]
      refine ⟨first ++ ([⟨'\x27', ['\x22']⟩] ++ last), ?_, breaks.append (unbroken.append later)⟩
      have whole := spelled.append (between.append next)
      simpa [List.intercalate_cons_cons] using whole

def breakQuote (value : Text) : Char :=
  if '\x22' ∈ value ∧ '\x27' ∉ value then '\x27' else '\x22'

theorem spells_quoteValue (value : Text) :
    ∃ pieces, Spells pieces value (quoteValue value) ∧ BreaksWithin (breakQuote value) pieces := by
  unfold quoteValue breakQuote
  by_cases double : '\x22' ∈ value
  · rw [if_neg (not_not_intro double)]
    by_cases single : '\x27' ∈ value
    · rw [if_neg (not_not_intro single), if_neg (fun both => both.2 single)]
      have parts := spells_parts (value.splitOn '\x22') (splitOn_free '\x22' value)
      rwa [List.intercalate_splitOn] at parts
    · rw [if_pos single, if_pos ⟨double, single⟩]
      exact ⟨_, spells_one '\x27' value (by decide) single, breaksWithin_one '\x27' value⟩
  · rw [if_pos double, if_neg (fun both => double both.1)]
    exact ⟨_, spells_one '\x22' value (by decide) double, breaksWithin_one '\x22' value⟩

theorem spells_nonempty (value : Text) {pieces : List QuotedPiece}
    (spelled : Spells pieces value (quoteValue value)) : pieces ≠ [] := by
  rintro rfl
  have nothing : value = [] := spelled.value_eq
  have text := spelled.text_eq
  rw [nothing] at text
  exact absurd text (by decide)

/-- The first line feed of a value leaves a row of whole pieces and an open one before it. -/
theorem Spells.cut {pieces : List QuotedPiece} {value text : Text} {quote : Char}
    (spelled : Spells pieces value text) (breaks : BreaksWithin quote pieces)
    (broken : '\n' ∈ value) :
    ∃ (whole : List QuotedPiece) (opened rest : Text),
      text = whole.flatMap QuotedPiece.text ++ quote :: opened ++ '\n' :: rest ∧
      '\n' ∉ whole.flatMap QuotedPiece.text ++ quote :: opened ∧
      (∀ piece ∈ whole, piece.Sound) ∧ isQuote quote = true ∧ quote ∉ opened := by
  induction pieces generalizing value text with
  | nil =>
    rw [spelled.value_eq] at broken
    simp at broken
  | cons piece pieces ih =>
    obtain ⟨isQuoted, free⟩ := spelled.sound piece List.mem_cons_self
    have proper : '\n' ≠ piece.quote := by
      rintro same
      rw [← same] at isQuoted
      exact absurd isQuoted (by decide)
    by_cases here : '\n' ∈ piece.content
    · have same := breaks piece List.mem_cons_self here
      obtain ⟨opened, later, content, clean⟩ := List.eq_append_cons_of_mem here
      refine ⟨[], opened, later ++ piece.quote :: pieces.flatMap QuotedPiece.text, ?_, ?_, by simp,
        same ▸ isQuoted, ?_⟩
      · rw [spelled.text_eq]
        simp [QuotedPiece.text, content, same]
      · simpa [← same, clean] using proper
      · rw [← same]
        intro member
        exact free (by simp [content, member])
    · have remaining : Spells pieces (pieces.flatMap QuotedPiece.content)
          (pieces.flatMap QuotedPiece.text) :=
        ⟨rfl, rfl, fun other member => spelled.sound other (List.mem_cons_of_mem piece member)⟩
      have later : '\n' ∈ pieces.flatMap QuotedPiece.content := by
        rw [spelled.value_eq, List.flatMap_cons, List.mem_append] at broken
        exact broken.resolve_left here
      obtain ⟨whole, opened, rest, cut, clean, sound, valid, open_⟩ :=
        ih remaining (fun other member => breaks other (List.mem_cons_of_mem piece member)) later
      refine ⟨piece :: whole, opened, rest, ?_, ?_, ?_, valid, open_⟩
      · rw [spelled.text_eq, List.flatMap_cons, cut]
        simp
      · rw [List.flatMap_cons, List.append_assoc, List.mem_append, not_or]
        exact ⟨by simpa [QuotedPiece.text, here] using proper, clean⟩
      · intro other member
        rcases List.mem_cons.mp member with rfl | member
        · exact ⟨isQuoted, free⟩
        · exact sound other member

theorem lex_cut (line : Nat) (spaced : Bool) (whole : List QuotedPiece) (quote : Char)
    (opened : Text) (sound : ∀ piece ∈ whole, piece.Sound) (isQuoted : isQuote quote = true)
    (free : quote ∉ opened) :
    lex line spaced (whole.flatMap QuotedPiece.text ++ quote :: opened) =
      .error (.unmatchedQuote quote line) := by
  rw [lex_pieces line spaced whole (quote :: opened) sound,
    lex_unmatched line _ quote opened isQuoted free]
  rfl

end ScopedConfig
