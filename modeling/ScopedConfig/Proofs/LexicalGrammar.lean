import ScopedConfig.Grammar
import ScopedConfig.Proofs.Lexing
import ScopedConfig.Proofs.Outcomes

namespace ScopedConfig

def Piece.token (line : Nat) (piece : Piece) : Token := ⟨piece.kind, piece.spaced, line⟩

theorem lex_of_pieces (line : Nat) {spaced continues : Bool} {text : Text} {pieces : List Piece}
    (row : Pieces spaced text pieces continues) :
    lex line spaced text = .ok ⟨pieces.map (Piece.token line), continues⟩ := by
  induction row with
  | @nothing spaced blanks blank =>
    have read := lex_blank line spaced blanks [] blank
    rw [List.append_nil] at read
    rw [read, lex_nil]
    rfl
  | @backslash spaced blanks after blank last =>
    rw [lex_blank line spaced blanks _ blank, lex_continued line _ after last]
    rfl
  | bare blank proper ends inner later ih =>
    rw [lex_blank line _ _ _ blank, lex_bare line _ _ _ proper ends inner, ih]
    rfl
  | @quoted spaced continues blanks content rest quote pieces blank isQuoted free later ih =>
    rw [lex_blank line _ _ _ blank,
      lex_quoted line _ quote content rest ((isQuote_iff quote).mpr isQuoted) free, ih]
    rfl
  | @reference spaced continues blanks name rest pieces blank named longest later ih =>
    rw [lex_blank line _ _ _ blank, lex_reference line _ name rest named longest, ih]
    rfl

theorem Pieces.after_space {c : Char} {spaced continues : Bool} {rest : Text} {pieces : List Piece}
    (space : isSpace c = true) (row : Pieces true rest pieces continues) :
    Pieces spaced (c :: rest) pieces continues := by
  cases row with
  | nothing blank => exact .nothing (.cons space blank)
  | backslash blank last => exact .backslash (.cons space blank) last
  | bare blank proper ends inner later =>
    have row : Pieces spaced _ _ _ := .bare (.cons space blank) proper ends inner later
    simpa using row
  | quoted blank isQuoted free later =>
    have row : Pieces spaced _ _ _ := .quoted (.cons space blank) isQuoted free later
    simpa using row
  | reference blank named longest later =>
    have row : Pieces spaced _ _ _ := .reference (.cons space blank) named longest later
    simpa using row

theorem blank_nil : Blank [] := by
  intro c member
  exact absurd member List.not_mem_nil

theorem isWord_takeWhile (c : Char) (rest : Text) (visible : ¬ isSpace c = true)
    (quote : ¬ isQuote c = true) (dollar : c ≠ '$') : IsWord (c :: rest.takeWhile isVisible) := by
  rw [isQuote_iff, not_or] at quote
  refine ⟨quote.1, quote.2, dollar, ?_⟩
  intro other member
  rcases List.mem_cons.mp member with rfl | member
  · simpa using visible
  · exact (isVisible_iff other).mp (List.mem_takeWhile_imp member)

theorem not_continued_of_word (c : Char) (rest : Text)
    (inner : ¬ (decide (c = '\\') && rest.all isSpace) = true) :
    ¬ (c :: rest.takeWhile isVisible = ['\\'] ∧ Blank (rest.dropWhile isVisible)) := by
  rintro ⟨alone, blank⟩
  obtain ⟨rfl, nothing⟩ := List.cons.inj alone
  have all : rest.dropWhile isVisible = rest := by
    calc
      rest.dropWhile isVisible = rest.takeWhile isVisible ++ rest.dropWhile isVisible := by
        rw [nothing, List.nil_append]
      _ = rest := List.takeWhile_append_dropWhile
  rw [all] at blank
  apply inner
  rw [Bool.and_eq_true, decide_eq_true_eq, List.all_eq_true]
  exact ⟨rfl, blank⟩

/-- What is read is a row of pieces. The induction follows the reader, which takes blanks one at a
time and every piece as a whole. -/
theorem pieces_of_lex (line : Nat) (spaced : Bool) (text : Text) (segment : Segment)
    (read : lex line spaced text = .ok segment) :
    ∃ pieces, Pieces spaced text pieces segment.continues ∧
      segment.tokens = pieces.map (Piece.token line) := by
  fun_induction lex line spaced text generalizing segment with
  | case1 spaced =>
    cases read
    exact ⟨[], .nothing blank_nil, rfl⟩
  | case2 spaced c rest space ih =>
    obtain ⟨pieces, row, tokens⟩ := ih segment read
    exact ⟨pieces, row.after_space space, tokens⟩
  | case3 spaced c rest visible quote closed ih =>
    obtain ⟨tail, later, rfl⟩ := map_eq_ok.mp read
    obtain ⟨pieces, row, tokens⟩ := ih tail later
    obtain ⟨shape, free⟩ := cut_at_first c rest closed
    have whole : Pieces spaced _ _ _ := .quoted blank_nil ((isQuote_iff c).mp quote) free row
    rw [List.nil_append, ← shape] at whole
    exact ⟨_, whole, by simp [Segment.cons, tokens, Piece.token]⟩
  | case4 spaced c rest visible quote unclosed => contradiction
  | case5 spaced rest nameless => contradiction
  | case6 spaced rest visible quote named ih =>
    obtain ⟨tail, later, rfl⟩ := map_eq_ok.mp read
    obtain ⟨pieces, row, tokens⟩ := ih tail later
    have whole : Pieces spaced _ _ _ := .reference blank_nil (isName_takeWhile rest named)
      (head?_dropWhile isNameChar rest) row
    rw [List.nil_append, List.takeWhile_append_dropWhile] at whole
    exact ⟨_, whole, by simp [Segment.cons, tokens, Piece.token]⟩
  | case7 spaced c rest visible quote dollar closing =>
    cases read
    simp only [Bool.and_eq_true, decide_eq_true_eq, List.all_eq_true] at closing
    obtain ⟨rfl, blank⟩ := closing
    exact ⟨[], .backslash blank_nil blank, rfl⟩
  | case8 spaced c rest visible quote dollar inner ih =>
    obtain ⟨tail, later, rfl⟩ := map_eq_ok.mp read
    obtain ⟨pieces, row, tokens⟩ := ih tail later
    have proper := isWord_takeWhile c rest visible quote dollar
    have ends : ∀ other ∈ (rest.dropWhile isVisible).head?, isSpace other = true := by
      intro other first
      have outside := head?_dropWhile isVisible rest other first
      simpa [isVisible] using outside
    have open_ := not_continued_of_word c rest inner
    have whole : Pieces spaced _ _ _ := .bare blank_nil proper ends open_ row
    rw [List.nil_append, List.cons_append, List.takeWhile_append_dropWhile] at whole
    exact ⟨_, whole, by simp [Segment.cons, tokens, Piece.token]⟩

theorem map_piece_token (line : Nat) (pieces : List Piece) :
    (pieces.map (Piece.token line)).map Token.piece = pieces := by
  induction pieces with
  | nil => rfl
  | cons piece pieces ih => rw [List.map_cons, List.map_cons, ih]; rfl

theorem row_of_lex {line : Nat} {spaced : Bool} {text : Text} {segment : Segment}
    (read : lex line spaced text = .ok segment) :
    Pieces spaced text (segment.tokens.map Token.piece) segment.continues := by
  obtain ⟨pieces, row, tokens⟩ := pieces_of_lex line spaced text segment read
  rwa [tokens, map_piece_token]

def TokenKind.spelling : TokenKind → Text
  | bare word => word
  | quoted content => content
  | reference name => '$' :: name

theorem Pieces.spelled {spaced continues : Bool} {text : Text} {pieces : List Piece}
    (row : Pieces spaced text pieces continues) :
    ∀ piece ∈ pieces, piece.kind.spelling <:+: text := by
  induction row with
  | nothing blank => simp
  | backslash blank last => simp
  | @bare spaced continues blanks word rest pieces blank proper ends inner later ih =>
    intro piece member
    rcases List.mem_cons.mp member with rfl | member
    · exact ⟨blanks, rest, by simp [TokenKind.spelling]⟩
    · exact (ih piece member).trans ⟨blanks ++ word, [], by simp⟩
  | @quoted spaced continues blanks content rest quote pieces blank isQuoted free later ih =>
    intro piece member
    rcases List.mem_cons.mp member with rfl | member
    · exact ⟨blanks ++ [quote], quote :: rest, by simp [TokenKind.spelling]⟩
    · exact (ih piece member).trans ⟨blanks ++ quote :: (content ++ [quote]), [], by simp⟩
  | @reference spaced continues blanks name rest pieces blank named longest later ih =>
    intro piece member
    rcases List.mem_cons.mp member with rfl | member
    · exact ⟨blanks, rest, by simp [TokenKind.spelling]⟩
    · exact (ih piece member).trans ⟨blanks ++ '$' :: name, [], by simp⟩

theorem spelled_of_lex {line : Nat} {spaced : Bool} {text : Text} {segment : Segment}
    (read : lex line spaced text = .ok segment) (token : Token) (member : token ∈ segment.tokens) :
    token.line = line ∧ token.kind.spelling <:+: text := by
  obtain ⟨pieces, row, tokens⟩ := pieces_of_lex line spaced text segment read
  rw [tokens] at member
  obtain ⟨piece, within, rfl⟩ := List.mem_map.mp member
  exact ⟨rfl, row.spelled piece within⟩

end ScopedConfig
