import ScopedConfig.Proofs.Text
import ScopedConfig.Token.Lexer

namespace ScopedConfig

theorem isQuote_iff (c : Char) : isQuote c = true ↔ c = '\x22' ∨ c = '\x27' := by
  simp [isQuote]

theorem isQuote_visible (c : Char) (quote : isQuote c = true) : isSpace c = false := by
  rcases (isQuote_iff c).mp quote with rfl | rfl <;> decide

theorem lex_nil (line : Nat) (spaced : Bool) : lex line spaced [] = .ok ⟨[], false⟩ := by
  rw [lex]

theorem lex_blank (line : Nat) (spaced : Bool) (blanks rest : Text) (blank : Blank blanks) :
    lex line spaced (blanks ++ rest) = lex line (spaced || !blanks.isEmpty) rest := by
  induction blanks generalizing spaced with
  | nil => simp
  | cons c blanks ih =>
    have space : isSpace c = true := blank c List.mem_cons_self
    have later : Blank blanks := fun other member => blank other (List.mem_cons_of_mem c member)
    rw [List.cons_append, lex, if_pos space, ih true later]
    simp

theorem lex_quoted (line : Nat) (spaced : Bool) (quote : Char) (content rest : Text)
    (isQuoted : isQuote quote = true) (free : quote ∉ content) :
    lex line spaced (quote :: (content ++ quote :: rest)) =
      (lex line false rest).map (.cons ⟨.quoted content, spaced, line⟩) := by
  have within : ∀ c ∈ content, (c != quote) = true := by
    intro c member
    rw [bne_iff_ne]
    rintro rfl
    exact free member
  obtain ⟨front, back⟩ := span_append (· != quote) content (quote :: rest) within (by simp)
  have closed : quote ∈ content ++ quote :: rest := by simp
  rw [lex, if_neg (by simp [isQuote_visible quote isQuoted]), if_pos isQuoted, if_pos closed,
    front, back, List.tail_cons]

theorem lex_unmatched (line : Nat) (spaced : Bool) (quote : Char) (rest : Text)
    (isQuoted : isQuote quote = true) (free : quote ∉ rest) :
    lex line spaced (quote :: rest) = .error (.unmatchedQuote quote line) := by
  rw [lex, if_neg (by simp [isQuote_visible quote isQuoted]), if_pos isQuoted, if_neg free]

theorem lex_reference (line : Nat) (spaced : Bool) (name rest : Text) (named : IsName name)
    (ends : ∀ c ∈ rest.head?, isNameChar c = false) :
    lex line spaced ('$' :: (name ++ rest)) =
      (lex line false rest).map (.cons ⟨.reference name, spaced, line⟩) := by
  obtain ⟨front, back⟩ := span_append isNameChar name rest named.2 ends
  rw [lex, if_neg (by decide), if_neg (by decide), if_pos rfl, front, back]
  cases name with
  | nil => exact absurd rfl named.1
  | cons c name => rfl

theorem lex_unrecognized (line : Nat) (spaced : Bool) (rest : Text)
    (nameless : ∀ c ∈ rest.head?, isNameChar c = false) :
    lex line spaced ('$' :: rest) =
      .error (.unrecognizedToken ('$' :: rest.takeWhile isVisible) line) := by
  have nothing := (span_append isNameChar [] rest (by simp) nameless).1
  rw [List.nil_append] at nothing
  rw [lex, if_neg (by decide), if_neg (by decide), if_pos rfl, nothing]

theorem lex_continued (line : Nat) (spaced : Bool) (rest : Text) (blank : Blank rest) :
    lex line spaced ('\\' :: rest) = .ok ⟨[], true⟩ := by
  have last : rest.all isSpace = true := List.all_eq_true.mpr blank
  rw [lex, if_neg (by decide), if_neg (by decide), if_neg (by decide), if_pos (by simp [last])]

theorem IsWord.uncons {word : Text} (proper : IsWord word) :
    ∃ c rest, word = c :: rest ∧ isSpace c = false ∧ isQuote c = false ∧ c ≠ '$' ∧
      ∀ other ∈ rest, isSpace other = false := by
  cases word with
  | nil => exact False.elim proper
  | cons c rest =>
    obtain ⟨double, single, dollar, visible⟩ := proper
    refine ⟨c, rest, rfl, visible c List.mem_cons_self, by simp [isQuote, double, single], dollar, ?_⟩
    exact fun other member => visible other (List.mem_cons_of_mem c member)

theorem IsWord.visible {word : Text} (proper : IsWord word) : ∀ c ∈ word, isSpace c = false := by
  cases word with
  | nil => exact False.elim proper
  | cons c rest => exact proper.2.2.2

theorem lex_bare (line : Nat) (spaced : Bool) (word rest : Text) (proper : IsWord word)
    (ends : ∀ c ∈ rest.head?, isSpace c = true) (inner : ¬ (word = ['\\'] ∧ Blank rest)) :
    lex line spaced (word ++ rest) =
      (lex line false rest).map (.cons ⟨.bare word, spaced, line⟩) := by
  obtain ⟨c, tail, rfl, visible, quote, dollar, tailVisible⟩ := proper.uncons
  have within : ∀ other ∈ tail, isVisible other = true :=
    fun other member => (isVisible_iff other).mpr (tailVisible other member)
  have outside : ∀ other ∈ rest.head?, isVisible other = false := by
    intro other first
    simp [isVisible, ends other first]
  obtain ⟨front, back⟩ := span_append isVisible tail rest within outside
  have unfinished : ¬ ((decide (c = '\\') && (tail ++ rest).all isSpace) = true) := by
    intro closing
    simp only [Bool.and_eq_true, decide_eq_true_eq, List.all_append, List.all_eq_true] at closing
    obtain ⟨backslash, spaces, blank⟩ := closing
    apply inner
    have nothing : tail = [] := by
      rw [List.eq_nil_iff_forall_not_mem]
      intro other member
      have space := spaces other member
      rw [tailVisible other member] at space
      contradiction
    exact ⟨by rw [backslash, nothing], blank⟩
  rw [List.cons_append, lex, if_neg (by simp [visible]), if_neg (by simp [quote]), if_neg dollar,
    if_neg unfinished, front, back]

end ScopedConfig
