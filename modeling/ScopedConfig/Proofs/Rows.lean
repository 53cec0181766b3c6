import ScopedConfig.Descent
import ScopedConfig.Proofs.Faults
import ScopedConfig.Proofs.Quoting
import ScopedConfig.Token.Row

/-!
The reader of one line against rows of lexemes. Every text is a row before blanks, before a quote
that is not closed or before a dollar sign without a name, and what is left decides how the reading
ends. The row of a text that is read is the only one that it has.
-/

namespace ScopedConfig

variable {row : Row} {left text : Text}

theorem Lexeme.text_visible {lexeme : Lexeme} (stands : lexeme.StandsBefore left) :
    ∃ c rest, lexeme.text = c :: rest ∧ isSpace c = false := by
  cases lexeme with
  | bare word =>
    obtain ⟨c, rest, rfl, visible, -⟩ := stands.1.uncons
    exact ⟨c, rest, rfl, visible⟩
  | quoted quote content =>
    exact ⟨quote, _, rfl, isQuote_visible quote ((isQuote_iff quote).mpr stands.1)⟩
  | reference name => exact ⟨'$', name, rfl, by decide⟩

namespace Row

theorem before_append (first last : Row) (left : Text) :
    Row.before left (first ++ last) = first.before (last.before left) := by
  induction first with
  | nil => rfl
  | cons placed first ih => rw [List.cons_append, before, before, ih]

theorem proper_append (first last : Row) (left : Text) :
    Row.Proper left (first ++ last) ↔ first.Proper (last.before left) ∧ last.Proper left := by
  induction first with
  | nil => simp [Proper]
  | cons placed first ih => simp [Proper, ih, before_append, and_assoc]

theorem not_blank_cons {placed : Placed} (proper : Row.Proper left (placed :: row)) :
    ¬ Blank (Row.before left (placed :: row)) := by
  obtain ⟨c, rest, shape, visible⟩ := Lexeme.text_visible proper.2.1
  intro blank
  have space : isSpace c = true := blank c (by simp [before, shape])
  rw [visible] at space
  contradiction

theorem endsInBackslash_cons {placed : Placed} (ends : row.EndsInBackslash) :
    Row.EndsInBackslash (placed :: row) := by
  obtain ⟨last, found, alone⟩ := ends
  cases row with
  | nil => contradiction
  | cons next row => exact ⟨last, by rwa [List.getLast?_cons_cons], alone⟩

end Row

/-- A row is read as its tokens, whatever comes after it, unless it ends in a backslash that is the
last of the text. -/
theorem lex_before (line : Nat) (proper : row.Proper left)
    (inner : ¬ (row.EndsInBackslash ∧ Blank left)) :
    lex line false (row.before left) =
      (lex line false left).map (Segment.after (row.tokens line)) := by
  induction row with
  | nil =>
    cases read : lex line false left <;>
      simp [Row.before, Row.tokens, read, Segment.after, Except.map]
  | cons placed row ih =>
    obtain ⟨blanks, lexeme⟩ := placed
    obtain ⟨blank, stands, later⟩ := proper
    have tail := ih later fun ends => inner ⟨Row.endsInBackslash_cons ends.1, ends.2⟩
    have joined (token : Token) :
        ((lex line false left).map (Segment.after (Row.tokens line row))).map (Segment.cons token) =
          (lex line false left).map (Segment.after (token :: Row.tokens line row)) := by
      cases lex line false left <;> rfl
    rw [Row.before, lex_blank line false blanks _ blank]
    cases lexeme with
    | bare word =>
      have last : ¬ (word = ['\\'] ∧ Blank (Row.before left row)) := by
        rintro ⟨rfl, blankRest⟩
        cases row with
        | nil => exact inner ⟨⟨⟨blanks, .bare ['\\']⟩, rfl, rfl⟩, blankRest⟩
        | cons next row => exact Row.not_blank_cons later blankRest
      rw [Lexeme.text, lex_bare line _ word _ stands.1 stands.2 last, tail, joined]
      rfl
    | quoted quote content =>
      have shape : Lexeme.text (.quoted quote content) ++ Row.before left row =
          quote :: (content ++ quote :: Row.before left row) := by
        simp [Lexeme.text]
      rw [shape, lex_quoted line _ quote content _ ((isQuote_iff quote).mpr stands.1) stands.2, tail,
        joined]
      rfl
    | reference name =>
      rw [Lexeme.text, List.cons_append, lex_reference line _ name _ stands.1 stands.2, tail, joined]
      rfl

theorem lex_opens {line : Nat} (opens : row.Opens left text) {outcome : Except ParseError Segment}
    (inner : ¬ (row.EndsInBackslash ∧ Blank left)) (read : lex line false left = outcome) :
    lex line false text = outcome.map (Segment.after (row.tokens line)) := by
  obtain ⟨rfl, proper⟩ := opens
  rw [lex_before line proper inner, read]

theorem lex_whole {line : Nat} (opens : row.Opens left text) (blank : Blank left)
    (inner : ¬ row.EndsInBackslash) : lex line false text = .ok ⟨row.tokens line, false⟩ := by
  have nothing : lex line false left = .ok ⟨[], false⟩ := by
    have blanks := lex_blank line false left [] blank
    rw [List.append_nil] at blanks
    rw [blanks, lex_nil]
  rw [lex_opens opens (fun ends => inner ends.1) nothing]
  simp [Except.map, Segment.after]

theorem not_blank_of_visible {blanks rest : Text} {c : Char} (visible : isSpace c = false) :
    ¬ Blank (blanks ++ c :: rest) := by
  intro blank
  rw [blank c (by simp)] at visible
  contradiction

theorem lex_unclosed {line : Nat} {quote : Char} (opens : row.Opens left text)
    (unclosed : Unclosed quote left) :
    lex line false text = .error (.unmatchedQuote quote line) := by
  obtain ⟨blanks, rest, rfl, blank, isQuoted, free⟩ := unclosed
  have proper := (isQuote_iff quote).mpr isQuoted
  have failed : lex line false (blanks ++ quote :: rest) = .error (.unmatchedQuote quote line) := by
    rw [lex_blank line false blanks _ blank, lex_unmatched line _ quote rest proper free]
  rw [lex_opens opens (fun ends => not_blank_of_visible (isQuote_visible quote proper) ends.2) failed]
  rfl

theorem lex_nameless {line : Nat} {token : Text} (opens : row.Opens left text)
    (nameless : Nameless token left) :
    lex line false text = .error (.unrecognizedToken token line) := by
  obtain ⟨blanks, rest, rfl, blank, free, rfl⟩ := nameless
  have failed : lex line false (blanks ++ '$' :: rest) =
      .error (.unrecognizedToken ('$' :: rest.takeWhile isVisible) line) := by
    rw [lex_blank line false blanks _ blank, lex_unrecognized line _ rest free]
  rw [lex_opens opens (fun ends => not_blank_of_visible (by decide) ends.2) failed]
  rfl

theorem lex_open {line : Nat} (opens : row.Opens left text) (blank : Blank left)
    (ends : row.EndsInBackslash) : ∃ tokens, lex line false text = .ok ⟨tokens, true⟩ := by
  obtain ⟨rfl, proper⟩ := opens
  obtain ⟨placed, last, alone⟩ := ends
  obtain ⟨front, rfl⟩ := List.getLast?_eq_some_iff.mp last
  obtain ⟨blanks, lexeme⟩ := placed
  obtain rfl : lexeme = .bare ['\\'] := alone
  have shape : Row.before left [⟨blanks, .bare ['\\']⟩] = blanks ++ '\\' :: left := rfl
  rw [Row.proper_append, shape] at proper
  have read : lex line false (blanks ++ '\\' :: left) = .ok ⟨[], true⟩ := by
    rw [lex_blank line false blanks _ proper.2.1, lex_continued line _ left blank]
  rw [Row.before_append, shape, lex_opens ⟨rfl, proper.1⟩
    (fun ends => not_blank_of_visible (by decide) ends.2) read]
  exact ⟨_, rfl⟩

def Ends (left : Text) : Prop :=
  Blank left ∨ (∃ quote, Unclosed quote left) ∨ ∃ token, Nameless token left

theorem Ends.after_space {c : Char} (ends : Ends left) (space : isSpace c = true) :
    Ends (c :: left) := by
  rcases ends with blank | ⟨quote, blanks, rest, rfl, blank, unclosed⟩ |
    ⟨token, blanks, rest, rfl, blank, nameless⟩
  · exact Or.inl (blank.cons space)
  · exact Or.inr (Or.inl ⟨quote, c :: blanks, rest, rfl, blank.cons space, unclosed⟩)
  · exact Or.inr (Or.inr ⟨token, c :: blanks, rest, rfl, blank.cons space, nameless⟩)

def TakenApart (text : Text) : Prop := ∃ (row : Row) (left : Text), row.Opens left text ∧ Ends left

theorem TakenApart.after_space {c : Char} (apart : TakenApart text) (space : isSpace c = true) :
    TakenApart (c :: text) := by
  obtain ⟨row, left, ⟨rfl, proper⟩, ends⟩ := apart
  cases row with
  | nil => exact ⟨[], c :: left, ⟨rfl, trivial⟩, ends.after_space space⟩
  | cons placed row =>
    obtain ⟨blank, stands, later⟩ := proper
    exact ⟨⟨c :: placed.blanks, placed.lexeme⟩ :: row, left,
      ⟨rfl, blank.cons space, stands, later⟩, ends⟩

theorem TakenApart.after_lexeme {next : Text} (apart : TakenApart next) (lexeme : Lexeme)
    (stands : lexeme.StandsBefore next) (shape : lexeme.text ++ next = text) : TakenApart text := by
  obtain ⟨row, left, ⟨rfl, proper⟩, ends⟩ := apart
  exact ⟨⟨[], lexeme⟩ :: row, left, ⟨shape.symm, blank_nil, stands, proper⟩, ends⟩

/-- Every text can be taken apart. The induction follows the reader, which finds the same lexemes. -/
theorem takenApart (line : Nat) (spaced : Bool) (text : Text) : TakenApart text := by
  fun_induction lex line spaced text with
  | case1 spaced => exact ⟨[], [], ⟨rfl, trivial⟩, Or.inl blank_nil⟩
  | case2 spaced c rest space ih => exact ih.after_space space
  | case3 spaced c rest visible quote closed ih =>
    obtain ⟨shape, free⟩ := cut_at_first c rest closed
    refine ih.after_lexeme (.quoted c _) ⟨(isQuote_iff c).mp quote, free⟩ ?_
    simpa [Lexeme.text] using shape.symm
  | case4 spaced c rest visible quote unclosed =>
    have isQuoted := (isQuote_iff c).mp quote
    exact ⟨[], c :: rest, ⟨rfl, trivial⟩,
      Or.inr (Or.inl ⟨c, [], rest, rfl, blank_nil, isQuoted, unclosed⟩)⟩
  | case5 spaced rest nameless visible quote =>
    have outside := head?_of_takeWhile_eq_nil isNameChar rest nameless
    exact ⟨[], '$' :: rest, ⟨rfl, trivial⟩,
      Or.inr (Or.inr ⟨_, [], rest, rfl, blank_nil, outside, rfl⟩)⟩
  | case6 spaced rest visible quote named ih =>
    refine ih.after_lexeme (.reference _) ⟨isName_takeWhile rest named, head?_dropWhile _ rest⟩ ?_
    rw [Lexeme.text, List.cons_append, List.takeWhile_append_dropWhile]
  | case7 spaced c rest visible quote dollar closing =>
    simp only [Bool.and_eq_true, decide_eq_true_eq, List.all_eq_true] at closing
    obtain ⟨rfl, blank⟩ := closing
    have last : TakenApart rest := ⟨[], rest, ⟨rfl, trivial⟩, Or.inl blank⟩
    refine last.after_lexeme (.bare ['\\']) ⟨isWord_takeWhile '\\' [] visible quote dollar, ?_⟩ rfl
    exact fun other first => blank other (List.mem_of_mem_head? first)
  | case8 spaced c rest visible quote dollar inner ih =>
    refine ih.after_lexeme (.bare _) ⟨isWord_takeWhile c rest visible quote dollar, ?_⟩ ?_
    · intro other first
      have outside := head?_dropWhile isVisible rest other first
      simpa [isVisible] using outside
    · rw [Lexeme.text, List.cons_append, List.takeWhile_append_dropWhile]

def Lexeme.split? : Text → Option (Lexeme × Text)
  | [] => none
  | c :: rest =>
    if isQuote c then
      some (.quoted c (rest.takeWhile (· != c)), (rest.dropWhile (· != c)).tail)
    else if c = '$' then some (.reference (rest.takeWhile isNameChar), rest.dropWhile isNameChar)
    else some (.bare (c :: rest.takeWhile isVisible), rest.dropWhile isVisible)

theorem Lexeme.split?_text {lexeme : Lexeme} {next : Text} (stands : lexeme.StandsBefore next) :
    split? (lexeme.text ++ next) = some (lexeme, next) := by
  cases lexeme with
  | bare word =>
    obtain ⟨c, rest, rfl, visible, quote, dollar, later⟩ := stands.1.uncons
    have outside : ∀ other ∈ next.head?, isVisible other = false := by
      intro other first
      simp [isVisible, stands.2 other first]
    obtain ⟨front, back⟩ := span_append isVisible rest next
      (fun other member => (isVisible_iff other).mpr (later other member)) outside
    simp [text, split?, quote, dollar, front, back]
  | quoted quote content =>
    have isQuoted := (isQuote_iff quote).mpr stands.1
    have within : ∀ c ∈ content, (c != quote) = true := by
      intro c member
      rw [bne_iff_ne]
      rintro rfl
      exact stands.2 member
    obtain ⟨front, back⟩ := span_append (· != quote) content (quote :: next) within (by simp)
    simp [text, split?, isQuoted, front, back]
  | reference name =>
    obtain ⟨front, back⟩ := span_append isNameChar name next stands.1.2 stands.2
    have plain : isQuote '$' = false := by decide
    simp [text, split?, plain, front, back]

theorem Lexeme.read_off {lexeme : Lexeme} {blanks next : Text} (blank : Blank blanks)
    (stands : lexeme.StandsBefore next) :
    (blanks ++ (lexeme.text ++ next)).takeWhile isSpace = blanks ∧
      split? ((blanks ++ (lexeme.text ++ next)).dropWhile isSpace) = some (lexeme, next) := by
  obtain ⟨c, rest, shape, visible⟩ := text_visible stands
  obtain ⟨front, back⟩ := span_append isSpace blanks (lexeme.text ++ next) blank
    (by simp [shape, visible])
  exact ⟨front, by rw [back, split?_text stands]⟩

theorem Row.Opens.unique {row' : Row} {left' : Text} (opens : row.Opens left text)
    (blank : Blank left) (opens' : row'.Opens left' text) (blank' : Blank left') :
    row = row' ∧ left = left' := by
  induction row generalizing row' text with
  | nil =>
    obtain ⟨rfl, -⟩ := opens
    obtain ⟨same, proper⟩ := opens'
    cases row' with
    | nil => exact ⟨rfl, same⟩
    | cons placed row => exact absurd (same ▸ blank) (Row.not_blank_cons proper)
  | cons placed row ih =>
    obtain ⟨rfl, proper⟩ := opens
    obtain ⟨same, proper'⟩ := opens'
    cases row' with
    | nil => exact absurd (same ▸ blank') (Row.not_blank_cons proper)
    | cons placed' row' =>
      obtain ⟨blank, stands, later⟩ := proper
      obtain ⟨blank', stands', later'⟩ := proper'
      obtain ⟨front, back⟩ := Lexeme.read_off blank stands
      obtain ⟨front', back'⟩ := Lexeme.read_off blank' stands'
      rw [Row.before, Row.before] at same
      rw [same, front'] at front
      rw [same, back', Option.some.injEq, Prod.mk.injEq] at back
      obtain ⟨rfl, rfl⟩ := ih ⟨rfl, later⟩ ⟨back.2.symm, later'⟩
      obtain ⟨blanks, lexeme⟩ := placed
      obtain ⟨rfl, rfl⟩ : placed'.blanks = blanks ∧ placed'.lexeme = lexeme := ⟨front, back.1⟩
      exact ⟨rfl, rfl⟩

variable {line : Nat} {source : Source}

theorem readValue_whole {tokens : List Token} (read : lex line false text = .ok ⟨tokens, false⟩) :
    readValue text line source = (.ok tokens, source) := by
  obtain ⟨total, lines⟩ := source
  rw [readValue, read]
  cases lines <;> rfl

theorem readValue_failed {error : ParseError} (failed : lex line false text = .error error) :
    readValue text line source = (.error error, source) := by
  rw [readValue, failed]

theorem readValue_open {tokens : List Token} (read : lex line false text = .ok ⟨tokens, true⟩)
    (kept : (readValue text line source).2 = source) :
    readValue text line source = (.error (.unfinished source.total), source) := by
  obtain ⟨total, lines⟩ := source
  cases lines with
  | nil =>
    rw [readValue, read]
    rfl
  | cons next lines =>
    have shorter : (readValue text line ⟨total, next :: lines⟩).2.lines <:+ lines := by
      rw [readValue, read]
      simp only [Segment.complete, if_true]
      cases Segment.extend ⟨tokens, true⟩ next with
      | error error => exact List.suffix_refl lines
      | ok segment => exact segment.complete_suffix total lines
    have length := shorter.length_le
    rw [kept, List.length_cons] at length
    omega

theorem lex_of_readValue {tokens : List Token}
    (read : readValue text line source = (.ok tokens, source)) :
    lex line false text = .ok ⟨tokens, false⟩ := by
  cases segment : lex line false text with
  | error error => cases (readValue_failed segment).symm.trans read
  | ok segment' =>
    obtain ⟨known, continues⟩ := segment'
    cases continues with
    | true => cases (readValue_open segment (by rw [read])).symm.trans read
    | false =>
      cases (readValue_whole segment).symm.trans read
      rfl

theorem readValue_ok_iff {tokens : List Token} :
    readValue text line source = (.ok tokens, source) ↔
      lex line false text = .ok ⟨tokens, false⟩ :=
  ⟨lex_of_readValue, readValue_whole⟩

theorem readValue_error_iff {error : ParseError} (finished : ∀ last, error ≠ .unfinished last) :
    readValue text line source = (.error error, source) ↔ lex line false text = .error error := by
  refine ⟨fun read => ?_, readValue_failed⟩
  cases segment : lex line false text with
  | error other =>
    cases (readValue_failed segment).symm.trans read
    rfl
  | ok segment' =>
    obtain ⟨known, continues⟩ := segment'
    cases continues with
    | true =>
      cases (readValue_open segment (by rw [read])).symm.trans read
      exact absurd rfl (finished _)
    | false => cases (readValue_whole segment).symm.trans read

theorem complete_error {total : Nat} {segment : Segment} {lines : List Line} {error : ParseError}
    (failed : (segment.complete total lines).1 = .error error) :
    error = .unfinished total ∨ ∃ later ∈ lines, error.line = later.number := by
  induction lines generalizing segment with
  | nil =>
    simp only [Segment.complete] at failed
    split at failed
    · exact Or.inl (Except.error.inj failed).symm
    · contradiction
  | cons next lines ih =>
    simp only [Segment.complete] at failed
    split at failed
    · split at failed
      · next fault extended =>
        cases failed
        have unreadable := unreadable_of_lex (map_eq_error.mp extended)
        exact Or.inr ⟨next, List.mem_cons_self, by cases unreadable <;> rfl⟩
      · rcases ih failed with unfinished | ⟨later, member, same⟩
        · exact Or.inl unfinished
        · exact Or.inr ⟨later, List.mem_cons_of_mem next member, same⟩
    · contradiction

/-- How a text is taken apart says how it is read: to its end, on to the next line, or to a fault. -/
theorem lex_outcomes (line : Nat) (text : Text) :
    ∃ (row : Row) (left : Text), row.Opens left text ∧
      ((Blank left ∧ ¬ row.EndsInBackslash ∧
          lex line false text = .ok ⟨row.tokens line, false⟩) ∨
        (∃ tokens, lex line false text = .ok ⟨tokens, true⟩) ∨
        (∃ quote, Unclosed quote left ∧
          lex line false text = .error (.unmatchedQuote quote line)) ∨
        ∃ token, Nameless token left ∧
          lex line false text = .error (.unrecognizedToken token line)) := by
  obtain ⟨row, left, opens, ends⟩ := takenApart line false text
  refine ⟨row, left, opens, ?_⟩
  rcases ends with blank | ⟨quote, unclosed⟩ | ⟨token, nameless⟩
  · by_cases open_ : row.EndsInBackslash
    · exact Or.inr (Or.inl (lex_open opens blank open_))
    · exact Or.inl ⟨blank, open_, lex_whole opens blank open_⟩
  · exact Or.inr (Or.inr (Or.inl ⟨quote, unclosed, lex_unclosed opens unclosed⟩))
  · exact Or.inr (Or.inr (Or.inr ⟨token, nameless, lex_nameless opens nameless⟩))

theorem lex_whole_iff {tokens : List Token} :
    lex line false text = .ok ⟨tokens, false⟩ ↔
      ∃ (row : Row) (last : Text), row.Opens last text ∧ Blank last ∧ ¬ row.EndsInBackslash ∧
        tokens = row.tokens line := by
  constructor
  · intro read
    obtain ⟨row, left, opens, ⟨blank, inner, here⟩ | ⟨_, here⟩ | ⟨_, -, here⟩ | ⟨_, -, here⟩⟩ :=
      lex_outcomes line text
    · cases here.symm.trans read
      exact ⟨row, left, opens, blank, inner, rfl⟩
    all_goals cases here.symm.trans read
  · rintro ⟨row, last, opens, blank, inner, rfl⟩
    exact lex_whole opens blank inner

theorem lex_unmatched_iff {quote : Char} :
    lex line false text = .error (.unmatchedQuote quote line) ↔
      ∃ (row : Row) (left : Text), row.Opens left text ∧ Unclosed quote left := by
  constructor
  · intro failed
    obtain ⟨row, left, opens, ⟨-, -, here⟩ | ⟨_, here⟩ | ⟨_, unclosed, here⟩ | ⟨_, -, here⟩⟩ :=
      lex_outcomes line text
    · cases here.symm.trans failed
    · cases here.symm.trans failed
    · cases here.symm.trans failed
      exact ⟨row, left, opens, unclosed⟩
    · cases here.symm.trans failed
  · rintro ⟨row, left, opens, unclosed⟩
    exact lex_unclosed opens unclosed

theorem lex_unrecognized_iff {token : Text} :
    lex line false text = .error (.unrecognizedToken token line) ↔
      ∃ (row : Row) (left : Text), row.Opens left text ∧ Nameless token left := by
  constructor
  · intro failed
    obtain ⟨row, left, opens, ⟨-, -, here⟩ | ⟨_, here⟩ | ⟨_, -, here⟩ | ⟨_, nameless, here⟩⟩ :=
      lex_outcomes line text
    · cases here.symm.trans failed
    · cases here.symm.trans failed
    · cases here.symm.trans failed
    · cases here.symm.trans failed
      exact ⟨row, left, opens, nameless⟩
  · rintro ⟨row, left, opens, nameless⟩
    exact lex_nameless opens nameless

theorem readValue_kept (others : ∀ later ∈ source.lines, later.number ≠ line) {error : ParseError}
    (failed : (readValue text line source).1 = .error error) (same : error.line = line)
    (finished : ∀ last, error ≠ .unfinished last) : (readValue text line source).2 = source := by
  cases segment : lex line false text with
  | error other => rw [readValue_failed segment]
  | ok segment' =>
    rw [readValue, segment] at failed
    rcases complete_error failed with unfinished | ⟨later, member, number⟩
    · exact absurd unfinished (finished _)
    · exact absurd (number.symm.trans same) (others later member)

/-- A value is read without another line just if its text is a row of lexemes before blanks that does
not end in a backslash, and the row is the only one. Its text fails just if a row comes before a quote
that is not closed, or before a dollar sign without a name. A fault that names the line of the text is
one of these, unless a line that continues the value has the same number. -/
theorem readValue_row (text : Text) (line : Nat) (source : Source) :
    (∀ tokens, readValue text line source = (.ok tokens, source) ↔
      ∃ (row : Row) (last : Text), row.Opens last text ∧ Blank last ∧ ¬ row.EndsInBackslash ∧
        tokens = row.tokens line) ∧
    (∀ (row row' : Row) (last last' : Text), row.Opens last text → Blank last →
      row'.Opens last' text → Blank last' → row = row' ∧ last = last') ∧
    (∀ quote, readValue text line source = (.error (.unmatchedQuote quote line), source) ↔
      ∃ (row : Row) (left : Text), row.Opens left text ∧ Unclosed quote left) ∧
    (∀ token, readValue text line source = (.error (.unrecognizedToken token line), source) ↔
      ∃ (row : Row) (left : Text), row.Opens left text ∧ Nameless token left) ∧
    ((∀ later ∈ source.lines, later.number ≠ line) →
      ∀ error, (readValue text line source).1 = .error error → error.line = line →
        (∀ last, error ≠ .unfinished last) → (readValue text line source).2 = source) := by
  refine ⟨fun tokens => ?_, ?_, fun quote => ?_, fun token => ?_, ?_⟩
  · exact readValue_ok_iff.trans lex_whole_iff
  · intro row row' last last' opens blank opens' blank'
    exact opens.unique blank opens' blank'
  · exact (readValue_error_iff (by simp)).trans lex_unmatched_iff
  · exact (readValue_error_iff (by simp)).trans lex_unrecognized_iff
  · intro others error failed same finished
    exact readValue_kept others failed same finished

/-- A word with a quote in it, lexemes side by side, and a word that begins with a backslash; then a
backslash that is a word of its own, before a quote that is closed on a later line only. -/
theorem readValue_row_glued :
    let text : Text := "a\x22b 'c''d'$v\\w ".toList
    let row : Row := [⟨[], .bare ['a', '\x22', 'b']⟩, ⟨[' '], .quoted '\x27' ['c']⟩,
      ⟨[], .quoted '\x27' ['d']⟩, ⟨[], .reference ['v']⟩, ⟨[], .bare ['\\', 'w']⟩]
    let open_ : Text := "\\ $v'".toList
    let source : Source := ⟨9, [⟨5, ['\x27']⟩]⟩
    readValue text 4 source = (.ok (row.tokens 4), source) ∧
      (∀ (other : Row) (last : Text), other.Opens last text → Blank last →
        row = other ∧ [' '] = last) ∧
      readValue open_ 4 source = (.error (.unmatchedQuote '\x27' 4), source) ∧
      (readValue open_ 4 source).2 = source := by
  intro text row open_ source
  have opens : row.Opens [' '] text := by
    refine ⟨rfl, ?_⟩
    simp [row, Row.Proper, Lexeme.StandsBefore, IsWord, IsName, Blank, Row.before, Lexeme.text]
    decide
  have blank : Blank [' '] := blank_replicate 1
  have inner : ¬ row.EndsInBackslash := by simp [row, Row.EndsInBackslash]
  obtain ⟨whole, unique, -, -, -⟩ := readValue_row text 4 source
  obtain ⟨-, -, unmatched, -, found⟩ := readValue_row open_ 4 source
  have failed : readValue open_ 4 source = (.error (.unmatchedQuote '\x27' 4), source) := by
    refine (unmatched '\x27').mpr ⟨[⟨[], .bare ['\\']⟩, ⟨[' '], .reference ['v']⟩], ['\x27'], ?_, ?_⟩
    · refine ⟨rfl, ?_⟩
      simp [Row.Proper, Lexeme.StandsBefore, IsWord, IsName, Blank, Row.before, Lexeme.text]
      decide
    · exact ⟨[], [], rfl, blank_nil, Or.inr rfl, List.not_mem_nil⟩
  refine ⟨(whole _).mpr ⟨row, [' '], opens, blank, inner, rfl⟩, ?_, failed, ?_⟩
  · intro other last opens' blank'
    exact unique row other [' '] last opens blank opens' blank'
  · exact found (by simp [source]) _ (by rw [failed]) rfl (by simp)

end ScopedConfig
