import ScopedConfig.Continuation
import ScopedConfig.Proofs.Rows
import ScopedConfig.Proofs.Simulation

/-!
Continued values. A backslash that ends a line is read as a blank before the next one: the tokens
are those of the two lines put together, under the numbers of the lines on which they stand. Only a
line that goes on takes another one, whether the value is read or not.
-/

namespace ScopedConfig

variable {spaced continues : Bool} {text : Text} {pieces : List Piece}

theorem Pieces.blank_of_none (row : Pieces spaced text pieces false)
    (none : pieces.map (·.kind) = []) : Blank text := by
  obtain rfl := List.map_eq_nil_iff.mp none
  cases row with
  | nothing blank => exact blank

theorem Pieces.nil_of_nil (row : Pieces spaced [] pieces continues) : pieces = [] := by
  have read := lex_of_pieces 0 row
  rw [lex_nil, Except.ok.injEq, Segment.mk.injEq] at read
  exact List.map_eq_nil_iff.mp read.1.symm

theorem Pieces.with_spaced (row : Pieces spaced text pieces continues) (spaced' : Bool) :
    ∃ pieces', Pieces spaced' text pieces' continues ∧
      pieces'.map (·.kind) = pieces.map (·.kind) := by
  cases row with
  | nothing blank => exact ⟨_, .nothing blank, rfl⟩
  | backslash blank last => exact ⟨_, .backslash blank last, rfl⟩
  | bare blank proper ends inner later => exact ⟨_, .bare blank proper ends inner later, rfl⟩
  | quoted blank isQuoted free later => exact ⟨_, .quoted blank isQuoted free later, rfl⟩
  | reference blank named longest later => exact ⟨_, .reference blank named longest later, rfl⟩

theorem goesOn_iff (line : Nat) (spaced : Bool) (text : Text) :
    GoesOn text ↔ ∃ tokens, lex line spaced text = .ok ⟨tokens, true⟩ := by
  constructor
  · rintro ⟨pieces, row⟩
    obtain ⟨pieces', row', -⟩ := row.with_spaced spaced
    exact ⟨_, lex_of_pieces line row'⟩
  · rintro ⟨tokens, read⟩
    obtain ⟨pieces, row, -⟩ := pieces_of_lex line spaced text _ read
    obtain ⟨pieces', row', -⟩ := row.with_spaced false
    exact ⟨pieces', row'⟩

theorem lex_cases (line : Nat) (spaced : Bool) (text : Text) :
    (∃ error, lex line spaced text = .error error ∧ ¬ GoesOn text) ∨
      (∃ tokens, lex line spaced text = .ok ⟨tokens, false⟩ ∧ ¬ GoesOn text) ∨
      ∃ tokens, lex line spaced text = .ok ⟨tokens, true⟩ ∧ GoesOn text := by
  rw [goesOn_iff line spaced text]
  cases lex line spaced text with
  | error error => simp
  | ok segment =>
    obtain ⟨tokens, continues⟩ := segment
    cases continues <;> simp

theorem StandsApart.tail {front : Text} {kind : TokenKind} {kinds : List TokenKind}
    (apart : StandsApart (front ++ text) (kind :: kinds)) (last : kinds = [] → Blank text) :
    StandsApart text kinds := by
  by_cases empty : text = []
  · exact Or.inl empty
  · have ends : (front ++ text).getLast? = text.getLast? :=
      List.getLast?_append_of_ne_nil front empty
    rcases apart with nothing | ⟨c, found, space⟩ | ⟨other, found, glued⟩
    · exact absurd (List.append_eq_nil_iff.mp nothing).2 empty
    · exact Or.inr (Or.inl ⟨c, ends ▸ found, space⟩)
    · cases kinds with
      | nil =>
        have final := List.getLast?_eq_some_getLast empty
        exact Or.inr (Or.inl ⟨_, final, last rfl _ (List.getLast_mem empty)⟩)
      | cons next kinds =>
        rw [List.getLast?_cons_cons] at found
        exact Or.inr (Or.inr ⟨other, found, glued⟩)

theorem Blank.of_append {first last : Text} (blank : Blank (first ++ last)) : Blank first :=
  fun c member => blank c (List.mem_append_left last member)

theorem mem_head?_append {first last : Text} (nonempty : first ≠ []) {c : Char}
    (head : c ∈ (first ++ last).head?) : c ∈ first.head? := by
  cases first with
  | nil => exact absurd rfl nonempty
  | cons other first => exact head

theorem not_standsApart_word {blanks word : Text} (proper : IsWord word) :
    ¬ StandsApart (blanks ++ word) [.bare word] := by
  obtain ⟨c, rest, shape, -, -, -, -⟩ := proper.uncons
  have nonempty : word ≠ [] := by simp [shape]
  rintro (nothing | ⟨last, found, space⟩ | ⟨kind, found, glued⟩)
  · exact nonempty (List.append_eq_nil_iff.mp nothing).2
  · rw [List.getLast?_append_of_ne_nil blanks nonempty] at found
    have visible := proper.visible last (List.mem_of_getLast? found)
    rw [space] at visible
    contradiction
  · exact glued word (Option.some.inj found).symm

/-- A row of pieces is read in the same way with something after it that stands apart. -/
theorem lex_append (row : Pieces spaced text pieces continues) (whole : continues = false)
    (apart : StandsApart text (pieces.map (·.kind))) (rest : Text)
    (plain : ∀ c ∈ rest.head?, isNameChar c = false) :
    ∃ spaced', ∀ line, lex line spaced (text ++ rest) =
      (lex line spaced' rest).map (Segment.after (pieces.map (Piece.token line))) := by
  have joined (line : Nat) (spaced' : Bool) (piece : Piece) (pieces : List Piece) :
      ((lex line spaced' rest).map (Segment.after (pieces.map (Piece.token line)))).map
          (Segment.cons (piece.token line)) =
        (lex line spaced' rest).map (Segment.after ((piece :: pieces).map (Piece.token line))) := by
    cases lex line spaced' rest <;> rfl
  induction row with
  | @nothing spaced blanks blank =>
    refine ⟨spaced || !blanks.isEmpty, fun line => ?_⟩
    rw [lex_blank line spaced blanks rest blank]
    cases lex line (spaced || !blanks.isEmpty) rest <;> rfl
  | backslash blank last => contradiction
  | @bare spaced continues blanks word rest' pieces blank proper ends inner later ih =>
    subst whole
    have nonempty : rest' ≠ [] := by
      rintro rfl
      obtain rfl := later.nil_of_nil
      rw [List.append_nil] at apart
      exact not_standsApart_word proper apart
    rw [← List.append_assoc] at apart
    obtain ⟨spaced', read⟩ := ih rfl (apart.tail later.blank_of_none)
    refine ⟨spaced', fun line => ?_⟩
    have head : ∀ c ∈ (rest' ++ rest).head?, isSpace c = true :=
      fun c first => ends c (mem_head?_append nonempty first)
    rw [List.append_assoc, List.append_assoc, lex_blank line spaced blanks _ blank,
      lex_bare line _ word _ proper head fun both => inner ⟨both.1, both.2.of_append⟩, read]
    exact joined line spaced' ⟨.bare word, spaced || !blanks.isEmpty⟩ pieces
  | @quoted spaced continues blanks content rest' quote pieces blank isQuoted free later ih =>
    subst whole
    have shape : blanks ++ quote :: (content ++ quote :: rest') =
        blanks ++ quote :: (content ++ [quote]) ++ rest' := by
      simp
    rw [shape] at apart ⊢
    obtain ⟨spaced', read⟩ := ih rfl (apart.tail later.blank_of_none)
    refine ⟨spaced', fun line => ?_⟩
    have front : blanks ++ quote :: (content ++ [quote]) ++ rest' ++ rest =
        blanks ++ quote :: (content ++ quote :: (rest' ++ rest)) := by
      simp
    rw [front, lex_blank line spaced blanks _ blank,
      lex_quoted line _ quote content _ ((isQuote_iff quote).mpr isQuoted) free, read]
    exact joined line spaced' ⟨.quoted content, spaced || !blanks.isEmpty⟩ pieces
  | @reference spaced continues blanks name rest' pieces blank named longest later ih =>
    subst whole
    have shape : blanks ++ '$' :: (name ++ rest') = blanks ++ '$' :: name ++ rest' := by simp
    rw [shape] at apart ⊢
    obtain ⟨spaced', read⟩ := ih rfl (apart.tail later.blank_of_none)
    refine ⟨spaced', fun line => ?_⟩
    have front : blanks ++ '$' :: name ++ rest' ++ rest =
        blanks ++ '$' :: (name ++ (rest' ++ rest)) := by
      simp
    have outside : ∀ c ∈ (rest' ++ rest).head?, isNameChar c = false := by
      cases rest' with
      | nil => exact plain
      | cons c rest' => exact longest
    rw [front, lex_blank line spaced blanks _ blank, lex_reference line _ name _ named outside,
      read]
    exact joined line spaced' ⟨.reference name, spaced || !blanks.isEmpty⟩ pieces

variable {first blanks : Text} {number : Nat} {tokens : List Token}

theorem lex_apart (read : lex number false first = .ok ⟨tokens, false⟩)
    (apart : StandsApart first (tokens.map (·.kind))) (rest : Text)
    (plain : ∀ c ∈ rest.head?, isNameChar c = false) :
    ∃ spaced, lex number false (first ++ rest) =
      (lex number spaced rest).map (Segment.after tokens) := by
  obtain ⟨pieces, row, shape⟩ := pieces_of_lex number false first _ read
  obtain rfl : tokens = pieces.map (Piece.token number) := shape
  have kinds : (pieces.map (Piece.token number)).map (·.kind) = pieces.map (·.kind) := by
    rw [List.map_map]
    rfl
  rw [kinds] at apart
  obtain ⟨spaced, joined⟩ := lex_append row rfl apart rest plain
  exact ⟨spaced, joined number⟩

theorem lex_backslash (read : lex number false first = .ok ⟨tokens, false⟩)
    (apart : StandsApart first (tokens.map (·.kind))) (blank : Blank blanks) :
    lex number false (first ++ '\\' :: blanks) = .ok ⟨tokens, true⟩ := by
  obtain ⟨spaced, joined⟩ := lex_apart read apart ('\\' :: blanks) (by simp; decide)
  rw [joined, lex_continued number spaced blanks blank]
  simp [Except.map, Segment.after]

theorem lex_space (read : lex number false first = .ok ⟨tokens, false⟩)
    (apart : StandsApart first (tokens.map (·.kind))) (next : Text) :
    lex number false (first ++ ' ' :: next) =
      (lex number true next).map (Segment.after tokens) := by
  obtain ⟨spaced, joined⟩ := lex_apart read apart (' ' :: next) (by simp; decide)
  have space := lex_blank number spaced [' '] next (blank_replicate 1)
  rw [List.singleton_append] at space
  rw [joined, space]
  simp

theorem complete_known (total : Nat) (known : List Token) (continues : Bool) (lines : List Line) :
    Segment.complete total ⟨known, continues⟩ lines =
      ((Segment.complete total ⟨[], continues⟩ lines).1.map (known ++ ·),
        (Segment.complete total ⟨[], continues⟩ lines).2) := by
  induction lines generalizing known continues with
  | nil => cases continues <;> simp [Segment.complete, Except.map]
  | cons line lines ih =>
    cases continues with
    | false => simp [Segment.complete, Except.map]
    | true =>
      simp only [Segment.complete, Segment.extend, if_true]
      cases lex line.number true line.text with
      | error error => rfl
      | ok next =>
        simp only [Except.map, List.nil_append]
        rw [ih (known ++ next.tokens), ih next.tokens]
        cases (Segment.complete total ⟨[], next.continues⟩ lines).1 <;> simp [Except.map]

theorem leaves_complete (total : Nat) {text : Text} (goesOn : GoesOn text) (known : List Token)
    (lines : List Line) : Leaves text lines (Segment.complete total ⟨known, true⟩ lines).2 := by
  induction lines generalizing text known with
  | nil => exact .exhausted goesOn
  | cons line lines ih =>
    apply Leaves.taken goesOn
    simp only [Segment.complete, Segment.extend, if_true]
    rcases lex_cases line.number true line.text with
      ⟨error, failed, ends⟩ | ⟨tokens, read, ends⟩ | ⟨tokens, read, next⟩
    · rw [failed]
      exact .ended ends
    · rw [read]
      cases lines <;> exact .ended ends
    · rw [read]
      exact ih next (known ++ tokens)

theorem leaves_readValue (text : Text) (number : Nat) (source : Source) :
    Leaves text source.lines (readValue text number source).2.lines := by
  rcases lex_cases number false text with
    ⟨error, failed, ends⟩ | ⟨tokens, read, ends⟩ | ⟨tokens, read, goesOn⟩
  · rw [readValue_failed failed]
    exact .ended ends
  · rw [readValue_whole read]
    exact .ended ends
  · rw [readValue, read]
    exact leaves_complete source.total goesOn tokens source.lines

def goOn (total : Nat) (known : List Token) (lines : List Line) :
    Except ParseError Segment → Except ParseError (List Token) × Source
  | .error error => (.error error, ⟨total, lines⟩)
  | .ok next =>
    let later := Segment.complete total ⟨[], next.continues⟩ lines
    (later.1.map (known ++ next.tokens ++ ·), ⟨total, later.2⟩)

theorem goOn_ok (total : Nat) (known : List Token) (lines : List Line) (next : Segment) :
    goOn total known lines (.ok next) =
      ((Segment.complete total ⟨known ++ next.tokens, next.continues⟩ lines).1,
        ⟨total, (Segment.complete total ⟨known ++ next.tokens, next.continues⟩ lines).2⟩) := by
  rw [goOn, complete_known total (known ++ next.tokens)]

theorem readValue_backslash (read : lex number false first = .ok ⟨tokens, false⟩)
    (apart : StandsApart first (tokens.map (·.kind))) (blank : Blank blanks) (total : Nat)
    (line : Line) (lines : List Line) :
    readValue (first ++ '\\' :: blanks) number ⟨total, line :: lines⟩ =
      goOn total tokens lines (lex line.number true line.text) := by
  rw [readValue, lex_backslash read apart blank]
  simp only [Segment.complete, Segment.extend, if_true]
  cases lex line.number true line.text with
  | error error => rfl
  | ok next =>
    exact (goOn_ok total tokens lines next).symm

theorem readValue_space (read : lex number false first = .ok ⟨tokens, false⟩)
    (apart : StandsApart first (tokens.map (·.kind))) (next : Text) (total : Nat)
    (lines : List Line) :
    readValue (first ++ ' ' :: next) number ⟨total, lines⟩ =
      goOn total tokens lines (lex number true next) := by
  rw [readValue, lex_space read apart next]
  cases lex number true next with
  | error error => rfl
  | ok segment =>
    exact (goOn_ok total tokens lines segment).symm

/-- Two results of reading a value, of which `known` are the first tokens: the one has the tokens or
the error of a line under its own number, the other has them under the number `number`, and what
comes after the line is the same in both. -/
def AlikeFrom (known : List Token) (line : Line) (number : Nat)
    (left right : Except ParseError (List Token)) : Prop :=
  (∀ pieces continues, Pieces true line.text pieces continues →
    Agree Eq (fun tokens tokens' => ∃ later,
      tokens = known ++ pieces.map (Piece.token line.number) ++ later ∧
      tokens' = known ++ pieces.map (Piece.token number) ++ later) left right) ∧
  ((¬ ∃ pieces continues, Pieces true line.text pieces continues) →
    Agree (ParseError.Alike (inPlaceOf line.number number)) (fun _ _ => False) left right)

theorem goOn_alike (total : Nat) (known : List Token) (lines : List Line) (line : Line)
    (number : Nat) :
    (goOn total known lines (lex line.number true line.text)).2 =
        (goOn total known lines (lex number true line.text)).2 ∧
      AlikeFrom known line number (goOn total known lines (lex line.number true line.text)).1
        (goOn total known lines (lex number true line.text)).1 := by
  have numbers : (inPlaceOf line.number number).line line.number number := ⟨rfl, rfl⟩
  have alike := lex_alike numbers true line.text
  cases read : lex line.number true line.text with
  | error error =>
    obtain ⟨error', failed, errors⟩ := alike.of_error read
    rw [failed]
    refine ⟨rfl, fun pieces continues row => ?_, fun _ => .error errors⟩
    rw [lex_of_pieces line.number row] at read
    contradiction
  | ok next =>
    obtain ⟨tokens, continues⟩ := next
    obtain ⟨pieces, row, shape⟩ := pieces_of_lex line.number true line.text _ read
    obtain rfl : tokens = pieces.map (Piece.token line.number) := shape
    rw [lex_of_pieces number row]
    refine ⟨rfl, fun pieces' continues' row' => ?_, fun no => absurd ⟨pieces, _, row⟩ no⟩
    have same := (lex_of_pieces line.number row').symm.trans (lex_of_pieces line.number row)
    simp only [Except.ok.injEq, Segment.mk.injEq] at same
    obtain rfl : pieces' = pieces := by
      rw [← map_piece_token line.number pieces', same.1, map_piece_token]
    rw [goOn, goOn]
    cases (Segment.complete total ⟨[], continues⟩ lines).1 with
    | error error => exact .error rfl
    | ok later => exact .ok ⟨later, rfl, rfl⟩

/-- A line that ends in a backslash is read as if the next content line stood in place of the
backslash, after a blank: with the same tokens or with the same error, and up to the same line. The
tokens and errors of the next line have its own number. Without a next line the value is unfinished.
And whatever comes of reading a value, a line is taken for it only if the line before it goes on. -/
theorem readValue_continued :
    (∀ (first blanks : Text) (number : Nat) (source : Source) (tokens : List Token),
      readValue first number source = (.ok tokens, source) →
      StandsApart first (tokens.map (·.kind)) → Blank blanks →
      (∀ token ∈ tokens, token.line = number) ∧
      (∀ (line : Line) (after : Source), source.next? = some (line, after) →
        let split := readValue (first ++ '\\' :: blanks) number source
        let joined := readValue (first ++ ' ' :: line.text) number after
        split.2 = joined.2 ∧ AlikeFrom tokens line number split.1 joined.1) ∧
      (source.next? = none → readValue (first ++ '\\' :: blanks) number source =
        (.error (.unfinished source.total), source))) ∧
    ∀ (text : Text) (number : Nat) (source : Source),
      (readValue text number source).2.total = source.total ∧
      Leaves text source.lines (readValue text number source).2.lines := by
  refine ⟨?_, ?_⟩
  · intro first blanks number source tokens read apart blank
    have whole := lex_of_readValue read
    obtain ⟨total, lines⟩ := source
    refine ⟨fun token member => (spelled_of_lex whole token member).1, ?_, ?_⟩
    · intro line after next
      cases lines with
      | nil => contradiction
      | cons _ lines =>
        cases next
        rw [readValue_backslash whole apart blank, readValue_space whole apart]
        exact goOn_alike total tokens lines line number
    · intro last
      cases lines with
      | nil =>
        rw [readValue, lex_backslash whole apart blank]
        rfl
      | cons line lines => contradiction
  · intro text number source
    exact ⟨(readValue_source text number source).1, leaves_readValue text number source⟩

/-- A backslash right after a reference, with a blank behind it: before a line with one word, and
where no line is left. -/
theorem readValue_continued_glued :
    let first : Text := ['$', 'x']
    let known : List Token := [⟨.reference ['x'], false, 4⟩]
    let line : Line := ⟨6, ['y']⟩
    let text : Text := first ++ ['\\', ' ']
    StandsApart first (known.map (·.kind)) ∧ GoesOn text ∧
      (readValue text 4 ⟨9, [line]⟩).2 = (readValue (first ++ ' ' :: line.text) 4 ⟨9, []⟩).2 ∧
      Agree Eq (fun tokens tokens' => ∃ later,
          tokens = known ++ [⟨.bare ['y'], true, 6⟩] ++ later ∧
          tokens' = known ++ [⟨.bare ['y'], true, 4⟩] ++ later)
        (readValue text 4 ⟨9, [line]⟩).1
        (readValue (first ++ ' ' :: line.text) 4 ⟨9, []⟩).1 ∧
      readValue text 4 ⟨9, []⟩ = (.error (.unfinished 9), ⟨9, []⟩) ∧
      Leaves text [line] (readValue text 4 ⟨9, [line]⟩).2.lines := by
  intro first known line text
  have named : IsName ['x'] := by
    simp [IsName]
    decide
  have row : Pieces false first [⟨.reference ['x'], false⟩] false :=
    .reference blank_nil named (by simp) (.nothing blank_nil)
  have read (source : Source) : readValue first 4 source = (.ok known, source) :=
    readValue_whole (lex_of_pieces 4 row)
  have apart : StandsApart first (known.map (·.kind)) := Or.inr (Or.inr ⟨_, rfl, by simp⟩)
  have blank : Blank [' '] := blank_replicate 1
  have goesOn : Pieces false text [⟨.reference ['x'], false⟩] true :=
    .reference blank_nil named (by simp; decide) (.backslash blank_nil blank)
  have proper : IsWord ['y'] := by
    simp [IsWord]
    decide
  have next : Pieces true line.text [⟨.bare ['y'], true⟩] false :=
    .bare blank_nil proper (by simp) (by simp) (.nothing blank_nil)
  obtain ⟨continued, leaves⟩ := readValue_continued
  obtain ⟨-, going, -⟩ := continued first [' '] 4 ⟨9, [line]⟩ known (read _) apart blank
  obtain ⟨-, -, unfinished⟩ := continued first [' '] 4 ⟨9, []⟩ known (read _) apart blank
  obtain ⟨cursors, alike, -⟩ := going line ⟨9, []⟩ rfl
  exact ⟨apart, ⟨_, goesOn⟩, cursors, alike _ _ next, unfinished rfl, (leaves _ 4 ⟨9, [line]⟩).2⟩

end ScopedConfig
