import ScopedConfig.Proofs.Continuation

/-!
References and the words that they stand for. A reference to a variable whose value is a row of
words may be replaced by these words: the value around it is the same, with one space on either side,
unless another reference is its neighbour.
-/

namespace ScopedConfig

/-- A word that is itself wherever it stands: a backslash could continue the value. -/
def IsPlainWord (word : Text) : Prop := IsWord word ∧ word ≠ ['\\']

section Reading

variable {row : Row} {left right : Text} {number : Nat}

theorem Lexeme.StandsBefore.before_space {lexeme : Lexeme} {next : Text}
    (stands : lexeme.StandsBefore next) (more : Text) :
    lexeme.StandsBefore (next ++ ' ' :: more) := by
  have first (c : Char) (head : c ∈ (next ++ ' ' :: more).head?) : c = ' ' ∨ c ∈ next.head? := by
    cases next with
    | nil => exact Or.inl (Option.some.inj head).symm
    | cons other next => exact Or.inr head
  cases lexeme with
  | bare word =>
    refine ⟨stands.1, fun c head => ?_⟩
    rcases first c head with rfl | head
    · decide
    · exact stands.2 c head
  | quoted quote content => exact stands
  | reference name =>
    refine ⟨stands.1, fun c head => ?_⟩
    rcases first c head with rfl | head
    · decide
    · exact stands.2 c head

theorem Row.before_left (row : Row) (left more : Text) :
    row.before (left ++ more) = row.before left ++ more := by
  induction row with
  | nil => rfl
  | cons placed row ih => simp [before, ih]

theorem Row.Proper.before_space (proper : row.Proper left) (more : Text) :
    row.Proper (left ++ ' ' :: more) := by
  induction row with
  | nil => trivial
  | cons placed row ih =>
    obtain ⟨blank, stands, later⟩ := proper
    refine ⟨blank, ?_, ih later⟩
    rw [Row.before_left]
    exact stands.before_space more

theorem lex_before_space {tokens : List Token} (read : lex number false left = .ok ⟨tokens, false⟩)
    (next : Text) :
    lex number false (left ++ ' ' :: next) = (lex number true next).map (Segment.after tokens) := by
  obtain ⟨row, last, ⟨rfl, proper⟩, blank, inner, rfl⟩ := lex_whole_iff.mp read
  have space : lex number false (last ++ [' '] ++ next) = lex number true next := by
    rw [lex_blank number false (last ++ [' ']) next (blank.append (blank_replicate 1))]
    cases last <;> rfl
  rw [List.append_assoc, List.singleton_append] at space
  rw [← Row.before_left, lex_before number (proper.before_space next) fun ends => inner ends.1, space]

theorem lex_after_space {tokens : List Token} (read : lex number false right = .ok ⟨tokens, false⟩) :
    ∃ tokens', lex number true right = .ok ⟨tokens', false⟩ ∧
      tokens'.map (·.kind) = tokens.map (·.kind) := by
  obtain ⟨pieces, row, shape⟩ := pieces_of_lex number false right _ read
  obtain rfl : tokens = pieces.map (Piece.token number) := shape
  obtain ⟨pieces', row', kinds⟩ := row.with_spaced true
  refine ⟨_, lex_of_pieces number row', ?_⟩
  rw [List.map_map, List.map_map]
  exact kinds

theorem lex_one_space (number : Nat) (next : Text) :
    lex number false (' ' :: next) = lex number true next :=
  lex_blank number false [' '] next (blank_replicate 1)

theorem lex_reference_space {name : Text} (named : IsName name) (next : Text) :
    lex number true ('$' :: (name ++ ' ' :: next)) =
      (lex number true next).map (.cons ⟨.reference name, true, number⟩) := by
  rw [lex_reference number true name _ named (by simp; decide), lex_one_space]

def wordTokens (number : Nat) (words : List Text) : List Token :=
  words.map fun word => ⟨.bare word, true, number⟩

theorem lex_words (word : Text) (words : List Text)
    (plain : ∀ other ∈ word :: words, IsPlainWord other) (next : Text) :
    lex number true ([' '].intercalate (word :: words) ++ ' ' :: next) =
      (lex number true next).map (Segment.after (wordTokens number (word :: words))) := by
  have first (word more : Text) (plain : IsPlainWord word) :
      lex number true (word ++ ' ' :: more) =
        (lex number true more).map (.cons ⟨.bare word, true, number⟩) := by
    rw [lex_bare number true word _ plain.1 (by simp; decide) fun closing => plain.2 closing.1,
      lex_one_space]
  induction words generalizing word with
  | nil =>
    rw [List.intercalate_singleton, first word next (plain word List.mem_cons_self)]
    rfl
  | cons second words ih =>
    have shape : [' '].intercalate (word :: second :: words) ++ ' ' :: next =
        word ++ ' ' :: ([' '].intercalate (second :: words) ++ ' ' :: next) := by
      simp [List.intercalate_cons_cons]
    rw [shape, first word _ (plain word List.mem_cons_self),
      ih second fun other member => plain other (List.mem_cons_of_mem word member)]
    cases lex number true next <;> rfl

end Reading

section Joining

variable {scopes : Scopes} {path : Text} {previous : Option TokenKind} {number : Nat}

def lastKind (previous : Option TokenKind) (tokens : List Token) : Option TokenKind :=
  (tokens.getLast?.map (·.kind)).or previous

/-- Tokens are joined from left to right. Of those on the left only the last one counts for those on
the right. -/
theorem joinAfter_append (scopes : Scopes) (path : Text) (previous : Option TokenKind)
    (first second : List Token) :
    joinAfter scopes path previous (first ++ second) = do
      let front ← joinAfter scopes path previous first
      let back ← joinAfter scopes path (lastKind previous first) second
      return front ++ back := by
  induction first generalizing previous with
  | nil =>
    have same : lastKind previous [] = previous := rfl
    rw [List.nil_append, joinAfter, ok_bind, same]
    cases joinAfter scopes path previous second <;> rfl
  | cons token first ih =>
    have last : lastKind previous (token :: first) = lastKind (some token.kind) first := by
      rw [lastKind, lastKind, List.getLast?_cons]
      cases first.getLast? <;> rfl
    rw [List.cons_append, joinAfter, joinAfter, ih, last]
    cases token.text scopes path with
    | error error => rfl
    | ok text =>
      simp only [ok_bind]
      cases joinAfter scopes path (some token.kind) first with
      | error error => rfl
      | ok front =>
        simp only [ok_bind]
        cases joinAfter scopes path (lastKind (some token.kind) first) second with
        | error error => rfl
        | ok back => simp [ok_bind, pure, Except.pure]

theorem joinAfter_words (word : Text) (words : List Text) :
    joinAfter scopes path previous (wordTokens number (word :: words)) =
      .ok (Token.separator previous ⟨.bare word, true, number⟩ ++
        [' '].intercalate (word :: words)) := by
  induction words generalizing previous word with
  | nil => simp [wordTokens, joinAfter, Token.text, ok_bind, pure, Except.pure]
  | cons second words ih =>
    have later : joinAfter scopes path (some (.bare word)) (wordTokens number (second :: words)) = _ :=
      ih second
    rw [wordTokens, List.map_cons, joinAfter, ← wordTokens, later]
    simp [Token.text, ok_bind, pure, Except.pure, List.intercalate_cons_cons, Token.separator,
      TokenKind.keepsSpace]

def NoReference (previous : Option TokenKind) : Prop :=
  ∀ name, previous ≠ some (.reference name)

theorem separator_reference (apart : NoReference previous) (name word : Text) :
    Token.separator previous ⟨.reference name, true, number⟩ =
      Token.separator previous ⟨.bare word, true, number⟩ := by
  cases previous with
  | none => rfl
  | some kind =>
    cases kind with
    | bare other => rfl
    | quoted content => rfl
    | reference other => exact absurd rfl (apart other)

/-- Before anything but a reference, blanks after a reference count as after a word. -/
theorem joinAfter_reference {tokens : List Token} (apart : NoReference (tokens.head?.map (·.kind)))
    (name word : Text) :
    joinAfter scopes path (some (.reference name)) tokens =
      joinAfter scopes path (some (.bare word)) tokens := by
  cases tokens with
  | nil => rfl
  | cons token tokens =>
    have separators : token.separator (some (.reference name)) =
        token.separator (some (.bare word)) := by
      obtain ⟨kind, spaced, line⟩ := token
      cases kind with
      | bare other => rfl
      | quoted content => rfl
      | reference other => exact absurd rfl (apart other)
    rw [joinAfter, joinAfter, separators]

theorem join_words_for_reference (path : Text) (number : Nat) {name : Text} {declared : Variable}
    (resolved : scopes.resolve? name = some declared) {word : Text} {words : List Text}
    (value : declared.value = [' '].intercalate (word :: words)) {before after : List Token}
    (apart : NoReference (before.getLast?.map (·.kind)))
    (apartToo : NoReference (after.head?.map (·.kind))) :
    join scopes path (before ++ ⟨.reference name, true, number⟩ :: after) =
      join scopes path (before ++ (wordTokens number (word :: words) ++ after)) := by
  have outside : NoReference (lastKind none before) := by
    rwa [lastKind, Option.or_none]
  have reference : joinAfter scopes path (lastKind none before)
      [⟨.reference name, true, number⟩] =
        .ok (Token.separator (lastKind none before) ⟨.bare word, true, number⟩ ++
          [' '].intercalate (word :: words)) := by
    simp [joinAfter, Token.text, resolved, value, ok_bind, pure, Except.pure,
      separator_reference outside name word]
  obtain ⟨last, final⟩ : ∃ last, lastKind (lastKind none before)
      (wordTokens number (word :: words)) = some (.bare last) := by
    rw [lastKind, wordTokens, List.getLast?_map]
    cases found : (word :: words).getLast? with
    | none => simp at found
    | some last => exact ⟨last, rfl⟩
  have end_ : lastKind (lastKind none before) [⟨.reference name, true, number⟩] =
      some (.reference name) := rfl
  rw [join, join, joinAfter_append, joinAfter_append, ← List.singleton_append, joinAfter_append,
    joinAfter_append, reference, joinAfter_words, final, end_,
    joinAfter_reference apartToo name last]

end Joining

/-- Between texts that are read by themselves, with no reference next to it, a reference to a variable
may be replaced by the words of its value. Both texts are read without another line and have the same
outcome: the same value, or the same variable that is not in sight, which one of the texts mentions. -/
theorem readValue_words_for_reference {scopes : Scopes} {name : Text} {declared : Variable}
    {words : List Text} (named : IsName name) (resolved : scopes.resolve? name = some declared)
    (nonempty : words ≠ []) (value : declared.value = [' '].intercalate words)
    (plain : ∀ word ∈ words, IsPlainWord word) {left right : Text} {number : Nat} {source : Source}
    {before after : List Token} (readLeft : readValue left number source = (.ok before, source))
    (readRight : readValue right number source = (.ok after, source))
    (apart : NoReference (before.getLast?.map (·.kind)))
    (apartToo : NoReference (after.head?.map (·.kind))) (path : Text) :
    ∃ tokens tokens',
      readValue (left ++ ' ' :: '$' :: (name ++ ' ' :: right)) number source =
        (.ok tokens, source) ∧
      readValue (left ++ ' ' :: (declared.value ++ ' ' :: right)) number source =
        (.ok tokens', source) ∧
      join scopes path tokens = join scopes path tokens' ∧
      ∀ error, join scopes path tokens = .error error →
        ∃ other, TokenKind.reference other ∈ (before ++ after).map (·.kind) ∧
          error = .unknownVariable other path number := by
  obtain ⟨word, words, rfl⟩ := List.exists_cons_of_ne_nil nonempty
  have wholeLeft := lex_of_readValue readLeft
  obtain ⟨after', spacedRead, kinds⟩ := lex_after_space (lex_of_readValue readRight)
  have withReference : lex number false (left ++ ' ' :: '$' :: (name ++ ' ' :: right)) =
      .ok ⟨before ++ ⟨.reference name, true, number⟩ :: after', false⟩ := by
    rw [lex_before_space wholeLeft, lex_reference_space named, spacedRead]
    rfl
  have withWords : lex number false (left ++ ' ' :: (declared.value ++ ' ' :: right)) =
      .ok ⟨before ++ (wordTokens number (word :: words) ++ after'), false⟩ := by
    rw [lex_before_space wholeLeft, value, lex_words word words plain, spacedRead]
    rfl
  have apartAfter : NoReference (after'.head?.map (·.kind)) := by
    rwa [← List.head?_map, kinds, List.head?_map]
  have same := join_words_for_reference path number resolved value apart apartAfter
  refine ⟨_, _, readValue_whole withReference, readValue_whole withWords, same, ?_⟩
  intro error failed
  rw [same] at failed
  obtain ⟨token, member, other, reference, rfl⟩ := joinAfter_error failed
  have line : token.line = number := (spelled_of_lex withWords token member).1
  refine ⟨other, ?_, by rw [line]⟩
  rw [List.map_append, ← kinds, ← List.map_append, ← reference]
  -- The words themselves refer to nothing.
  rcases List.mem_append.mp member with member | member
  · exact List.mem_map_of_mem (List.mem_append_left after' member)
  rcases List.mem_append.mp member with member | member
  · obtain ⟨word, -, rfl⟩ := List.mem_map.mp member
    contradiction
  · exact List.mem_map_of_mem (List.mem_append_right before member)

theorem readValue_words_for_reference_quoted :
    let scopes : Scopes := ⟨[[], [(['v'], ⟨"b c".toList, 2⟩)]]⟩
    let source : Source := ⟨9, [⟨5, ['x']⟩]⟩
    (∃ tokens tokens',
      readValue "a $v 'd'e".toList 4 source = (.ok tokens, source) ∧
      readValue "a b c 'd'e".toList 4 source = (.ok tokens', source) ∧
      join scopes ['k'] tokens = .ok "a b cde".toList ∧
      join scopes ['k'] tokens' = .ok "a b cde".toList) ∧
    ∃ tokens tokens',
      readValue "a $v 'd'$u".toList 4 source = (.ok tokens, source) ∧
      readValue "a b c 'd'$u".toList 4 source = (.ok tokens', source) ∧
      join scopes ['k'] tokens = .error (.unknownVariable ['u'] ['k'] 4) ∧
      join scopes ['k'] tokens' = .error (.unknownVariable ['u'] ['k'] 4) := by
  intro scopes source
  have plain : ∀ word ∈ [['b'], ['c']], IsPlainWord word := by
    simp [IsPlainWord, IsWord]
    decide
  have first : readValue ['a'] 4 source = (.ok [⟨.bare ['a'], false, 4⟩], source) := by
    decide +kernel
  have replaced (right : Text) (tokens : List Token)
      (read : readValue right 4 source = (.ok tokens, source))
      (apart : NoReference (tokens.head?.map (·.kind))) :=
    readValue_words_for_reference (by decide) (show scopes.resolve? ['v'] = some _ from rfl)
      (List.cons_ne_nil _ _) (by decide) plain first read (by simp [NoReference]) apart ['k']
  have joined {text : Text} {tokens : List Token} {outcome : Except ParseError Text}
      (read : readValue text 4 source = (.ok tokens, source))
      (whole : (readValue text 4 source).1 >>= join scopes ['k'] = outcome) :
      join scopes ['k'] tokens = outcome := by
    rw [read] at whole
    exact whole
  refine ⟨?_, ?_⟩
  · obtain ⟨tokens, tokens', read, read', same, -⟩ := replaced "'d'e".toList
      [⟨.quoted ['d'], false, 4⟩, ⟨.bare ['e'], false, 4⟩] (by decide +kernel) (by simp [NoReference])
    have value : join scopes ['k'] tokens' = .ok "a b cde".toList :=
      joined read' (by decide +kernel)
    exact ⟨tokens, tokens', read, read', same.trans value, value⟩
  · obtain ⟨tokens, tokens', read, read', same, -⟩ := replaced "'d'$u".toList
      [⟨.quoted ['d'], false, 4⟩, ⟨.reference ['u'], false, 4⟩] (by decide +kernel)
      (by simp [NoReference])
    have missing : join scopes ['k'] tokens' = .error (.unknownVariable ['u'] ['k'] 4) :=
      joined read' (by decide +kernel)
    exact ⟨tokens, tokens', read, read', same.trans missing, missing⟩

end ScopedConfig
