import ScopedConfig.Proofs.Grammar
import ScopedConfig.Proofs.RoundTrip

namespace ScopedConfig

theorem ValuePieces.spelled {spaced : Bool} {text : Text} {more : List Text} {pieces : List Piece}
    (values : ValuePieces spaced text more pieces) :
    ∀ piece ∈ pieces, ∃ line ∈ text :: more, piece.kind.spelling <:+: line := by
  induction values with
  | whole read =>
    intro piece member
    exact ⟨_, List.mem_cons_self, read.spelled piece member⟩
  | continued read rest ih =>
    intro piece member
    rcases List.mem_append.mp member with member | member
    · exact ⟨_, List.mem_cons_self, read.spelled piece member⟩
    · obtain ⟨line, within, spelled⟩ := ih piece member
      exact ⟨line, List.mem_cons_of_mem _ within, spelled⟩

def CleanFrames (frames : List Bindings) : Prop :=
  ∀ frame ∈ frames, ∀ entry ∈ frame, '\n' ∉ entry.2

theorem CleanFrames.enter {frames : List Bindings} (clean : CleanFrames frames) :
    CleanFrames ([] :: frames) := by
  intro frame member entry within
  rcases List.mem_cons.mp member with rfl | member
  · exact absurd within List.not_mem_nil
  · exact clean frame member entry within

theorem CleanFrames.declare {outer : List Bindings} {own : Bindings} {name value : Text}
    (clean : CleanFrames (own :: outer)) (cleanValue : '\n' ∉ value) :
    CleanFrames (((name, value) :: own) :: outer) := by
  intro frame member entry within
  rcases List.mem_cons.mp member with rfl | member
  · rcases List.mem_cons.mp within with rfl | within
    · exact cleanValue
    · exact clean own List.mem_cons_self entry within
  · exact clean frame (List.mem_cons_of_mem own member) entry within

theorem mem_of_lookup {frame : Bindings} {name value : Text}
    (found : frame.lookup name = some value) : (name, value) ∈ frame := by
  induction frame with
  | nil => contradiction
  | cons entry frame ih =>
    rw [List.lookup_cons] at found
    split at found
    · next same =>
      obtain rfl : name = entry.1 := by simpa using same
      cases found
      exact List.mem_cons_self
    · exact List.mem_cons_of_mem entry (ih found)

theorem meaning?_clean {frames : List Bindings} (clean : CleanFrames frames)
    {previous : Option TokenKind} {pieces : List Piece} {value : Text}
    (means : meaning? frames previous pieces = some value)
    (spelled : ∀ piece ∈ pieces, '\n' ∉ piece.kind.spelling) : '\n' ∉ value := by
  induction pieces generalizing previous value with
  | nil =>
    cases means
    exact List.not_mem_nil
  | cons piece pieces ih =>
    simp only [meaning?, Option.bind_eq_bind, Option.bind_eq_some_iff] at means
    obtain ⟨text, here, after, later, whole⟩ := means
    cases whole
    have cleanAfter := ih later fun other member =>
      spelled other (List.mem_cons_of_mem piece member)
    have cleanText : '\n' ∉ text := by
      have own := spelled piece List.mem_cons_self
      obtain ⟨kind, spaced⟩ := piece
      cases kind with
      | bare word =>
        cases here
        exact own
      | quoted content =>
        cases here
        exact own
      | reference name =>
        obtain ⟨frame, member, found⟩ := List.exists_of_findSome?_eq_some here
        exact clean frame member _ (mem_of_lookup found)
    have cleanGap : '\n' ∉ piece.gap previous := by
      unfold Piece.gap
      split <;> decide
    simp [cleanGap, cleanText, cleanAfter]

theorem Body.oneLine {outer : List Bindings} {own : Bindings} {keys texts : List Text}
    {tree : Group} (body : Body outer own keys texts tree) (lines : ∀ text ∈ texts, '\n' ∉ text)
    (frames : CleanFrames (own :: outer)) : tree.OneLine := by
  have cleanValue {frames : List Bindings} {target : Target} {line name first value : Text}
      {more : List Text} {pieces : List Piece} (clean : CleanFrames frames)
      (head : Head target line name first) (read : ValuePieces false first more pieces)
      (means : meaning? frames none pieces = some value)
      (lines : ∀ text ∈ line :: more, '\n' ∉ text) : '\n' ∉ value := by
    apply meaning?_clean clean means
    intro piece member feed
    obtain ⟨text, within, spelled⟩ := read.spelled piece member
    rcases List.mem_cons.mp within with rfl | within
    · exact lines line List.mem_cons_self (head.suffix.subset (spelled.subset feed))
    · exact lines text (List.mem_cons_of_mem line within) (spelled.subset feed)
  induction body with
  | done => trivial
  | binding head isValue new read means later ih =>
    rw [← List.cons_append, List.forall_mem_append] at lines
    exact ih lines.2 (frames.declare (cleanValue frames head read means lines.1))
  | scalar head isValue new read means later ih =>
    rw [← List.cons_append, List.forall_mem_append] at lines
    exact ⟨cleanValue frames head read means lines.1, ih lines.2 frames⟩
  | nested head new inside later insideIH ih =>
    rw [List.forall_mem_cons, List.forall_mem_append, List.forall_mem_cons] at lines
    exact ⟨insideIH lines.2.1 frames.enter, ih lines.2.2.2 frames⟩

theorem unused_cons {name : Text} {keys later : List Text} (new : name ∉ keys)
    (unused : ∀ key ∈ later, key ∉ name :: keys) :
    name ∉ later ∧ ∀ key ∈ name :: later, key ∉ keys := by
  refine ⟨fun again => unused name again List.mem_cons_self, ?_⟩
  rw [List.forall_mem_cons]
  exact ⟨new, fun key member taken => unused key member (List.mem_cons_of_mem name taken)⟩

theorem Body.wellNamed {outer : List Bindings} {own : Bindings} {keys texts : List Text}
    {tree : Group} (body : Body outer own keys texts tree) :
    tree.WellNamed ∧ ∀ key ∈ tree.keys, key ∉ keys := by
  induction body with
  | done => exact ⟨trivial, by simp⟩
  | binding head isValue new read means later ih => exact ih
  | scalar head isValue new read means later ih =>
    obtain ⟨unique, unused⟩ := unused_cons new ih.2
    exact ⟨⟨head.named, unique, ih.1⟩, unused⟩
  | nested head new inside later insideIH ih =>
    obtain ⟨unique, unused⟩ := unused_cons new ih.2
    exact ⟨⟨head.named, unique, insideIH.1, ih.1⟩, unused⟩

theorem contentTexts_clean (text : Text) : ∀ line ∈ contentTexts text, '\n' ∉ line := by
  intro line member feed
  obtain ⟨trimmed, -⟩ := List.mem_filter.mp member
  obtain ⟨physical, within, rfl⟩ := List.mem_map.mp trimmed
  have inside := (trimStart_suffix physical).subset ((trimEnd_isPrefix _).subset feed)
  exact splitOn_free '\n' text physical within inside

theorem wellNamed_of_parse {text : Text} {tree : Group} (read : parse text = .ok tree) :
    tree.WellNamed :=
  (denotes_of_parse read).wellNamed.1

theorem oneLine_of_parse {text : Text} {tree : Group} (read : parse text = .ok tree) :
    tree.OneLine :=
  (denotes_of_parse read).oneLine (contentTexts_clean text) (by simp [CleanFrames])

theorem Group.firstBroken?_of_oneLine (group : Group) (oneLine : group.OneLine) (first : Nat) :
    group.firstBroken? first = none := by
  induction group generalizing first with
  | empty => rfl
  | scalar key value rest ih =>
    rw [firstBroken?_scalar, if_neg oneLine.1, ih oneLine.2]
  | nested key body rest bodyIH ih =>
    rw [firstBroken?_nested, bodyIH oneLine.1, ih oneLine.2]
    rfl

theorem parse_render_of_oneLine (tree : Group) (named : tree.WellNamed) (oneLine : tree.OneLine) :
    parse tree.render = .ok tree := by
  rw [parse_render_eq tree named, tree.firstBroken?_of_oneLine oneLine]

/-- The trees that some text is read as are those with proper keys and no line feed in a scalar; and
what any text is read as has a text of its own that is read as the same tree. -/
theorem parse_image :
    (∀ tree : Group, (∃ text, parse text = .ok tree) ↔ tree.WellNamed ∧ tree.OneLine) ∧
    ∀ text tree, parse text = .ok tree →
      ∃ again, parse tree.render = .ok again ∧ again = tree ∧ again.render = tree.render := by
  refine ⟨fun tree => ⟨?_, ?_⟩, ?_⟩
  · rintro ⟨text, read⟩
    exact ⟨wellNamed_of_parse read, oneLine_of_parse read⟩
  · rintro ⟨named, oneLine⟩
    exact ⟨tree.render, parse_render_of_oneLine tree named oneLine⟩
  · intro text tree read
    have again := parse_render_of_oneLine tree (wellNamed_of_parse read) (oneLine_of_parse read)
    exact ⟨tree, again, rfl, rfl⟩

theorem parse_image_assembled :
    let text : Text := "$x = a\n$y = $x'\x22'\ng \x7b\nk = $y \\\n  \x22'\x22 #\n\x7d".toList
    let tree : Group := .nested ['g'] (.scalar ['k'] ['a', '\x22', '\'', '#'] .empty) .empty
    parse text = .ok tree ∧
      ∃ again, parse tree.render = .ok again ∧ again = tree ∧ again.render = tree.render := by
  intro text tree
  have read : parse text = .ok tree := by decide +kernel
  exact ⟨read, parse_image.2 text tree read⟩

end ScopedConfig
