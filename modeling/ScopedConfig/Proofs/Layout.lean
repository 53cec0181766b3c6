import ScopedConfig.Layout
import ScopedConfig.Proofs.Lines
import ScopedConfig.Proofs.Renumbering

namespace ScopedConfig

theorem contentNumbers_increasing (text : Text) : (contentNumbers text).Pairwise (· < ·) :=
  List.pairwise_map.mpr (source_increasing text)

theorem SamePlace.place_iff {left right : Text} {number number' : Nat}
    (same : SamePlace left right number number') (place : Nat) :
    (contentNumbers left)[place]? = some number ↔
      (contentNumbers right)[place]? = some number' := by
  obtain ⟨common, here, there⟩ := same
  have unique (text : Text) (number : Nat) (found : (contentNumbers text)[common]? = some number) :
      (contentNumbers text)[place]? = some number ↔ place = common := by
    have distinct : (contentNumbers text).Nodup :=
      (contentNumbers_increasing text).imp fun before => Nat.ne_of_lt before
    constructor
    · intro again
      obtain ⟨within, -⟩ := List.getElem?_eq_some_iff.mp again
      exact (List.getElem?_inj within distinct).mp (again.trans found.symm)
    · rintro rfl
      exact found
  rw [unique left number here, unique right number' there]

theorem alike_of_same_contents (left right : Text) (same : contentTexts left = contentTexts right) :
    List.Forall₂ (Line.Alike (SamePlace left right)) (Source.ofText left).lines
      (Source.ofText right).lines := by
  rw [← texts_source left, ← texts_source right] at same
  refine List.forall₂_iff_get.mpr ⟨by simpa using congrArg List.length same, ?_⟩
  intro place here there
  have texts := congrArg (·[place]?) same
  refine ⟨by simpa [here, there] using texts, place, ?_, ?_⟩
  · simp [contentNumbers, here]
  · simp [contentNumbers, there]

/-- Texts with the same content lines are read alike: as the same tree, or with an error of the same
kind that names the same content lines. -/
theorem parse_of_same_contents (left right : Text) (same : contentTexts left = contentTexts right) :
    Agree (ParseError.Alike (layout left right)) Eq (parse left) (parse right) := by
  have simulation := renumbering (layout left right) fun _ => rfl
  have lines := alike_of_same_contents left right same
  have start : State.Beside (layout left right) (State.Renumbered (layout left right).line)
      .start .start := ⟨renumbered_start, .none⟩
  apply (simulation.run start State.sound_start lines).bind
  intro final final' _ _ beside
  refine beside.finish ?_ ?_ ⟨rfl, rfl⟩
  · rw [beside.related.outer]
  · intro _
    exact beside.related.entries

theorem parse_of_same_contents_indented :
    let plain : Text := "g \x7b\na = 1 \\\n$b\n\x7d".toList
    let indented : Text := "g \x7b\r\n\r\n  # note\r\n  a = 1 \\ \r\n\r\n  $b\r\n\x7d".toList
    contentTexts indented = contentTexts plain ∧
      Agree (ParseError.Alike (layout indented plain)) Eq (parse indented) (parse plain) := by
  intro plain indented
  have same : contentTexts indented = contentTexts plain := by decide +kernel
  exact ⟨same, parse_of_same_contents indented plain same⟩

end ScopedConfig
