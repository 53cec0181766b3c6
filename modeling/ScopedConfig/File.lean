import ScopedConfig.Text.Space

namespace ScopedConfig

inductive FileNode where
  | directory
  | file (bytes : ByteArray)

/-- What lies at each path; nothing where no file or directory exists. -/
abbrev Files := Text → Option FileNode

def encodeText (text : Text) : ByteArray := (String.ofList text).toUTF8

def decodeText? (bytes : ByteArray) : Option Text := (String.fromUTF8? bytes).map String.toList

theorem decodeText?_encodeText (text : Text) : decodeText? (encodeText text) = some text := by
  have decoded : String.fromUTF8? (String.ofList text).toUTF8 = some (String.ofList text) := by
    simp only [String.fromUTF8?, String.toUTF8_eq_toByteArray,
      dif_pos (String.ofList text).isValidUTF8]
    rfl
  rw [decodeText?, encodeText, decoded, Option.map_some, String.toList_ofList]

theorem decodeText?_eq_some_iff (bytes : ByteArray) (text : Text) :
    decodeText? bytes = some text ↔ bytes = encodeText text := by
  constructor
  · intro decoded
    obtain ⟨string, found, rfl⟩ := Option.map_eq_some_iff.mp decoded
    rw [String.fromUTF8?] at found
    split at found
    · cases found
      simp [encodeText, String.fromUTF8]
    · contradiction
  · rintro rfl
    exact decodeText?_encodeText text

theorem decodeText?_eq_none_iff (bytes : ByteArray) :
    decodeText? bytes = none ↔ ¬ bytes.IsValidUTF8 := by
  simp [decodeText?, String.fromUTF8?]

end ScopedConfig
