import ScopedConfig.Config
import ScopedConfig.Proofs.Image

namespace ScopedConfig

def Group.Readable (group : Group) : Prop := group.WellNamed ∧ group.OneLine

theorem Group.readable_of_get? (group : Group) (key : Text) (body : Group)
    (readable : group.Readable) (found : group.get? key = some (.group body)) : body.Readable := by
  induction group with
  | empty => contradiction
  | scalar other value rest ih =>
    obtain ⟨⟨-, -, restNamed⟩, -, restLine⟩ := readable
    by_cases same : other = key
    · simp [get?, same] at found
    · exact ih ⟨restNamed, restLine⟩ (by simpa [get?, same] using found)
  | nested other inner rest innerIH ih =>
    obtain ⟨⟨-, -, innerNamed, restNamed⟩, innerLine, restLine⟩ := readable
    by_cases same : other = key
    · obtain rfl : inner = body := by simpa [get?, same] using found
      exact ⟨innerNamed, innerLine⟩
    · exact ih ⟨restNamed, restLine⟩ (by simpa [get?, same] using found)

variable {home : Option Text} {files : Files} {path place : Text}

theorem cause_of_readText {error : Error} (failed : Config.readText files place = .error error) :
    error.cause? = none := by
  rw [Config.readText] at failed
  split at failed
  · cases failed
    rfl
  · cases failed
    rfl
  · split at failed <;> cases failed
    rfl

theorem cause_of_expandHome {error : Error} (failed : expandHome home path = .error error) :
    error.cause? = none := by
  obtain ⟨-, -, rfl⟩ := (expandHome_eq_error_iff home path error).mp failed
  rfl

theorem load_of_expanded (expanded : expandHome home path = .ok place) :
    Config.load home files path = Config.loadFile files place := by
  rw [Config.load, expanded, ok_bind]

theorem load_of_unexpanded {error : Error} (failed : expandHome home path = .error error) :
    Config.load home files path = .error error := by
  rw [Config.load, failed, error_bind]

theorem loadFile_of_fault {text : Text} {fault : ParseError}
    (read : Config.readText files place = .ok text) (failed : parse text = .error fault) :
    Config.loadFile files place = .error (.inFile place (.parse fault)) := by
  simp only [Config.loadFile, read, failed]

theorem loadFile_of_entries {text : Text} {entries : Group}
    (read : Config.readText files place = .ok text) (parsed : parse text = .ok entries) :
    Config.loadFile files place = .ok ⟨entries, some place⟩ := by
  simp only [Config.loadFile, read, parsed]

theorem loadFile_cases (files : Files) (place : Text) :
    (∃ error, Config.readText files place = .error error ∧
        Config.loadFile files place = .error error) ∨
      (∃ text fault, Config.readText files place = .ok text ∧ parse text = .error fault ∧
        Config.loadFile files place = .error (.inFile place (.parse fault))) ∨
      ∃ text entries, Config.readText files place = .ok text ∧ parse text = .ok entries ∧
        Config.loadFile files place = .ok ⟨entries, some place⟩ := by
  cases read : Config.readText files place with
  | error error => exact Or.inl ⟨error, rfl, by simp only [Config.loadFile, read]⟩
  | ok text =>
    cases parsed : parse text with
    | error fault => exact Or.inr (Or.inl ⟨text, fault, rfl, parsed, loadFile_of_fault read parsed⟩)
    | ok entries =>
      exact Or.inr (Or.inr ⟨text, entries, rfl, parsed, loadFile_of_entries read parsed⟩)

theorem cause_of_loadFile {error : Error} (failed : Config.loadFile files place = .error error)
    (reason : Text) :
    error.cause?.map Error.message = some reason ↔
      ∃ text fault, Config.readText files place = .ok text ∧
        parse text = .error fault ∧ reason = fault.message := by
  rcases loadFile_cases files place with
    ⟨other, unread, load⟩ | ⟨text, fault, read, faulty, load⟩ | ⟨text, entries, -, -, load⟩
  · cases failed.symm.trans load
    simp [cause_of_readText unread, unread]
  · cases failed.symm.trans load
    constructor
    · intro found
      exact ⟨text, fault, read, faulty, (Option.some.inj found).symm⟩
    · rintro ⟨text', fault', read', faulty', rfl⟩
      cases read.symm.trans read'
      cases faulty.symm.trans faulty'
      rfl
  · cases failed.symm.trans load

/-- The cause of an error of loading is a fault of the text of the file. -/
theorem cause_of_load {error : Error} (failed : Config.load home files path = .error error)
    (reason : Text) :
    error.cause?.map Error.message = some reason ↔
      ∃ place text fault, expandHome home path = .ok place ∧
        Config.readText files place = .ok text ∧ parse text = .error fault ∧
        reason = fault.message := by
  cases expanded : expandHome home path with
  | error other =>
    cases (load_of_unexpanded expanded).symm.trans failed
    simp [cause_of_expandHome expanded]
  | ok place =>
    rw [load_of_expanded expanded] at failed
    rw [cause_of_loadFile failed]
    simp

theorem load_congr {files' : Files}
    (same : ∀ place, expandHome home path = .ok place → files' place = files place) :
    Config.load home files' path = Config.load home files path := by
  cases expanded : expandHome home path with
  | error error => rw [load_of_unexpanded expanded, load_of_unexpanded expanded]
  | ok place =>
    rw [load_of_expanded expanded, load_of_expanded expanded, Config.loadFile, Config.loadFile,
      Config.readText, Config.readText, same place expanded]

theorem readable_of_load {config : Config}
    (loaded : Config.load home files path = .ok config) : config.entries.Readable := by
  obtain ⟨place, -, found⟩ := bind_eq_ok.mp loaded
  rcases loadFile_cases files place with
    ⟨error, -, load⟩ | ⟨text, fault, -, -, load⟩ | ⟨text, entries, -, parsed, load⟩
  · cases found.symm.trans load
  · cases found.symm.trans load
  · cases found.symm.trans load
    exact ⟨wellNamed_of_parse parsed, oneLine_of_parse parsed⟩

theorem load_of_render {group : Group} (readable : group.Readable)
    (expanded : expandHome home path = .ok place)
    (written : files place = some (.file (encodeText group.render))) :
    Config.load home files path = .ok ⟨group, some place⟩ := by
  have read : Config.readText files place = .ok group.render := by
    rw [Config.readText, written]
    dsimp only
    rw [decodeText?_encodeText]
  rw [load_of_expanded expanded]
  exact loadFile_of_entries read (parse_render_of_oneLine group readable.1 readable.2)

end ScopedConfig
