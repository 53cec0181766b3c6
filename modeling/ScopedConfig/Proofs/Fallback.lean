import ScopedConfig.Proofs.Loading

namespace ScopedConfig

namespace Config

variable {files : Files} {place : Text}

theorem readText_eq_ok_iff (text : Text) :
    readText files place = .ok text ↔ files place = some (.file (encodeText text)) := by
  rw [readText]
  cases files place with
  | none => simp
  | some node =>
    cases node with
    | directory => simp
    | file bytes =>
      dsimp only
      cases decoded : decodeText? bytes with
      | none =>
        have invalid : bytes ≠ encodeText text := by
          intro same
          rw [(decodeText?_eq_some_iff bytes text).mpr same] at decoded
          contradiction
        simpa using invalid
      | some other =>
        obtain rfl := (decodeText?_eq_some_iff bytes other).mp decoded
        rw [Except.ok.injEq, Option.some.injEq, FileNode.file.injEq, ← decodeText?_eq_some_iff,
          decoded, Option.some.injEq]

theorem readText_eq_error_iff (error : Error) :
    readText files place = .error error ↔
      files place = none ∧ error = .missingFile place ∨
      files place = some .directory ∧
        error = .unreadableFile place (readFailure isDirectoryReason) ∨
      (∃ bytes, files place = some (.file bytes) ∧ ¬ bytes.IsValidUTF8) ∧
        error = .unreadableFile place (readFailure notUtf8Reason) := by
  rw [readText]
  cases files place with
  | none => simp [eq_comm]
  | some node =>
    cases node with
    | directory => simp [eq_comm]
    | file bytes =>
      simp only [← decodeText?_eq_none_iff]
      cases decoded : decodeText? bytes <;> simp [decoded, eq_comm]

theorem loadFile_eq_ok_iff (config : Config) :
    loadFile files place = .ok config ↔
      config.origin = some place ∧
        ∃ text, files place = some (.file (encodeText text)) ∧ parse text = .ok config.entries := by
  simp only [← readText_eq_ok_iff]
  constructor
  · intro loaded
    rcases loadFile_cases files place with
      ⟨error, -, load⟩ | ⟨text, fault, -, -, load⟩ | ⟨text, entries, read, parsed, load⟩
    · cases loaded.symm.trans load
    · cases loaded.symm.trans load
    · cases loaded.symm.trans load
      exact ⟨rfl, text, read, parsed⟩
  · rintro ⟨origin, text, read, parsed⟩
    rw [loadFile_of_entries read parsed, ← origin]

theorem loadFile_eq_error_iff (error : Error) :
    loadFile files place = .error error ↔
      readText files place = .error error ∨
      ∃ text fault, files place = some (.file (encodeText text)) ∧
        parse text = .error fault ∧ error = .inFile place (.parse fault) := by
  simp only [← readText_eq_ok_iff]
  constructor
  · intro failed
    rcases loadFile_cases files place with
      ⟨other, unread, load⟩ | ⟨text, fault, read, faulty, load⟩ | ⟨text, entries, -, -, load⟩
    · cases failed.symm.trans load
      exact Or.inl unread
    · cases failed.symm.trans load
      exact Or.inr ⟨text, fault, read, faulty, rfl⟩
    · cases failed.symm.trans load
  · rintro (unread | ⟨text, fault, read, faulty, rfl⟩)
    · rw [loadFile, unread]
    · exact loadFile_of_fault read faulty

theorem loadFile_missing_iff (shown : Text) :
    loadFile files place = .error (.missingFile shown) ↔ shown = place ∧ files place = none := by
  rw [loadFile_eq_error_iff, readText_eq_error_iff]
  constructor
  · rintro ((⟨absent, same⟩ | ⟨-, ⟨⟩⟩ | ⟨-, ⟨⟩⟩) | ⟨-, -, -, -, ⟨⟩⟩)
    cases same
    exact ⟨rfl, absent⟩
  · rintro ⟨rfl, absent⟩
    exact Or.inl (Or.inl ⟨absent, rfl⟩)

theorem loadFile_unreadable_iff (shown reason : Text) :
    loadFile files place = .error (.unreadableFile shown reason) ↔
      shown = place ∧
        (files place = some .directory ∧ reason = readFailure isDirectoryReason ∨
          (∃ bytes, files place = some (.file bytes) ∧ ¬ bytes.IsValidUTF8) ∧
            reason = readFailure notUtf8Reason) := by
  rw [loadFile_eq_error_iff, readText_eq_error_iff]
  constructor
  · rintro ((⟨-, ⟨⟩⟩ | ⟨directory, same⟩ | ⟨invalid, same⟩) | ⟨-, -, -, -, ⟨⟩⟩)
    · cases same
      exact ⟨rfl, Or.inl ⟨directory, rfl⟩⟩
    · cases same
      exact ⟨rfl, Or.inr ⟨invalid, rfl⟩⟩
  · rintro ⟨rfl, ⟨directory, rfl⟩ | ⟨invalid, rfl⟩⟩
    · exact Or.inl (Or.inr (Or.inl ⟨directory, rfl⟩))
    · exact Or.inl (Or.inr (Or.inr ⟨invalid, rfl⟩))

theorem loadFile_faulty_iff (shown : Text) (cause : Error) :
    loadFile files place = .error (.inFile shown cause) ↔
      shown = place ∧ ∃ text fault, files place = some (.file (encodeText text)) ∧
        parse text = .error fault ∧ cause = .parse fault := by
  rw [loadFile_eq_error_iff, readText_eq_error_iff]
  constructor
  · rintro ((⟨-, ⟨⟩⟩ | ⟨-, ⟨⟩⟩ | ⟨-, ⟨⟩⟩) | ⟨text, fault, read, faulty, same⟩)
    cases same
    exact ⟨rfl, text, fault, read, faulty, rfl⟩
  · rintro ⟨rfl, text, fault, read, faulty, rfl⟩
    exact Or.inr ⟨text, fault, read, faulty, rfl⟩

theorem loadFile_ne_parse (fault : ParseError) : loadFile files place ≠ .error (.parse fault) := by
  intro failed
  rcases (loadFile_eq_error_iff _).mp failed with unread | ⟨-, -, -, -, ⟨⟩⟩
  rcases (readText_eq_error_iff _).mp unread with ⟨-, ⟨⟩⟩ | ⟨-, ⟨⟩⟩ | ⟨-, ⟨⟩⟩

variable {home : Option Text} {primary fallback : Text}

/-- Nothing lies at the place that a path stands for. -/
def NothingAt (home : Option Text) (files : Files) (path : Text) : Prop :=
  ∃ place, expandHome home path = .ok place ∧ files place = none

theorem load_missing_iff (path shown : Text) :
    load home files path = .error (.missingFile shown) ↔
      expandHome home path = .ok shown ∧ files shown = none := by
  cases expanded : expandHome home path with
  | error error =>
    obtain ⟨-, -, rfl⟩ := (expandHome_eq_error_iff home path error).mp expanded
    simp [load_of_unexpanded expanded]
  | ok place =>
    rw [load_of_expanded expanded, loadFile_missing_iff, Except.ok.injEq]
    constructor
    · rintro ⟨rfl, absent⟩
      exact ⟨rfl, absent⟩
    · rintro ⟨rfl, absent⟩
      exact ⟨rfl, absent⟩

theorem load_of_nothing {path : Text} (absent : NothingAt home files path) :
    ∃ shown, load home files path = .error (.missingFile shown) := by
  obtain ⟨place, expanded, missing⟩ := absent
  exact ⟨place, (load_missing_iff path place).mpr ⟨expanded, missing⟩⟩

theorem loadWithFallback_of_present (present : ¬ NothingAt home files primary) :
    loadWithFallback home files primary fallback = load home files primary := by
  rw [loadWithFallback]
  split
  · next shown missing =>
    exact absurd ⟨shown, (load_missing_iff primary shown).mp missing⟩ present
  · rfl

theorem loadWithFallback_of_absent (absent : NothingAt home files primary)
    (present : ¬ NothingAt home files fallback) :
    loadWithFallback home files primary fallback = load home files fallback := by
  obtain ⟨shown, missing⟩ := load_of_nothing absent
  simp only [loadWithFallback, missing]
  split
  · next shownToo missingToo =>
    exact absurd ⟨shownToo, (load_missing_iff fallback shownToo).mp missingToo⟩ present
  · rfl

theorem loadWithFallback_of_both_absent (absent : NothingAt home files primary)
    (absentToo : NothingAt home files fallback) :
    loadWithFallback home files primary fallback =
      .error (.missingFile (bothPaths primary fallback)) := by
  obtain ⟨shown, missing⟩ := load_of_nothing absent
  obtain ⟨shownToo, missingToo⟩ := load_of_nothing absentToo
  simp only [loadWithFallback, missing, missingToo]

/-- A path is refused before any file is looked for just if it starts at a home directory that does
not exist. Otherwise each outcome of loading says what lies at the place of the path: nothing,
something that is no text, a text with a fault, or a configuration. A fallback file is loaded just if
nothing lies at the first path; whatever lies there, and a path without a place, is loaded or refused
by itself. -/
theorem loadWithFallback_keeps_primary (home : Option Text) (files : Files) :
    (∀ path error, expandHome home path = .error error ↔
      home = none ∧ (path = ['~'] ∨ ['~', '/'] <+: path) ∧ error = .unreadableFile path
        "Could not determine home directory for ~ expansion".toList) ∧
    (∀ path error, expandHome home path = .error error → load home files path = .error error) ∧
    (∀ path place, expandHome home path = .ok place →
      (∀ shown, load home files path = .error (.missingFile shown) ↔
        shown = place ∧ files place = none) ∧
      (∀ shown reason, load home files path = .error (.unreadableFile shown reason) ↔
        shown = place ∧
          (files place = some .directory ∧ reason = readFailure isDirectoryReason ∨
            (∃ bytes, files place = some (.file bytes) ∧ ¬ bytes.IsValidUTF8) ∧
              reason = readFailure notUtf8Reason)) ∧
      (∀ shown cause, load home files path = .error (.inFile shown cause) ↔
        shown = place ∧ ∃ text fault, files place = some (.file (encodeText text)) ∧
          parse text = .error fault ∧ cause = .parse fault) ∧
      (∀ fault, load home files path ≠ .error (.parse fault)) ∧
      (∀ config, load home files path = .ok config ↔
        config.origin = some place ∧ ∃ text, files place = some (.file (encodeText text)) ∧
          parse text = .ok config.entries)) ∧
    ∀ primary fallback,
      (¬ NothingAt home files primary →
        loadWithFallback home files primary fallback = load home files primary) ∧
      (NothingAt home files primary → ¬ NothingAt home files fallback →
        loadWithFallback home files primary fallback = load home files fallback) ∧
      (NothingAt home files primary → NothingAt home files fallback →
        loadWithFallback home files primary fallback =
          .error (.missingFile (primary ++ " (fallback: ".toList ++ fallback ++ ")".toList))) := by
  refine ⟨expandHome_eq_error_iff home, fun path error => load_of_unexpanded,
    fun path place expanded => ?_, fun primary fallback => ?_⟩
  · rw [load_of_expanded expanded]
    exact ⟨loadFile_missing_iff, loadFile_unreadable_iff, loadFile_faulty_iff, loadFile_ne_parse,
      loadFile_eq_ok_iff⟩
  · exact ⟨loadWithFallback_of_present, loadWithFallback_of_absent,
      loadWithFallback_of_both_absent⟩

/-- A faulty text below the home directory, a directory and no file at all, each with a file to
stand in for it; then two paths at which nothing lies, and paths below a home directory that does not
exist. -/
theorem loadWithFallback_keeps_primary_faulty :
    let files : Files := fun path =>
      if path = "h/a".toList then some (.file (encodeText "k = 'v".toList))
      else if path = ['b'] then some (.file (encodeText "k = v".toList))
      else if path = ['d'] then some .directory
      else none
    let home := some ['h']
    let homeless (path : Text) : Except Error Config := .error (.unreadableFile path
      "Could not determine home directory for ~ expansion".toList)
    loadWithFallback home files "~/a".toList ['b'] =
        .error (.inFile "h/a".toList (.parse (.unmatchedQuote '\x27' 1))) ∧
      loadWithFallback home files ['d'] ['b'] =
        .error (.unreadableFile ['d'] (readFailure isDirectoryReason)) ∧
      loadWithFallback home files ['c'] ['b'] =
        .ok ⟨.scalar ['k'] ['v'] .empty, some ['b']⟩ ∧
      loadWithFallback home files ['c'] "~/b".toList =
        .error (.missingFile "c (fallback: ~/b)".toList) ∧
      loadWithFallback none files "~/c".toList ['b'] = homeless "~/c".toList ∧
      loadWithFallback none files ['c'] "~/b".toList = homeless "~/b".toList := by
  intro files home homeless
  obtain ⟨-, -, outcomes, fallbacks⟩ := loadWithFallback_keeps_primary home files
  obtain ⟨unexpanded, refused, -, fallbacksToo⟩ := loadWithFallback_keeps_primary none files
  have present {home : Option Text} {path place : Text} {node : FileNode}
      (expanded : expandHome home path = .ok place) (found : files place = some node) :
      ¬ NothingAt home files path := by
    rintro ⟨other, same, absent⟩
    cases expanded.symm.trans same
    cases found.symm.trans absent
  have nowhere (path : Text) (start : ['~', '/'] <+: path) : ¬ NothingAt none files path := by
    rintro ⟨place, expanded, -⟩
    cases ((unexpanded path _).mpr ⟨rfl, Or.inr start, rfl⟩).symm.trans expanded
  have absent (home : Option Text) : NothingAt home files ['c'] := ⟨['c'], rfl, rfl⟩
  refine ⟨?_, ?_, ?_, ?_, ?_, ?_⟩
  · obtain ⟨-, -, faulty, -, -⟩ := outcomes "~/a".toList "h/a".toList rfl
    rw [(fallbacks "~/a".toList ['b']).1 (present rfl rfl), faulty]
    exact ⟨rfl, _, .unmatchedQuote '\x27' 1, rfl, by decide +kernel, rfl⟩
  · obtain ⟨-, unreadable, -, -, -⟩ := outcomes ['d'] ['d'] rfl
    rw [(fallbacks ['d'] ['b']).1 (present rfl rfl), unreadable]
    exact ⟨rfl, Or.inl ⟨rfl, rfl⟩⟩
  · obtain ⟨-, -, -, -, loaded⟩ := outcomes ['b'] ['b'] rfl
    rw [(fallbacks ['c'] ['b']).2.1 (absent home) (present rfl rfl), loaded]
    exact ⟨rfl, _, rfl, by decide +kernel⟩
  · exact (fallbacks ['c'] "~/b".toList).2.2 (absent home) ⟨"h/b".toList, rfl, rfl⟩
  · have start : ['~', '/'] <+: "~/c".toList := by decide
    rw [(fallbacksToo "~/c".toList ['b']).1 (nowhere _ start)]
    exact refused _ _ ((unexpanded _ _).mpr ⟨rfl, Or.inr start, rfl⟩)
  · have start : ['~', '/'] <+: "~/b".toList := by decide
    rw [(fallbacksToo ['c'] "~/b".toList).2.1 (absent none) (nowhere _ start)]
    exact refused _ _ ((unexpanded _ _).mpr ⟨rfl, Or.inr start, rfl⟩)

end Config

end ScopedConfig
