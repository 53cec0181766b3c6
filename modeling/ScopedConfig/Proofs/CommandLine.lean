import ScopedConfig.CommandLine
import ScopedConfig.Proofs.Loading
import ScopedConfig.Proofs.Paths

namespace ScopedConfig

namespace Draft

theorem take_value (draft : Draft) (setting : Setting) {argument : Text}
    (options : draft.pathsOnly = false) (awaiting : draft.awaiting = some setting)
    (value : argument.head? ≠ some '-') : draft.take argument = draft.set setting argument := by
  obtain ⟨path, format, entry, _, _⟩ := draft
  obtain rfl : _ = false := options
  obtain rfl : _ = some setting := awaiting
  cases argument with
  | nil => rfl
  | cons c rest =>
    have visible : c ≠ '-' := fun dash => value (congrArg some dash)
    simp [take, visible]

theorem take_operand (draft : Draft) {argument : Text} (options : draft.pathsOnly = false)
    (awaiting : draft.awaiting = none) (operand : IsOperand argument) :
    draft.take argument = draft.setPath argument := by
  obtain ⟨path, format, entry, _, _⟩ := draft
  obtain rfl : _ = false := options
  obtain rfl : _ = none := awaiting
  obtain ⟨nonempty, value⟩ := operand
  cases argument with
  | nil => contradiction
  | cons c rest =>
    have visible : c ≠ '-' := fun dash => value (congrArg some dash)
    simp [take, visible]

end Draft

theorem ofArguments_commandLine {path : Text} (format : Option Format) {entry : Option Text}
    (operand : IsOperand path) (value : ∀ text ∈ entry, text.head? ≠ some '-') :
    Request.ofArguments (commandLine path format entry) =
      .ok ⟨path, format.getD .text, entry⟩ := by
  have first : Draft.empty.take path = .ok ⟨some path, none, none, none, false⟩ := by
    rw [Draft.take_operand _ rfl rfl operand, Draft.setPath]
    simp [Draft.empty, operand.1]
  have second : (format.elim [] fun format => ["--format".toList, format.name]).foldlM Draft.take
      ⟨some path, none, none, none, false⟩ = .ok ⟨some path, format, none, none, false⟩ := by
    cases format with
    | none => rfl
    | some format => cases format <;> rfl
  have third : (entry.elim [] fun text => ["--get".toList, text]).foldlM Draft.take
      ⟨some path, format, none, none, false⟩ = .ok ⟨some path, format, entry, none, false⟩ := by
    cases entry with
    | none => rfl
    | some text =>
      have option : Draft.take ⟨some path, format, none, none, false⟩ "--get".toList =
        .ok ⟨some path, format, none, some .entry, false⟩ := rfl
      rw [Option.elim_some, List.foldlM_cons, option, ok_bind, List.foldlM_cons,
        Draft.take_value _ .entry rfl rfl (value text rfl)]
      rfl
  rw [Request.ofArguments, commandLine, List.cons_append, List.foldlM_cons, first, ok_bind,
    List.foldlM_append, second, ok_bind, third, ok_bind]
  rfl

/-- An outcome without an answer: the message of the error, and its cause in a block of its own. -/
def failure (message : Text) (cause : Option Text) : Outcome :=
  ⟨1, [], "Error: ".toList ++ message ++ ['\n'] ++
    cause.elim [] fun cause => "\nCaused by:\n    ".toList ++ cause ++ ['\n']⟩

def missingEntry (entry path : Text) : Text :=
  "No entry at '".toList ++ entry ++ "' in ".toList ++ path

theorem missingEntryReport_eq (entry path : Text) :
    missingEntryReport entry path = "Error: ".toList ++ missingEntry entry path ++ ['\n'] := rfl

def Group.select? (entries : Group) (path : Option Text) : Option Entry :=
  path.elim (some (.group entries)) entries.find?

theorem Request.select?_eq (request : Request) (entries : Group) :
    request.select? entries = entries.select? request.entry := by
  obtain ⟨path, format, entry⟩ := request
  cases entry <;> rfl

theorem Group.isSome_select? (entries : Group) (path : Option Text) :
    (entries.select? path).isSome = true ↔ ∀ given ∈ path, (entries.find? given).isSome = true := by
  cases path <;> simp [select?]

variable {home : Option Text} {files : Files}

theorem run_of_load {path : Text} {config : Config}
    (loaded : Config.load home files path = .ok config) (format : Format) (entry : Option Text) :
    Request.run home files ⟨path, format, entry⟩ =
      match config.entries.select? entry with
      | none => failure (missingEntry (entry.getD []) path) none
      | some found => ⟨0, found.print format, []⟩ := by
  rw [Request.run, loaded]
  dsimp only
  rw [Request.select?_eq]
  cases config.entries.select? entry with
  | none => rw [missingEntryReport_eq, failure, Option.elim_none, List.append_nil]
  | some found => rfl

theorem run_of_error {path : Text} {error : Error}
    (failed : Config.load home files path = .error error) (format : Format) (entry : Option Text) :
    Request.run home files ⟨path, format, entry⟩ =
      failure error.message (error.cause?.map Error.message) := by
  rw [Request.run, failed]
  cases error <;> rfl

theorem status_run (f : Text) (format : Format) (p : Option Text) :
    (Request.run home files ⟨f, format, p⟩).status = 0 ↔
      ∃ config, Config.load home files f = .ok config ∧
        ∀ path ∈ p, (config.entries.find? path).isSome = true := by
  cases loaded : Config.load home files f with
  | error error => simp [run_of_error loaded, failure]
  | ok config =>
    rw [run_of_load loaded]
    simp only [Except.ok.injEq, exists_eq_left', ← Group.isSome_select?]
    cases config.entries.select? p <;> simp [failure]

theorem stderr_run (f : Text) (format : Format) (p : Option Text)
    (answered : (Request.run home files ⟨f, format, p⟩).status = 0) :
    (Request.run home files ⟨f, format, p⟩).stderr = [] := by
  obtain ⟨config, loaded, present⟩ := (status_run f format p).mp answered
  obtain ⟨found, selected⟩ := Option.isSome_iff_exists.mp
    ((config.entries.isSome_select? p).mpr present)
  rw [run_of_load loaded, selected]

theorem run_failure (f : Text) (format : Format) (p : Option Text)
    (failed : (Request.run home files ⟨f, format, p⟩).status ≠ 0) :
    ∃ message cause, Request.run home files ⟨f, format, p⟩ = failure message cause ∧
      (∀ error, Config.load home files f = .error error → message = error.message) ∧
      (∀ config path, Config.load home files f = .ok config → p = some path →
        message = missingEntry path f) ∧
      ∀ reason, cause = some reason ↔
        ∃ place text fault, expandHome home f = .ok place ∧
          Config.readText files place = .ok text ∧ parse text = .error fault ∧
          reason = fault.message := by
  cases loaded : Config.load home files f with
  | error error =>
    refine ⟨_, _, run_of_error loaded format p, ?_, by simp, cause_of_load loaded⟩
    rintro _ ⟨⟩
    rfl
  | ok config =>
    rw [run_of_load loaded] at failed ⊢
    cases selected : config.entries.select? p with
    | some found => exact absurd (by rw [selected]) failed
    | none =>
      refine ⟨_, _, rfl, by simp, ?_, fun reason => ⟨by simp, ?_⟩⟩
      · rintro _ path ⟨⟩ rfl
        rfl
      · rintro ⟨place, text, fault, expanded, read, broken, -⟩
        rw [load_of_expanded expanded, loadFile_of_fault read broken] at loaded
        contradiction

variable {f : Text} {p : Option Text}

theorem runCommand_commandLine (notice : Notice) (format : Option Format) (operand : IsOperand f)
    (value : ∀ path ∈ p, IsOperand path) :
    runCommand notice home files (commandLine f format p) =
      Request.run home files ⟨f, format.getD .text, p⟩ := by
  rw [runCommand, ofArguments_commandLine format operand fun path given => (value path given).2]

def below (outer : Option Text) (inner : Text) : Text :=
  outer.elim inner fun outer => outer ++ '/' :: inner

theorem IsOperand.below (value : ∀ path ∈ p, IsOperand path) {q : Text} (inner : IsOperand q) :
    IsOperand (below p q) := by
  cases p with
  | none => exact inner
  | some outer =>
    obtain ⟨nonempty, plain⟩ := value outer rfl
    cases outer with
    | nil => contradiction
    | cons c outer => exact ⟨List.cons_ne_nil c _, plain⟩

theorem find?_below (entries : Group) {group : Group}
    (selected : entries.select? p = some (.group group)) (q : Text) :
    entries.find? (below p q) = group.find? q := by
  cases p with
  | none =>
    cases selected
    rfl
  | some outer =>
    rw [below, Option.elim_some, Group.find?_append, show entries.find? outer = _ from selected]
    rfl

theorem Group.Readable.selected {entries group : Group} (readable : entries.Readable)
    (selected : entries.select? p = some (.group group)) : group.Readable := by
  cases p with
  | none =>
    cases selected
    exact readable
  | some outer => exact Entry.follow_inside Group.readable_of_get? readable selected

theorem run_again {g place : Text} {config : Config}
    (loaded : Config.load home files f = .ok config) {group : Group}
    (selected : config.entries.select? p = some (.group group))
    (expanded : expandHome home g = .ok place)
    (written : files place = some (.file (encodeText group.render))) :
    Request.run home files ⟨g, .text, none⟩ = ⟨0, group.render, []⟩ ∧
      ∀ q format,
        (Request.run home files ⟨g, format, some q⟩).status =
            (Request.run home files ⟨f, format, some (below p q)⟩).status ∧
          (Request.run home files ⟨g, format, some q⟩).stdout =
            (Request.run home files ⟨f, format, some (below p q)⟩).stdout := by
  have again := load_of_render ((readable_of_load loaded).selected selected) expanded written
  refine ⟨run_of_load again .text none, fun q format => ?_⟩
  rw [run_of_load again, run_of_load loaded, Group.select?, Group.select?, Option.elim_some,
    Option.elim_some, find?_below config.entries selected]
  cases group.find? q with
  | none => exact ⟨rfl, rfl⟩
  | some found => exact ⟨rfl, rfl⟩

/-- The command answers if and only if the file is loaded and has the entry that is asked for, and
then nothing goes to the other stream. Otherwise it reports the error of loading, with its cause if
the file is read but is no configuration, or the missing entry. And if a group is printed as text
and goes into a new file, the command prints the same for this file, and an entry inside the group
has there the path that is left of its path in the first file. -/
theorem runCommand_answers (notice : Notice) (home : Option Text) (files : Files) (f : Text)
    (format : Option Format) (p : Option Text) (operand : IsOperand f)
    (value : ∀ path ∈ p, IsOperand path) :
    let outcome := runCommand notice home files (commandLine f format p)
    (outcome.status = 0 ↔ ∃ config, Config.load home files f = .ok config ∧
      ∀ path ∈ p, (config.entries.find? path).isSome = true) ∧
    (outcome.status = 0 → outcome.stderr = []) ∧
    (outcome.status ≠ 0 → ∃ message cause, outcome = failure message cause ∧
      (∀ error, Config.load home files f = .error error → message = error.message) ∧
      (∀ config path, Config.load home files f = .ok config → p = some path →
        message = missingEntry path f) ∧
      ∀ reason, cause = some reason ↔
        ∃ place text fault, expandHome home f = .ok place ∧
          Config.readText files place = .ok text ∧ parse text = .error fault ∧
          reason = fault.message) ∧
    ∀ config group, Config.load home files f = .ok config → format.getD .text = .text →
      config.entries.select? p = some (.group group) →
      ∀ g place files', IsOperand g → expandHome home g = .ok place →
        files' place = some (.file (encodeText outcome.stdout)) →
        (∀ first, expandHome home f = .ok first → files' first = files first) →
        runCommand notice home files' (commandLine g none none) = ⟨0, outcome.stdout, []⟩ ∧
        ∀ (q : Text) (other : Option Format), IsOperand q →
          let inner := runCommand notice home files' (commandLine g other (some q))
          let outer := runCommand notice home files' (commandLine f other (some (below p q)))
          inner.status = outer.status ∧ inner.stdout = outer.stdout := by
  intro outcome
  have ran : outcome = Request.run home files ⟨f, format.getD .text, p⟩ :=
    runCommand_commandLine notice format operand value
  clear_value outcome
  subst ran
  refine ⟨status_run f _ p, stderr_run f _ p, run_failure f _ p, ?_⟩
  intro config group loaded isText selected g place files' operand' expanded written kept
  rw [run_of_load loaded, selected, isText] at written ⊢
  have loaded' : Config.load home files' f = .ok config := (load_congr kept).trans loaded
  obtain ⟨whole, inside⟩ := run_again loaded' selected expanded written
  refine ⟨(runCommand_commandLine notice none operand' (by simp)).trans whole, ?_⟩
  intro q other inner
  rw [runCommand_commandLine notice other operand' (by simpa using inner),
    runCommand_commandLine notice other operand (by simpa using inner.below value)]
  exact inside q _

/-- A group of a file is printed into another file, and a scalar of it is asked for in both. A path
that starts at the home directory is refused where there is none. -/
theorem runCommand_answers_inside :
    let text : Text := "$v = 1\ng \x7b\nh \x7b\nk = $v\n\x7d\n\x7d".toList
    let first : Files := fun path => if path = ['a'] then some (.file (encodeText text)) else none
    let run (files : Files) (arguments : List Text) : Outcome :=
      runCommand (fun _ _ => []) none files arguments
    let outcome := run first (commandLine ['a'] none (some ['g']))
    let second : Files := fun path =>
      if path = ['b'] then some (.file (encodeText outcome.stdout)) else first path
    outcome = ⟨0, "h = \x7b\n    k = \x221\x22\n\x7d\n".toList, []⟩ ∧
      run second (commandLine ['b'] none none) = ⟨0, outcome.stdout, []⟩ ∧
      (run second (commandLine ['b'] (some .json) (some "h/k".toList))).stdout =
        (run second (commandLine ['a'] (some .json) (some "g/h/k".toList))).stdout ∧
      run first (commandLine ['a'] none (some ['k'])) =
        failure "No entry at 'k' in a".toList none ∧
      run first (commandLine "~/a".toList none none) =
        failure ("[NESTCFG] File Error '~/a': " ++
          "Could not determine home directory for ~ expansion").toList none := by
  intro text first run outcome second
  let group : Group := .nested ['h'] (.scalar ['k'] ['1'] .empty) .empty
  have expanded (name : Char) (plain : name ≠ '~') : expandHome none [name] = .ok [name] := by
    simp [expandHome, belowHome?, plain]
  have read : Config.readText first ['a'] = .ok text := by
    rw [Config.readText]
    simp [first, decodeText?_encodeText]
  have loaded : Config.load none first ['a'] =
      .ok ⟨.nested ['g'] group .empty, some ['a']⟩ :=
    (load_of_expanded (expanded 'a' (by decide))).trans
      (loadFile_of_entries read (by decide +kernel))
  have answers (f : Text) (operand : IsOperand f) (p : Option Text)
      (value : ∀ path ∈ p, IsOperand path) :=
    runCommand_answers (fun _ _ => []) none first f none p operand value
  obtain ⟨-, -, -, again⟩ := answers ['a'] (by decide) (some ['g']) (by decide)
  obtain ⟨absent, -, reported, -⟩ := answers ['a'] (by decide) (some ['k']) (by decide)
  obtain ⟨homeless, -, refused, -⟩ := answers "~/a".toList (by decide) none (by simp)
  obtain ⟨whole, inside⟩ := again _ group loaded rfl rfl ['b'] ['b'] second (by decide)
    (expanded 'b' (by decide)) (by simp [second, outcome, run])
    (by simp [expanded 'a' (by decide), second])
  have printed : outcome = ⟨0, "h = \x7b\n    k = \x221\x22\n\x7d\n".toList, []⟩ := by
    rw [show outcome = _ from runCommand_commandLine _ none (by decide) (by simp; decide),
      run_of_load loaded]
    decide +kernel
  refine ⟨printed, whole, (inside "h/k".toList (some .json) (by decide)).2, ?_, ?_⟩
  · have missing : (run first (commandLine ['a'] none (some ['k']))).status ≠ 0 := by
      intro zero
      obtain ⟨config, loaded', present⟩ := absent.mp zero
      cases loaded.symm.trans loaded'
      exact absurd (present ['k'] rfl) (by decide)
    obtain ⟨message, cause, failed, -, entry, reasons⟩ := reported missing
    obtain rfl : message = missingEntry ['k'] ['a'] := entry _ _ loaded rfl
    obtain rfl : cause = none := by
      rw [Option.eq_none_iff_forall_ne_some]
      intro reason found
      obtain ⟨place, other, fault, same, read', broken, -⟩ := (reasons reason).mp found
      cases ((load_of_expanded same).trans (loadFile_of_fault read' broken)).symm.trans loaded
    exact failed
  · have unexpanded : expandHome none "~/a".toList =
        .error (.unreadableFile "~/a".toList noHomeReason) := by decide
    have unloaded : Config.load none first "~/a".toList = _ := load_of_unexpanded unexpanded
    have missing : (run first (commandLine "~/a".toList none none)).status ≠ 0 := by
      intro zero
      obtain ⟨config, loaded', -⟩ := homeless.mp zero
      cases unloaded.symm.trans loaded'
    obtain ⟨message, cause, failed, reason, -, reasons⟩ := refused missing
    obtain rfl := reason _ unloaded
    obtain rfl : cause = none := by
      rw [Option.eq_none_iff_forall_ne_some]
      intro reason found
      obtain ⟨place, -, -, expanded, -⟩ := (reasons reason).mp found
      cases unexpanded.symm.trans expanded
    have words : (Error.unreadableFile "~/a".toList noHomeReason).message =
        ("[NESTCFG] File Error '~/a': " ++
          "Could not determine home directory for ~ expansion").toList := by decide +kernel
    exact failed.trans (congrArg (failure · none) words)

end ScopedConfig
