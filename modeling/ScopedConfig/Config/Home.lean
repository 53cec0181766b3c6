import ScopedConfig.Error

namespace ScopedConfig

/-- A component that names no step: nothing between two slashes, or a dot. -/
def isIdle (component : Text) : Bool := component.isEmpty || component = ['.']

def trimPath (path : Text) : Text :=
  let components := (path.splitOn '/').dropWhile isIdle
  ['/'].intercalate (components.reverse.dropWhile isIdle).reverse

/-- A path as seen from a directory. A path from the root is one and the same everywhere. -/
def joinPath (directory path : Text) : Text :=
  if path.head? = some '/' then path
  else if directory.isEmpty || directory.getLast? = some '/' then directory ++ path
  else directory ++ '/' :: path

def belowHome? : Text → Option Text
  | ['~'] => some []
  | '~' :: '/' :: rest => some (trimPath rest)
  | _ => none

theorem belowHome?_eq_none_iff (path : Text) :
    belowHome? path = none ↔ ¬ (path = ['~'] ∨ ['~', '/'] <+: path) := by
  unfold belowHome?
  split
  · simp
  · simp
  · next other further =>
    refine iff_of_true rfl ?_
    rintro (rfl | ⟨rest, rfl⟩)
    · exact other rfl
    · exact further rest rfl

def noHomeReason : Text := "Could not determine home directory for ~ expansion".toList

/-- The place that a path stands for. Without a home directory there is none for a path that starts
there, and the error names the path as it is written. -/
def expandHome (home : Option Text) (path : Text) : Except Error Text :=
  match belowHome? path with
  | none => .ok path
  | some rest =>
    match home with
    | none => .error (.unreadableFile path noHomeReason)
    | some directory => .ok (joinPath directory rest)

theorem expandHome_eq_error_iff (home : Option Text) (path : Text) (error : Error) :
    expandHome home path = .error error ↔
      home = none ∧ (path = ['~'] ∨ ['~', '/'] <+: path) ∧
        error = .unreadableFile path noHomeReason := by
  by_cases start : path = ['~'] ∨ ['~', '/'] <+: path
  · have below : belowHome? path ≠ none := fun kept => (belowHome?_eq_none_iff path).mp kept start
    obtain ⟨rest, below⟩ := Option.ne_none_iff_exists'.mp below
    rw [expandHome, below]
    cases home <;> simp [start, eq_comm]
  · rw [expandHome, (belowHome?_eq_none_iff path).mpr start]
    simp [start]

end ScopedConfig
