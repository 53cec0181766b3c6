import ScopedConfig.Error

/-!
Errors wrapped in files, however often. Every error is its root in the files of its wrappers and in
no other way. It has the code, the line and the hint of its root; its message names each file before
the message of the root, and its causes lead to the root.
-/

namespace ScopedConfig

theorem ParseError.hint_ne_nil (fault : ParseError) : fault.hint ≠ [] := by
  unfold hint
  split
  all_goals
    rw [ne_eq, String.toList_eq_nil_iff]
    decide

namespace Error

/-- The files that an error is wrapped in, the outermost one first. -/
def wrappers : Error → List Text
  | inFile path cause => path :: cause.wrappers
  | _ => []

def wrappedIn (error : Error) (paths : List Text) : Error := paths.foldr inFile error

def causeAfter? : Nat → Error → Option Error
  | 0, error => some error
  | steps + 1, error => error.cause?.bind (causeAfter? steps)

theorem root_cases (error : Error) :
    (∃ fault, error.root = .parse fault) ∨ (∃ path, error.root = .missingFile path) ∨
      ∃ path reason, error.root = .unreadableFile path reason := by
  induction error with
  | parse fault => exact Or.inl ⟨fault, rfl⟩
  | missingFile path => exact Or.inr (Or.inl ⟨path, rfl⟩)
  | unreadableFile path reason => exact Or.inr (Or.inr ⟨path, reason, rfl⟩)
  | inFile path cause ih => exact ih

theorem root_ne_inFile (error : Error) (path : Text) (cause : Error) :
    error.root ≠ .inFile path cause := by
  intro wrapped
  rcases error.root_cases with ⟨_, bare⟩ | ⟨_, bare⟩ | ⟨_, _, bare⟩
  all_goals cases wrapped.symm.trans bare

theorem cause?_root (error : Error) : error.root.cause? = none := by
  rcases error.root_cases with ⟨_, bare⟩ | ⟨_, bare⟩ | ⟨_, _, bare⟩
  all_goals
    rw [bare]
    rfl

theorem wrappedIn_wrappers (error : Error) : error.root.wrappedIn error.wrappers = error := by
  induction error with
  | parse fault => rfl
  | missingFile path => rfl
  | unreadableFile path reason => rfl
  | inFile path cause ih => exact congrArg (inFile path) ih

theorem root_and_wrappers_of_bare {error : Error} (bare : error.cause? = none) :
    error.root = error ∧ error.wrappers = [] := by
  cases error with
  | parse fault => exact ⟨rfl, rfl⟩
  | missingFile path => exact ⟨rfl, rfl⟩
  | unreadableFile path reason => exact ⟨rfl, rfl⟩
  | inFile path cause => contradiction

section

variable {α : Type} {answer : Error → α}
  (kept : ∀ path cause, answer (.inFile path cause) = answer cause)

include kept

theorem answer_wrappedIn (error : Error) (paths : List Text) :
    answer (error.wrappedIn paths) = answer error := by
  induction paths with
  | nil => rfl
  | cons path paths ih => exact (kept path (error.wrappedIn paths)).trans ih

theorem answer_root (error : Error) : answer error = answer error.root :=
  calc
    answer error = answer (error.root.wrappedIn error.wrappers) := by rw [wrappedIn_wrappers]
    _ = answer error.root := answer_wrappedIn kept error.root error.wrappers

end

theorem root_wrappedIn (error : Error) (paths : List Text) :
    (error.wrappedIn paths).root = error.root :=
  answer_wrappedIn (fun _ _ => rfl) error paths

theorem wrappers_wrappedIn (error : Error) (paths : List Text) :
    (error.wrappedIn paths).wrappers = paths ++ error.wrappers := by
  induction paths with
  | nil => rfl
  | cons path paths ih => exact congrArg (path :: ·) ih

theorem message_wrappedIn (error : Error) (paths : List Text) :
    (error.wrappedIn paths).message = paths.flatMap wrapping ++ error.message := by
  induction paths with
  | nil => rfl
  | cons path paths ih =>
    calc
      (error.wrappedIn (path :: paths)).message
          = wrapping path ++ (error.wrappedIn paths).message := rfl
      _ = (path :: paths).flatMap wrapping ++ error.message := by
        rw [ih, List.flatMap_cons, List.append_assoc]

/-- Each wrapper is one step of the way, and the way ends behind the last one. -/
theorem causeAfter?_wrappedIn {error : Error} (bare : error.cause? = none) (paths : List Text)
    (steps : Nat) (last : Error) :
    (error.wrappedIn paths).causeAfter? steps = some last ∧ last.cause? = none ↔
      steps = paths.length ∧ last = error := by
  induction paths generalizing steps with
  | nil =>
    cases steps with
    | zero =>
      constructor
      · rintro ⟨⟨⟩, -⟩
        exact ⟨rfl, rfl⟩
      · rintro ⟨-, rfl⟩
        exact ⟨rfl, bare⟩
    | succ steps => simp [wrappedIn, causeAfter?, bare]
  | cons path paths ih =>
    cases steps with
    | zero =>
      -- a wrapper has a cause, so the way does not end here
      constructor
      · rintro ⟨⟨⟩, ⟨⟩⟩
      · rintro ⟨⟨⟩, -⟩
    | succ steps =>
      rw [List.length_cons, Nat.add_right_cancel_iff]
      exact ih steps

example :
    let error := (Error.parse (.unfinished 3)).wrappedIn [['a'], ['b']]
    error.causeAfter? 2 = some (.parse (.unfinished 3)) ∧ error.causeAfter? 3 = none := by
  decide

theorem eq_wrappedIn_iff (error other : Error) (paths : List Text) :
    other.cause? = none ∧ error = other.wrappedIn paths ↔
      other = error.root ∧ paths = error.wrappers := by
  constructor
  · rintro ⟨bare, rfl⟩
    obtain ⟨same, unwrapped⟩ := root_and_wrappers_of_bare bare
    rw [root_wrappedIn, wrappers_wrappedIn, same, unwrapped, List.append_nil]
    exact ⟨rfl, rfl⟩
  · rintro ⟨rfl, rfl⟩
    exact ⟨error.cause?_root, error.wrappedIn_wrappers.symm⟩

theorem root_root (error : Error) : error.root.root = error.root :=
  (answer_root (fun _ _ => rfl) error).symm

theorem hint_root (error : Error) : error.hint = error.root.hint := by
  rw [hint, hint, root_root]

theorem ownHint_eq_nil_iff (error : Error) :
    error.ownHint = [] ↔ ∃ path cause, error = .inFile path cause := by
  unfold ownHint
  split
  · next fault => simp [fault.hint_ne_nil]
  · simp
  · simp
  · simp

theorem hint_ne_nil (error : Error) : error.hint ≠ [] := by
  intro missing
  obtain ⟨path, cause, wrapped⟩ := error.root.ownHint_eq_nil_iff.mp missing
  exact error.root_ne_inFile path cause wrapped

theorem line?_root (error : Error) : error.line? = error.root.line? :=
  answer_root (fun _ _ => rfl) error

theorem line?_eq_none_iff (error : Error) :
    error.line? = none ↔ (∃ path, error.root = .missingFile path) ∨
      ∃ path reason, error.root = .unreadableFile path reason := by
  rw [line?_root]
  rcases error.root_cases with ⟨_, bare⟩ | ⟨_, bare⟩ | ⟨_, _, bare⟩
  all_goals simp [bare, line?]

theorem wrapping_eq :
    wrapping = fun path => "[NESTCFG] Error in config file '".toList ++ path ++ "': ".toList := by
  have opening : messageTag ++ "Error in config file '".toList =
      "[NESTCFG] Error in config file '".toList := String.toList_append.symm
  funext path
  rw [wrapping, opening]

/-- An error is an unwrapped one, its root, in files, in one way only, and has its code, its line and
its hint, which is never empty: only a wrapper has no hint of its own. A line is absent just from an
error of a file. The message opens once for each file, and the causes end at the root behind the
last wrapper. -/
theorem answers_as_root (error : Error) :
    ((∀ path cause, error.root ≠ .inFile path cause) ∧ error.root.root = error.root) ∧
      (∀ other paths, other.cause? = none ∧ error = other.wrappedIn paths ↔
        other = error.root ∧ paths = error.wrappers) ∧
      (error.code = error.root.code ∧ error.line? = error.root.line? ∧
        error.hint = error.root.hint) ∧
      (error.hint ≠ [] ∧
        ∀ other : Error, other.ownHint = [] ↔ ∃ path cause, other = .inFile path cause) ∧
      (error.line? = none ↔ (∃ path, error.root = .missingFile path) ∨
        ∃ path reason, error.root = .unreadableFile path reason) ∧
      error.message = (error.wrappers.flatMap fun path =>
        "[NESTCFG] Error in config file '".toList ++ path ++ "': ".toList) ++ error.root.message ∧
      ∀ steps last, error.causeAfter? steps = some last ∧ last.cause? = none ↔
        steps = error.wrappers.length ∧ last = error.root := by
  refine ⟨⟨error.root_ne_inFile, error.root_root⟩, error.eq_wrappedIn_iff,
    ⟨answer_root (fun _ _ => rfl) error, error.line?_root, error.hint_root⟩,
    ⟨error.hint_ne_nil, ownHint_eq_nil_iff⟩, error.line?_eq_none_iff, ?_, fun steps last => ?_⟩
  · rw [← wrapping_eq, ← message_wrappedIn, wrappedIn_wrappers]
  · have along := causeAfter?_wrappedIn error.cause?_root error.wrappers steps last
    rwa [wrappedIn_wrappers] at along

end Error

end ScopedConfig
