import ScopedConfig.Scopes

/-!
What is done to the frames, step by step, and what a flat history remembers of it. The history keeps
every declaration that was made, the latest first, and nothing is taken off it when a frame closes:
each declaration knows how many frames are open inside its own, or that its own is closed.
-/

namespace ScopedConfig

inductive ScopeStep where
  | enter
  | exit
  | declare (name value : Text) (line : Nat)
  deriving DecidableEq, Repr

/-- How many frames are open inside a frame once a step is done, if there were `inner?` of them
before. A frame that is closed stays so. -/
def ScopeStep.countInner (inner? : Option Nat) : ScopeStep → Option Nat
  | enter => inner?.map (· + 1)
  | exit =>
    match inner? with
    | some (inner + 1) => some inner
    | _ => none
  | declare .. => inner?

def Balanced (steps : List ScopeStep) : Prop :=
  steps.foldl ScopeStep.countInner (some 0) = some 0

instance : DecidablePred Balanced := fun steps =>
  inferInstanceAs (Decidable (steps.foldl ScopeStep.countInner (some 0) = some 0))

namespace Scopes

def take (scopes : Scopes) : ScopeStep → Scopes
  | .enter => scopes.enter
  | .exit => scopes.exit
  | .declare name value line =>
    match scopes.declare name value line with
    | .ok declared => declared
    | .error _ => scopes

def after (scopes : Scopes) (steps : List ScopeStep) : Scopes := steps.foldl take scopes

end Scopes

structure Declaration where
  name : Text
  declared : Variable
  /-- How many frames are open inside the frame of the declaration; none once that is closed. -/
  inner? : Option Nat
  deriving DecidableEq, Repr

/-- The declarations that were made, the latest first. -/
abbrev History := List Declaration

namespace History

def resolve? (history : History) (name : Text) : Option Variable :=
  (history.find? fun made => made.inner?.isSome ∧ made.name = name).map (·.declared)

def local? (history : History) (name : Text) : Option Variable :=
  (history.find? fun made => made.inner? = some 0 ∧ made.name = name).map (·.declared)

def recount (history : History) (step : ScopeStep) : History :=
  history.map fun made => { made with inner? := step.countInner made.inner? }

/-- Remembers one step. A name is declared unless the innermost open frame has it. -/
def take (history : History) : ScopeStep → History
  | .enter => history.recount .enter
  | .exit => history.recount .exit
  | .declare name value line =>
    match history.local? name with
    | some _ => history
    | none => ⟨name, ⟨value, line⟩, some 0⟩ :: history

def after (steps : List ScopeStep) : History := steps.foldl take []

end History

end ScopedConfig
