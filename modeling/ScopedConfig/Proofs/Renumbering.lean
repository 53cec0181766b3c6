import ScopedConfig.Proofs.Simulation

namespace ScopedConfig

abbrev Frame.Alike (same : Nat → Nat → Prop) : Frame → Frame → Prop :=
  List.Forall₂ fun entry entry' => entry.1 = entry'.1 ∧ Variable.Alike same entry.2 entry'.2

def Scopes.Alike (same : Nat → Nat → Prop) (left right : Scopes) : Prop :=
  List.Forall₂ (Frame.Alike same) left.frames right.frames

variable {same : Nat → Nat → Prop}

theorem Frame.Alike.lookup {left right : Frame} (frames : Frame.Alike same left right)
    (name : Text) : Option.Rel (Variable.Alike same) (left.lookup name) (right.lookup name) := by
  induction frames with
  | nil => exact .none
  | @cons entry entry' left right first later ih =>
    obtain ⟨other, declared⟩ := entry
    obtain ⟨other', declared'⟩ := entry'
    obtain ⟨sameName, declarations⟩ := first
    obtain rfl : other = other' := sameName
    rw [List.lookup_cons, List.lookup_cons]
    cases name == other with
    | true => exact .some declarations
    | false => exact ih

namespace Scopes.Alike

variable {left right : Scopes}

theorem resolve? (scopes : Scopes.Alike same left right) (name : Text) :
    Option.Rel (Variable.Alike same) (left.resolve? name) (right.resolve? name) := by
  obtain ⟨frames⟩ := left
  obtain ⟨frames'⟩ := right
  have alike : List.Forall₂ (Frame.Alike same) frames frames' := scopes
  rw [Scopes.resolve?, Scopes.resolve?]
  clear scopes
  induction alike with
  | nil => exact .none
  | @cons frame frame' frames frames' first later ih =>
    rw [List.findSome?_cons, List.findSome?_cons]
    have found := first.lookup name
    generalize frame.lookup name = declared, frame'.lookup name = declared' at found ⊢
    cases found with
    | none => exact ih
    | some declarations => exact .some declarations

theorem innermost (scopes : Scopes.Alike same left right) :
    Frame.Alike same left.innermost right.innermost := by
  obtain ⟨frames⟩ := left
  obtain ⟨frames'⟩ := right
  have alike : List.Forall₂ (Frame.Alike same) frames frames' := scopes
  cases alike with
  | nil => exact .nil
  | cons first later => exact first

theorem local? (scopes : Scopes.Alike same left right) (name : Text) :
    Option.Rel (Variable.Alike same) (left.local? name) (right.local? name) :=
  scopes.innermost.lookup name

theorem enter (scopes : Scopes.Alike same left right) :
    Scopes.Alike same left.enter right.enter :=
  .cons .nil scopes

theorem exit (scopes : Scopes.Alike same left right) : Scopes.Alike same left.exit right.exit := by
  obtain ⟨frames⟩ := left
  obtain ⟨frames'⟩ := right
  have alike : List.Forall₂ (Frame.Alike same) frames frames' := scopes
  cases alike with
  | nil => exact .nil
  | cons first later => exact later

theorem extend (scopes : Scopes.Alike same left right) (name value : Text) {line line' : Nat}
    (lines : same line line') :
    Scopes.Alike same (left.extend name ⟨value, line⟩) (right.extend name ⟨value, line'⟩) :=
  .cons (.cons ⟨rfl, rfl, lines⟩ scopes.innermost) scopes.exit

end Scopes.Alike

/-- States that are the same but for the lines of declarations. -/
structure State.Renumbered (same : Nat → Nat → Prop) (left right : State) : Prop where
  scopes : Scopes.Alike same left.scopes right.scopes
  outer : left.outer = right.outer
  entries : left.entries = right.entries

theorem renumbered_start : State.Renumbered same .start .start := ⟨.cons .nil .nil, rfl, rfl⟩

theorem renumbering (same : Correspondence) (paths : ∀ path, same.path path path) :
    Simulation same (State.Renumbered same.line) where
  pending relation _ _ := ⟨relation.scopes, relation.outer, relation.entries⟩
  qualified relation name := by
    rw [State.qualified, State.qualified, State.path, State.path, relation.outer]
    exact paths _
  contains relation name := by rw [relation.entries]
  local? relation := relation.scopes.local?
  resolve? relation := relation.scopes.resolve?
  opened relation name _ := by
    refine ⟨relation.scopes.enter, ?_, rfl⟩
    rw [State.openGroup, State.openGroup, relation.outer, relation.entries]
  closed relation _ _ _ lines := by
    rw [State.closeGroup, State.closeGroup, ← relation.outer, ← relation.entries]
    split
    · exact .error (.strayClose lines)
    · exact .ok ⟨relation.scopes.exit, rfl, rfl⟩
  inserted relation name value _ := ⟨relation.scopes, relation.outer, by rw [relation.entries]⟩
  declared relation name value _ _ lines :=
    ⟨relation.scopes.extend name value lines, relation.outer, relation.entries⟩

end ScopedConfig
