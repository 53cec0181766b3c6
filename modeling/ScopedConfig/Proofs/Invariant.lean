import ScopedConfig.Proofs.Steps

/-!
What holds between any two lines of a text: there is one frame of variables for each open group and
one for the text, every open group and every value that is being read has a name that is still free,
and every group gets its place among the entries before it.
-/

namespace ScopedConfig

namespace State

structure Sound (state : State) : Prop where
  frames : state.scopes.frames.length = state.outer.length + 1
  opened : ∀ group ∈ state.outer, group.before.contains group.name = false
  awaited : ∀ pending ∈ state.pending,
    state.checkNew pending.target pending.name pending.line = .ok ()

variable {state next : State}

theorem sound_start : start.Sound := by
  refine ⟨rfl, ?_, ?_⟩
  · intro group member
    exact absurd member List.not_mem_nil
  · intro pending member
    exact absurd member (by simp [start])

theorem Sound.openGroup (sound : state.Sound) (name : Text)
    (fresh : state.entries.contains name = false) : (state.openGroup name).Sound := by
  constructor
  · simp [State.openGroup, Scopes.enter, sound.frames]
  · intro group member
    rcases List.mem_cons.mp member with rfl | member
    · exact fresh
    · exact sound.opened group member
  · intro pending member
    exact absurd member (by simp [State.openGroup])

theorem Sound.closeGroup (sound : state.Sound) (line : Nat)
    (closed : state.closeGroup line = .ok next) : next.Sound := by
  obtain ⟨group, outer, inside, rfl⟩ := closeGroup_cases closed
  have frames := sound.frames
  rw [inside] at frames
  constructor
  · simpa [Scopes.exit] using frames
  · intro other member
    exact sound.opened other (by rw [inside]; exact List.mem_cons_of_mem group member)
  · intro pending member
    exact absurd member (by simp)

theorem Sound.settle (sound : state.Sound) (pending : Pending)
    (free : state.checkNew pending.target pending.name pending.line = .ok ())
    (settled : state.settle pending = .ok next) : next.Sound := by
  unfold State.settle at settled
  split at settled
  · cases settled
    refine ⟨sound.frames, sound.opened, ?_⟩
    intro other member
    obtain rfl : pending = other := by simpa using member
    exact free
  · obtain ⟨value, -, assigned⟩ := assign_cases settled
    rcases assigned with ⟨-, rfl⟩ | ⟨-, -, rfl⟩
    · exact ⟨sound.frames, sound.opened, fun other member => absurd member (by simp)⟩
    · refine ⟨?_, sound.opened, fun other member => absurd member (by simp)⟩
      simp [Scopes.extend, sound.frames]

theorem Sound.step (sound : state.Sound) (line : Line) (stepped : state.step line = .ok next) :
    next.Sound := by
  cases reading : state.pending with
  | none =>
    simp only [State.step, reading] at stepped
    rcases begin_cases stepped with ⟨-, closed⟩ | ⟨name, -, fresh, rfl⟩ |
      ⟨target, name, rest, segment, -, free, -, settled⟩
    · exact sound.closeGroup line.number closed
    · exact sound.openGroup name fresh
    · exact sound.settle _ free settled
  | some pending =>
    rw [step_pending reading] at stepped
    obtain ⟨segment, -, settled⟩ := bind_eq_ok.mp stepped
    exact sound.settle { pending with segment } (sound.awaited pending reading) settled

theorem Sound.run (sound : state.Sound) (lines : List Line) (ran : state.run lines = .ok next) :
    next.Sound := by
  induction lines generalizing state with
  | nil =>
    cases ran
    exact sound
  | cons line lines ih =>
    rw [run_cons] at ran
    obtain ⟨between, stepped, ran⟩ := bind_eq_ok.mp ran
    exact ih (sound.step line stepped) ran

end State

end ScopedConfig
