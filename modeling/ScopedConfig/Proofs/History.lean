import ScopedConfig.Scopes.History

/-!
The frames against the flat history. The declarations of the history whose frames are open are the
entries of the frames, from the innermost outwards; so an inner declaration is always later than an
outer one, and looking a name up in the frames finds the latest declaration that is still open.
-/

namespace ScopedConfig

def Frame.declarations (inner? : Option Nat) (frame : Frame) : History :=
  frame.map fun entry => ⟨entry.1, entry.2, inner?⟩

def Scopes.declarations : Nat → List Frame → History
  | _, [] => []
  | inner, frame :: frames =>
    Frame.declarations (some inner) frame ++ declarations (inner + 1) frames

namespace History

def live (history : History) : History := history.filter (·.inner?.isSome)

/-- The open declarations of the history are the entries of the frames, in the same order. -/
def Remembers (history : History) (scopes : Scopes) : Prop :=
  history.live = Scopes.declarations 0 scopes.frames

theorem live_append (later earlier : History) :
    History.live (later ++ earlier) = later.live ++ earlier.live :=
  List.filter_append later earlier

theorem recount_append (later earlier : History) (step : ScopeStep) :
    History.recount (later ++ earlier) step = later.recount step ++ earlier.recount step :=
  List.map_append

theorem recount_frame (frame : Frame) (inner? : Option Nat) (step : ScopeStep) :
    (frame.declarations inner?).recount step = frame.declarations (step.countInner inner?) := by
  simp [Frame.declarations, recount]

theorem live_open (frame : Frame) (inner : Nat) :
    (frame.declarations (some inner)).live = frame.declarations (some inner) := by
  apply List.filter_eq_self.mpr
  intro made member
  obtain ⟨entry, -, rfl⟩ := List.mem_map.mp member
  rfl

theorem live_closed (frame : Frame) : (frame.declarations none).live = [] := by
  simp [Frame.declarations, live, List.filter_map, Function.comp_def]

theorem live_recount (history : History) (step : ScopeStep) :
    (history.recount step).live = (history.live.recount step).live := by
  have closed : step.countInner none = none := by cases step <;> rfl
  induction history with
  | nil => rfl
  | cons made history ih =>
    obtain ⟨name, declared, inner?⟩ := made
    simp only [live, recount] at ih
    cases inner? with
    | none => simp [live, recount, closed, ih]
    | some inner => simp [live, recount, List.filter_cons, ih]

theorem live_enter (inner : Nat) (frames : List Frame) :
    ((Scopes.declarations inner frames).recount .enter).live =
      Scopes.declarations (inner + 1) frames := by
  induction frames generalizing inner with
  | nil => rfl
  | cons frame frames ih =>
    rw [Scopes.declarations, recount_append, live_append, recount_frame, ih]
    exact congrArg (· ++ _) (live_open frame (inner + 1))

theorem live_exit (inner : Nat) (frames : List Frame) :
    ((Scopes.declarations (inner + 1) frames).recount .exit).live =
      Scopes.declarations inner frames := by
  induction frames generalizing inner with
  | nil => rfl
  | cons frame frames ih =>
    rw [Scopes.declarations, recount_append, live_append, recount_frame, ih]
    exact congrArg (· ++ _) (live_open frame inner)

variable {history : History} {scopes : Scopes}

theorem Remembers.enter (remembers : history.Remembers scopes) :
    (history.take .enter).Remembers scopes.enter := by
  rw [Remembers, take, live_recount, remembers, live_enter]
  rfl

theorem Remembers.exit (remembers : history.Remembers scopes) :
    (history.take .exit).Remembers scopes.exit := by
  rw [Remembers, take, live_recount, remembers]
  obtain ⟨frames⟩ := scopes
  cases frames with
  | nil => rfl
  | cons frame frames =>
    rw [Scopes.declarations, recount_append, live_append, recount_frame, live_exit]
    exact congrArg (· ++ _) (live_closed frame)

theorem Remembers.extend (remembers : history.Remembers scopes) (name : Text)
    (declared : Variable) :
    History.Remembers (⟨name, declared, some 0⟩ :: history) (scopes.extend name declared) := by
  have head : History.live (⟨name, declared, some 0⟩ :: history) =
      ⟨name, declared, some 0⟩ :: history.live := rfl
  rw [Remembers, head, remembers]
  obtain ⟨frames⟩ := scopes
  cases frames <;> rfl

theorem find?_frame (name : Text) (frame : Frame) (inner? : Option Nat) :
    ((frame.declarations inner?).find? (·.name = name)).map (·.declared) = frame.lookup name := by
  induction frame with
  | nil => rfl
  | cons entry frame ih =>
    rw [List.lookup_cons]
    by_cases same : entry.1 = name
    · simp [Frame.declarations, same]
    · rw [beq_false_of_ne (Ne.symm same), ← ih]
      simp [Frame.declarations, same]

theorem find?_declarations (name : Text) (inner : Nat) (frames : List Frame) :
    ((Scopes.declarations inner frames).find? (·.name = name)).map (·.declared) =
      frames.findSome? (·.lookup name) := by
  induction frames generalizing inner with
  | nil => rfl
  | cons frame frames ih =>
    rw [Scopes.declarations, List.find?_append, List.findSome?_cons,
      ← find?_frame name frame (some inner), ← ih (inner + 1)]
    cases (frame.declarations (some inner)).find? (·.name = name) <;> rfl

theorem Remembers.resolve?_eq (remembers : history.Remembers scopes) (name : Text) :
    scopes.resolve? name = history.resolve? name := by
  have latest := find?_declarations name 0 scopes.frames
  rw [← remembers, live, List.find?_filter] at latest
  rw [Scopes.resolve?, ← latest, resolve?]
  simp only [decide_eq_true_eq]

theorem find?_outside (name : Text) (inner : Nat) (frames : List Frame) :
    (Scopes.declarations (inner + 1) frames).find?
      (fun made => made.inner? = some 0 ∧ made.name = name) = none := by
  induction frames generalizing inner with
  | nil => rfl
  | cons frame frames ih =>
    rw [Scopes.declarations, List.find?_append, ih (inner + 1), Option.or_none]
    simp [Frame.declarations]

theorem Remembers.local?_eq (remembers : history.Remembers scopes) (name : Text) :
    scopes.local? name = history.local? name := by
  have kept : history.local? name = (history.live.find? fun made =>
      made.inner? = some 0 ∧ made.name = name).map (·.declared) := by
    rw [local?, live, List.find?_filter]
    congr 2
    funext made
    cases made.inner? <;> simp
  rw [kept, remembers]
  obtain ⟨frames⟩ := scopes
  cases frames with
  | nil => rfl
  | cons frame frames =>
    rw [Scopes.declarations, List.find?_append, find?_outside, Option.or_none]
    have inside := find?_frame name frame (some 0)
    simp [Frame.declarations, List.find?_map, Function.comp_def] at inside ⊢
    exact inside.symm

theorem Remembers.take (remembers : history.Remembers scopes) (step : ScopeStep) :
    (history.take step).Remembers (scopes.take step) := by
  cases step with
  | enter => exact remembers.enter
  | exit => exact remembers.exit
  | declare name value line =>
    have same := remembers.local?_eq name
    cases found : history.local? name with
    | some first =>
      rw [found] at same
      simpa [History.take, Scopes.take, Scopes.declare, found, same] using remembers
    | none =>
      rw [found] at same
      simpa [History.take, Scopes.take, Scopes.declare, found, same] using
        remembers.extend name ⟨value, line⟩

theorem remembers_after (steps : List ScopeStep) :
    (History.after steps).Remembers (Scopes.empty.after steps) := by
  have run (history : History) (scopes : Scopes) (remembers : history.Remembers scopes) :
      (steps.foldl History.take history).Remembers (scopes.after steps) := by
    induction steps generalizing history scopes with
    | nil => exact remembers
    | cons step steps ih => exact ih _ _ (remembers.take step)
  exact run [] Scopes.empty rfl

end History

namespace Scopes

theorem after_cons (scopes : Scopes) (step : ScopeStep) (steps : List ScopeStep) :
    scopes.after (step :: steps) = (scopes.take step).after steps := rfl

theorem after_append (scopes : Scopes) (first second : List ScopeStep) :
    scopes.after (first ++ second) = (scopes.after first).after second :=
  List.foldl_append

theorem declare_taken (scopes : Scopes) (name value : Text) (line : Nat) (first : Variable)
    (found : scopes.local? name = some first) :
    scopes.declare name value line = .error first.line := by
  rw [declare, found]

theorem resolve?_extend_same (scopes : Scopes) (name : Text) (declared : Variable) :
    (scopes.extend name declared).resolve? name = some declared := by
  simp [extend, resolve?]

theorem resolve?_extend_other (scopes : Scopes) (name other : Text) (declared : Variable)
    (different : other ≠ name) :
    (scopes.extend name declared).resolve? other = scopes.resolve? other := by
  obtain ⟨frames⟩ := scopes
  have elsewhere : (other == name) = false := beq_false_of_ne different
  cases frames with
  | nil => simp [extend, resolve?, innermost, List.lookup_cons, elsewhere]
  | cons frame frames =>
    simp [extend, resolve?, innermost, List.findSome?_cons, List.lookup_cons, elsewhere]

theorem countInner_closed (steps : List ScopeStep) :
    steps.foldl ScopeStep.countInner none = none := by
  induction steps with
  | nil => rfl
  | cons step steps ih => cases step <;> exact ih

/-- As long as a frame stays open, the frames around it are not touched. The frame is the last of
`inside`, so that there are as many frames inside it as come before it. -/
theorem frames_around (steps : List ScopeStep) (inside around : List Frame) (count : Nat)
    (open_ : steps.foldl ScopeStep.countInner (some (inside.length - 1)) = some count)
    (nonempty : inside ≠ []) :
    ∃ left : List Frame, (after ⟨inside ++ around⟩ steps).frames = left ++ around ∧
      left.length = count + 1 := by
  induction steps generalizing inside with
  | nil =>
    have size := List.length_pos_iff.mpr nonempty
    have same : inside.length - 1 = count := Option.some.inj open_
    exact ⟨inside, rfl, by omega⟩
  | cons step steps ih =>
    obtain ⟨frame, frames, rfl⟩ := List.exists_cons_of_ne_nil nonempty
    cases step with
    | enter => exact ih ([] :: frame :: frames) open_ (List.cons_ne_nil _ _)
    | exit =>
      cases frames with
      | nil =>
        have closed : steps.foldl ScopeStep.countInner none = some count := open_
        rw [countInner_closed] at closed
        contradiction
      | cons next frames => exact ih (next :: frames) open_ (List.cons_ne_nil _ _)
    | declare name value line =>
      rw [after_cons]
      have taken : ∃ grown : Frame,
          take ⟨frame :: frames ++ around⟩ (.declare name value line) =
            ⟨grown :: frames ++ around⟩ := by
        simp only [take]
        cases found : local? ⟨frame :: frames ++ around⟩ name with
        | some first => exact ⟨frame, by rw [declare_taken _ _ _ _ first found]⟩
        | none => exact ⟨_, by rw [declare_new _ _ _ _ found]; rfl⟩
      obtain ⟨grown, same⟩ := taken
      rw [same]
      exact ih (grown :: frames) open_ (List.cons_ne_nil _ _)

theorem after_block (scopes : Scopes) (block : List ScopeStep) (balanced : Balanced block) :
    scopes.after (.enter :: (block ++ [.exit])) = scopes := by
  obtain ⟨left, frames, size⟩ :=
    frames_around block [[]] scopes.frames 0 balanced (List.cons_ne_nil _ _)
  obtain ⟨own, rfl⟩ := List.length_eq_one_iff.mp size
  have entered : scopes.take .enter = ⟨[[]] ++ scopes.frames⟩ := rfl
  have left : ((scopes.take .enter).after block).exit = scopes := by
    rw [exit, entered, frames]
    rfl
  rw [after_cons, after_append]
  exact left

/-- The frames refine the flat history. After any steps, looking a name up finds the latest of its
declarations whose frame is open, and looking it up in the innermost frame the latest of those made
there. A declaration is refused if the innermost frame has the name, and changes nothing then; if it
is made, no other name is affected. Whatever is done between a frame's opening and its closing, the
frames are as they were before. -/
theorem frames_refine_history :
    (∀ (steps : List ScopeStep) (name : Text),
      (empty.after steps).resolve? name = (History.after steps).resolve? name ∧
      (empty.after steps).local? name = (History.after steps).local? name) ∧
    (∀ (scopes : Scopes) (name value : Text) (line : Nat),
      (∀ first, scopes.local? name = some first →
        scopes.declare name value line = .error first.line ∧
        scopes.take (.declare name value line) = scopes) ∧
      (scopes.local? name = none → ∃ declared, scopes.declare name value line = .ok declared ∧
        scopes.take (.declare name value line) = declared ∧
        declared.resolve? name = some ⟨value, line⟩ ∧
        ∀ other, other ≠ name → declared.resolve? other = scopes.resolve? other)) ∧
    ∀ (scopes : Scopes) (block : List ScopeStep), Balanced block →
      scopes.after (.enter :: (block ++ [.exit])) = scopes := by
  refine ⟨?_, ?_, after_block⟩
  · intro steps name
    have remembers := History.remembers_after steps
    exact ⟨remembers.resolve?_eq name, remembers.local?_eq name⟩
  · intro scopes name value line
    constructor
    · intro first found
      have refused := declare_taken scopes name value line first found
      exact ⟨refused, by rw [take, refused]⟩
    · intro fresh
      have made := declare_new scopes name value line fresh
      refine ⟨_, made, by rw [take, made], resolve?_extend_same scopes name _, ?_⟩
      intro other different
      exact resolve?_extend_other scopes name other _ different

/-- A first declaration that opens a frame, one that hides it in an inner frame and one that is
refused there, and more frames closed than were opened. -/
theorem frames_refine_history_hidden :
    let outer : List ScopeStep := [.exit, .declare ['x'] ['a'] 1]
    let block : List ScopeStep := [.declare ['x'] ['b'] 2, .enter, .declare ['y'] ['c'] 3, .exit,
      .declare ['x'] ['d'] 4]
    let inner := empty.after (outer ++ .enter :: block)
    inner.resolve? ['x'] = some ⟨['b'], 2⟩ ∧ inner.declare ['x'] ['d'] 4 = .error 2 ∧
      (∃ declared, inner.declare ['y'] ['e'] 5 = .ok declared ∧
        declared.resolve? ['x'] = some ⟨['b'], 2⟩) ∧
      (empty.after outer).after (.enter :: (block ++ [.exit])) = empty.after outer ∧
      (empty.after (outer ++ .enter :: block ++ [.exit, .exit])).resolve? ['x'] = none := by
  intro outer block inner
  obtain ⟨history, declaring, blocks⟩ := frames_refine_history
  have hidden : inner.resolve? ['x'] = some ⟨['b'], 2⟩ := (history _ ['x']).1.trans (by decide)
  obtain ⟨declared, made, -, -, others⟩ := (declaring inner ['y'] ['e'] 5).2 (by decide)
  refine ⟨hidden, ?_, ?_, ?_, ?_⟩
  · exact ((declaring inner ['x'] ['d'] 4).1 ⟨['b'], 2⟩ (by decide)).1
  · exact ⟨declared, made, (others ['x'] (by decide)).trans hidden⟩
  · exact blocks (empty.after outer) block (by decide)
  · exact (history _ ['x']).1.trans (by decide)

end Scopes

end ScopedConfig
