import ScopedConfig.Proofs.Fallback

/-!
Paths that start at the home directory. Expansion puts the home directory in front of what follows
the `~` and its slashes; it never leads out of the home directory by an absolute path, and a file is
loaded as if its path had been written out.
-/

namespace ScopedConfig

theorem isIdle_iff (component : Text) :
    isIdle component = true ↔ component = [] ∨ component = ['.'] := by
  simp [isIdle]

theorem splitOn_slash_cons (path : Text) :
    ('/' :: path).splitOn '/' = [] :: path.splitOn '/' :=
  List.splitOn_append_cons_self [] path

theorem trimPath_slashes (slashes : Nat) (path : Text) :
    trimPath (List.replicate slashes '/' ++ path) = trimPath path := by
  induction slashes with
  | zero => rfl
  | succ slashes ih =>
    rw [List.replicate_succ, List.cons_append, trimPath, splitOn_slash_cons,
      List.dropWhile_cons_of_pos rfl, ← ih, trimPath]

theorem dropWhile_isIdle {components : List Text}
    (proper : ∀ component ∈ components, ¬ isIdle component = true) :
    components.dropWhile isIdle = components :=
  List.dropWhile_eq_self_iff.mpr fun nonempty => proper _ (List.getElem_mem nonempty)

theorem trimPath_of_proper {path : Text}
    (proper : ∀ component ∈ path.splitOn '/', ¬ isIdle component = true) : trimPath path = path := by
  have reversed : ∀ component ∈ (path.splitOn '/').reverse, ¬ isIdle component = true :=
    fun component member => proper component (List.mem_reverse.mp member)
  rw [trimPath, dropWhile_isIdle proper, dropWhile_isIdle reversed, List.reverse_reverse,
    List.intercalate_splitOn]

/-- A trimmed path does not start at the root. -/
theorem trimPath_relative (path : Text) : (trimPath path).head? ≠ some '/' := by
  have first := List.head?_dropWhile_not isIdle (path.splitOn '/')
  have member := (List.dropWhile_suffix isIdle (l := path.splitOn '/')).subset
  rw [trimPath]
  generalize (path.splitOn '/').dropWhile isIdle = components at first member
  have kept : (components.reverse.dropWhile isIdle).reverse <+: components := by
    have suffix := List.dropWhile_suffix (l := components.reverse) isIdle
    have reversed := List.reverse_prefix.mpr suffix
    rwa [List.reverse_reverse] at reversed
  cases shape : (components.reverse.dropWhile isIdle).reverse with
  | nil => simp
  | cons component others =>
    obtain ⟨dropped, whole⟩ := kept
    rw [shape, List.cons_append] at whole
    rw [← whole] at first member
    have plain : '/' ∉ component :=
      splitOn_free '/' path component (member List.mem_cons_self)
    cases component with
    | nil => simp [isIdle] at first
    | cons c rest =>
      have different : c ≠ '/' := fun same => plain (same ▸ List.mem_cons_self)
      cases others <;> simpa [List.intercalate_cons_cons] using different

theorem head?_splitOn_slash (path : Text) :
    (path.splitOn '/').head? = some ['~'] ↔ path = ['~'] ∨ ['~', '/'] <+: path := by
  constructor
  · intro first
    obtain ⟨others, shape⟩ : ∃ others, path.splitOn '/' = ['~'] :: others :=
      List.head?_eq_some_iff.mp first
    have whole : ['/'].intercalate (path.splitOn '/') = path := List.intercalate_splitOn '/'
    rw [shape] at whole
    cases others with
    | nil => exact Or.inl whole.symm
    | cons second others =>
      refine Or.inr ⟨['/'].intercalate (second :: others), ?_⟩
      rw [← whole, List.intercalate_cons_cons]
      rfl
  · rintro (rfl | ⟨rest, rfl⟩)
    · decide
    · rw [List.cons_append, List.cons_append, List.nil_append]
      exact congrArg List.head? (List.splitOn_append_cons_self ['~'] rest)

section Expansion

variable {home : Text}

theorem joinPath_relative {path : Text} (nonempty : home ≠ []) (unended : home.getLast? ≠ some '/')
    (relative : path.head? ≠ some '/') : joinPath home path = home ++ '/' :: path := by
  rw [joinPath, if_neg relative, if_neg (by simp [nonempty, unended])]

theorem expandHome_below (nonempty : home ≠ []) (unended : home.getLast? ≠ some '/') (rest : Text) :
    expandHome (some home) ('~' :: '/' :: rest) = .ok (home ++ '/' :: trimPath rest) :=
  congrArg Except.ok (joinPath_relative nonempty unended (trimPath_relative rest))

theorem expandHome_kept (home : Option Text) {path : Text}
    (other : ¬ (path = ['~'] ∨ ['~', '/'] <+: path)) : expandHome home path = .ok path := by
  rw [expandHome, (belowHome?_eq_none_iff path).mpr other]

theorem expandHome_inside (nonempty : home ≠ []) (unended : home.getLast? ≠ some '/') {path : Text}
    (start : path = ['~'] ∨ ['~', '/'] <+: path) :
    ∃ rest, expandHome (some home) path = .ok (home ++ '/' :: rest) := by
  rcases start with rfl | ⟨rest, rfl⟩
  · exact ⟨[], congrArg Except.ok (joinPath_relative nonempty unended (by simp))⟩
  · exact ⟨trimPath rest, expandHome_below nonempty unended rest⟩

theorem head?_splitOn_below (home rest : Text) :
    ((home ++ '/' :: rest).splitOn '/').head? = (home.splitOn '/').head? := by
  obtain ⟨first, others, shape⟩ := List.exists_cons_of_ne_nil (List.splitOn_ne_nil '/' home)
  rw [List.splitOn_append_cons_self, shape]
  rfl

theorem expandHome_ne_iff (nonempty : home ≠ []) (unended : home.getLast? ≠ some '/')
    (elsewhere : (home.splitOn '/').head? ≠ some ['~']) (path : Text) :
    expandHome (some home) path ≠ .ok path ↔ path = ['~'] ∨ ['~', '/'] <+: path := by
  constructor
  · intro rewritten
    by_contra other
    exact rewritten (expandHome_kept (some home) other)
  · intro start same
    obtain ⟨rest, expanded⟩ := expandHome_inside nonempty unended start
    -- The first component of the path is `~`, that of the expanded path is not.
    rw [expanded, Except.ok.injEq] at same
    rw [← head?_splitOn_slash, ← same, head?_splitOn_below] at start
    exact elsewhere start

theorem expandHome_slashes (nonempty : home ≠ []) (unended : home.getLast? ≠ some '/')
    {rest : Text} (proper : ∀ component ∈ rest.splitOn '/', component ≠ [] ∧ component ≠ ['.'])
    {slashes : Nat} (positive : 0 < slashes) :
    expandHome (some home) ('~' :: (List.replicate slashes '/' ++ rest)) =
      .ok (home ++ '/' :: rest) := by
  have kept : ∀ component ∈ rest.splitOn '/', ¬ isIdle component = true := by
    intro component member
    rw [isIdle_iff, not_or]
    exact proper component member
  obtain ⟨more, rfl⟩ := Nat.exists_eq_add_one.mpr positive
  rw [List.replicate_succ, List.cons_append, expandHome_below nonempty unended,
    trimPath_slashes, trimPath_of_proper kept]

end Expansion

theorem load_of_same_expansion {home : Option Text} {path other : Text} (files : Files)
    (same : expandHome home path = expandHome home other) :
    Config.load home files path = Config.load home files other := by
  rw [Config.load, Config.load, same]

/-- The paths that are rewritten are `~` and those that go on with a slash after it. They lead to a
place below the home directory, and a file below it is loaded with the same outcome whether its path
starts with `~` and any number of slashes or with the home directory itself. -/
theorem load_below_home {home : Text} (nonempty : home ≠ []) (unended : home.getLast? ≠ some '/')
    (elsewhere : (home.splitOn '/').head? ≠ some ['~']) :
    (∀ path, expandHome (some home) path ≠ .ok path ↔ path = ['~'] ∨ ['~', '/'] <+: path) ∧
    (∀ path, expandHome (some home) path ≠ .ok path →
      ∃ rest, expandHome (some home) path = .ok (home ++ '/' :: rest)) ∧
    ∀ rest, (∀ component ∈ rest.splitOn '/', component ≠ [] ∧ component ≠ ['.']) →
      ∀ files slashes, 0 < slashes →
        expandHome (some home) ('~' :: (List.replicate slashes '/' ++ rest)) =
          .ok (home ++ '/' :: rest) ∧
        Config.load (some home) files ('~' :: (List.replicate slashes '/' ++ rest)) =
          Config.load (some home) files (home ++ '/' :: rest) := by
  have rewritten := expandHome_ne_iff nonempty unended elsewhere
  refine ⟨rewritten, fun path changed => ?_, fun rest proper files slashes positive => ?_⟩
  · exact expandHome_inside nonempty unended ((rewritten path).mp changed)
  · have expanded := expandHome_slashes nonempty unended proper positive
    refine ⟨expanded, load_of_same_expansion files ?_⟩
    -- The path that is written out is not expanded once more.
    have other : ¬ (home ++ '/' :: rest = ['~'] ∨ ['~', '/'] <+: home ++ '/' :: rest) := by
      rw [← head?_splitOn_slash, head?_splitOn_below]
      exact elsewhere
    rw [expanded, expandHome_kept (some home) other]

theorem load_below_home_faulty :
    let home := "/h".toList
    let files : Files := fun path =>
      if path = "/h/a/..".toList then some (.file (encodeText "k = 'v".toList)) else none
    Config.load (some home) files "~//a/..".toList =
        .error (.inFile "/h/a/..".toList (.parse (.unmatchedQuote '\x27' 1))) ∧
      expandHome (some home) "~user/x".toList = .ok "~user/x".toList ∧
      expandHome (some home) "./~/x".toList = .ok "./~/x".toList := by
  intro home files
  obtain ⟨rewritten, -, same⟩ := load_below_home (show home ≠ [] by decide)
    (by decide) (by decide)
  refine ⟨?_, ?_, ?_⟩
  · obtain ⟨-, loaded⟩ := same "a/..".toList (by decide) files 2 (by decide)
    have faulty : Config.loadFile files "/h/a/..".toList =
        .error (.inFile "/h/a/..".toList (.parse (.unmatchedQuote '\x27' 1))) :=
      (Config.loadFile_faulty_iff _ _).mpr
        ⟨rfl, "k = 'v".toList, .unmatchedQuote '\x27' 1, rfl, by decide +kernel, rfl⟩
    exact loaded.trans faulty
  · exact not_not.mp fun changed => absurd ((rewritten _).mp changed) (by decide)
  · exact not_not.mp fun changed => absurd ((rewritten _).mp changed) (by decide)

end ScopedConfig
