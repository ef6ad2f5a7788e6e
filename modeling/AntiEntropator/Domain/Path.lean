import AntiEntropator.Domain.Observation

/-!
# Paths as bytes

A Unix path is any byte string; `components` reads it as the standard library
does, skipping repeated separators and inner `.`.  The catalog form of a file's
path is computed by stripping the root's components and joining the normal
components that are left.
-/

namespace AntiEntropator

inductive Component where
  | rootDir
  | curDir
  | parentDir
  | normal (name : OsString)
  deriving DecidableEq

def Component.normal? : Component → Option OsString
  | .normal name => some name
  | _ => none

namespace Path

/-- `Components::parse_single_component`: the empty piece and `.` are skipped. -/
def parseSingleComponent (piece : List UInt8) : Option Component :=
  if piece = [] ∨ piece = [0x2E] then none
  else if piece = [0x2E, 0x2E] then some .parentDir
  else some (.normal piece)

/-- `Components::include_cur_dir`: a leading `.` is kept. -/
def includeCurDir (path : List UInt8) : Bool :=
  match path.head?, path.tail.head? with
  | some 0x2E, none => true
  | some 0x2E, some byte => byte = 0x2F
  | _, _ => false

/-- What precedes the body of a path. -/
def start (path : List UInt8) : List Component :=
  if path.head? = some 0x2F then [.rootDir]
  else if includeCurDir path then [.curDir]
  else []

def components (path : List UInt8) : List Component :=
  start path ++ (path.splitOn 0x2F).filterMap parseSingleComponent

/-- `Path::join`: an absolute name replaces the path. -/
def join (path name : List UInt8) : List UInt8 :=
  if name.head? = some 0x2F then name
  else if path = [] ∨ path.getLast? = some 0x2F then path ++ name
  else path ++ 0x2F :: name

/-- `Path::strip_prefix`, as the components of the remaining path. -/
def stripPrefix? (path base : List UInt8) : Option (List Component) :=
  if components base <+: components path then
    some ((components path).drop (components base).length)
  else none

/-- `normalize_relative_path`, from the components of the path. -/
def normalize (relative : List Component) : Except NonUtf8Path String :=
  normalizeRelativePath (relative.filterMap Component.normal?)

/-- The path identity relative to the ingest root, as `prepare_file` computes it. -/
def relativePath (path root : List UInt8) : Except NonUtf8Path String :=
  normalize ((stripPrefix? path root).getD (components path))

/-- The path a walk reports for the entry it reaches through `names`. -/
def walked (root : List UInt8) (names : List OsString) : List UInt8 := names.foldl join root

example : components (utf8Bytes "./a//b/./../c") =
    [.curDir, .normal [0x61], .normal [0x62], .parentDir, .normal [0x63]] := by decide

/-! ## The components of a walked path -/

theorem splitOn_append_slash (before after : List UInt8) :
    (before ++ 0x2F :: after).splitOn 0x2F = before.splitOn 0x2F ++ after.splitOn 0x2F := by
  simp only [List.splitOn_eq_splitOnP]
  exact List.splitOnP_append_cons before after (by decide)

theorem splitOn_of_plain {name : List UInt8} (plain : (0x2F : UInt8) ∉ name) :
    name.splitOn 0x2F = [name] := by
  rw [List.splitOn_eq_splitOnP]
  apply List.splitOnP_eq_singleton
  intro byte member
  exact beq_false_of_ne fun same => plain (same ▸ member)

theorem parse_of_normal {name : OsString} (normal : NormalComponent name) :
    parseSingleComponent name = some (.normal name) := by
  obtain ⟨nonempty, -, notDot, notDots⟩ := normal
  simp [parseSingleComponent, nonempty, notDot, notDots]

theorem head_of_normal {name : OsString} (normal : NormalComponent name) :
    name.head? ≠ some 0x2F := fun slash => normal.2.1 (List.mem_of_mem_head? slash)

theorem start_of_normal {name : OsString} (normal : NormalComponent name) : start name = [] := by
  have relative := head_of_normal normal
  have notCur : includeCurDir name = false := by
    obtain ⟨-, plain, notDot, -⟩ := normal
    match name with
    | [] => rfl
    | [first] =>
        have other : first ≠ 0x2E := fun dot => notDot (by rw [dot])
        simp [includeCurDir, other]
    | first :: second :: rest =>
        have other : second ≠ 0x2F := fun slash => plain (by simp [slash])
        by_cases dot : first = 0x2E
        · simp [includeCurDir, dot, other]
        · simp [includeCurDir, dot]
  simp [start, relative, notCur]

theorem start_append_slash {path : List UInt8} (nonempty : path ≠ []) (rest : List UInt8) :
    start (path ++ 0x2F :: rest) = start path := by
  match path with
  | [] => exact absurd rfl nonempty
  | [first] =>
      by_cases dot : first = 0x2E
      · subst dot
        rfl
      · simp [start, includeCurDir, dot]
  | first :: second :: more => rfl

theorem components_append_slash (before : List UInt8) {name : OsString}
    (normal : NormalComponent name) : components (before ++ 0x2F :: name) =
      components (before ++ [0x2F]) ++ [.normal name] := by
  have starts : start (before ++ 0x2F :: name) = start (before ++ [0x2F]) := by
    by_cases empty : before = []
    · subst empty
      rfl
    · rw [start_append_slash empty, start_append_slash empty]
  have trailing : parseSingleComponent [] = none := rfl
  simp [components, starts, splitOn_append_slash, trailing, splitOn_of_plain normal.2.1,
    parse_of_normal normal]

theorem components_join {path : List UInt8} {name : OsString} (normal : NormalComponent name) :
    components (join path name) = components path ++ [.normal name] := by
  have relative := head_of_normal normal
  have body : (name.splitOn 0x2F).filterMap parseSingleComponent = [.normal name] := by
    simp [splitOn_of_plain normal.2.1, parse_of_normal normal]
  by_cases empty : path = []
  · subst empty
    rw [join, if_neg relative, if_pos (.inl rfl), List.nil_append, components,
      start_of_normal normal, body]
    rfl
  · by_cases closed : path.getLast? = some 0x2F
    · -- the separator is there already
      obtain ⟨before, rfl⟩ := List.getLast?_eq_some_iff.mp closed
      rw [join, if_neg relative, if_pos (.inr closed), List.append_assoc, List.singleton_append]
      exact components_append_slash before normal
    · rw [join, if_neg relative, if_neg (by simp [empty, closed]), components, components,
        start_append_slash empty, splitOn_append_slash, List.filterMap_append, body,
        List.append_assoc]

theorem components_walked (root : List UInt8) {names : List OsString}
    (normal : ∀ name ∈ names, NormalComponent name) :
    components (walked root names) = components root ++ names.map .normal := by
  induction names generalizing root with
  | nil => simp [walked]
  | cons name rest inductionHypothesis =>
      obtain ⟨here, later⟩ := List.forall_mem_cons.mp normal
      have step := inductionHypothesis (join root name) later
      rw [components_join here] at step
      simpa [walked] using step

/-- Below the root, the identity is made of exactly the names the walk went through. -/
theorem relativePath_walked (root : List UInt8) {names : List OsString}
    (normal : ∀ name ∈ names, NormalComponent name) :
    relativePath (walked root names) root = normalizeRelativePath names := by
  have stripped : stripPrefix? (walked root names) root = some (names.map .normal) := by
    simp [stripPrefix?, components_walked root normal]
  have kept : (names.map Component.normal).filterMap Component.normal? = names := by
    rw [List.filterMap_map]
    exact List.filterMap_some
  simp [relativePath, normalize, stripped, kept]

end Path

def PathBuf.bytes (path : PathBuf) : List UInt8 := Path.walked [0x2F] path.components

/-- For canonical paths, the bytes and the components give one identity. -/
theorem relativePath_bytes {root path : PathBuf} (below : PathBuf.Below root path) :
    Path.relativePath path.bytes root.bytes = normalizeRelativePath (path.stripPrefix root) := by
  have split : path.bytes = Path.walked root.bytes (path.stripPrefix root) := by
    simp only [PathBuf.bytes, Path.walked, ← PathBuf.append_stripPrefix below, List.foldl_append]
  rw [split]
  exact Path.relativePath_walked root.bytes
    fun _ => PathBuf.normal_of_mem_stripPrefix below

/-! ## Identities and components -/

theorem normalizeRelativePath_eq_error_iff (names : List OsString) :
    (∃ error, normalizeRelativePath names = .error error) ↔
      ∃ name ∈ names, OsString.toStr? name = none := by
  have decoded : names.mapM OsString.toStr? = none ↔
      ∃ name ∈ names, OsString.toStr? name = none := by
    induction names with
    | nil => simp
    | cons name rest inductionHypothesis =>
        cases valid : OsString.toStr? name <;> cases others : rest.mapM OsString.toStr? <;>
          simp_all [List.mapM_cons]
  rw [← decoded]
  unfold normalizeRelativePath
  split
  next parts found => simp [found]
  next missing => simp [missing]

theorem splitOn_joinSlashBytes {names : List OsString} (nonempty : names ≠ [])
    (normal : ∀ name ∈ names, NormalComponent name) :
    (joinSlashBytes names).splitOn 0x2F = names := by
  induction names with
  | nil => exact absurd rfl nonempty
  | cons name rest inductionHypothesis =>
      obtain ⟨here, later⟩ := List.forall_mem_cons.mp normal
      cases rest with
      | nil => exact Path.splitOn_of_plain here.2.1
      | cons next others =>
          rw [joinSlashBytes, Path.splitOn_append_slash, Path.splitOn_of_plain here.2.1,
            inductionHypothesis (by simp) later, List.singleton_append]

/-- Text whose pieces between separators are all nonempty neither starts nor
ends with a separator. -/
theorem closed_of_splitOn {text : List UInt8} {names : List OsString}
    (pieces : text.splitOn 0x2F = names) (normal : ∀ name ∈ names, NormalComponent name) :
    text.head? ≠ some 0x2F ∧ text.getLast? ≠ some 0x2F := by
  have nonempty : [] ∉ names := fun member => (normal [] member).1 rfl
  constructor
  · intro leading
    obtain ⟨rest, rfl⟩ := List.head?_eq_some_iff.mp leading
    have split := Path.splitOn_append_slash [] rest
    rw [List.nil_append] at split
    apply nonempty
    rw [← pieces, split, List.splitOn_nil]
    exact List.mem_append_left _ (List.mem_singleton_self _)
  · intro trailing
    obtain ⟨before, rfl⟩ := List.getLast?_eq_some_iff.mp trailing
    apply nonempty
    rw [← pieces, Path.splitOn_append_slash, List.splitOn_nil]
    exact List.mem_append_right _ (List.mem_singleton_self _)

/-- Below any root, a path has no identity exactly when a component is not valid
UTF-8, its identity splits into its components, and no other path shares it. -/
theorem paths_never_collapse (root : List UInt8) {names : List OsString} (below : names ≠ [])
    (normal : ∀ name ∈ names, NormalComponent name) :
    ((∃ error, Path.relativePath (Path.walked root names) root = .error error) ↔
      ∃ name ∈ names, OsString.toStr? name = none) ∧
    ∀ text, Path.relativePath (Path.walked root names) root = .ok text →
      (utf8Bytes text).splitOn 0x2F = names ∧
      (utf8Bytes text).head? ≠ some 0x2F ∧ (utf8Bytes text).getLast? ≠ some 0x2F ∧
      ∀ others : List OsString, (∀ name ∈ others, NormalComponent name) →
        Path.walked root others ≠ Path.walked root names →
        Path.relativePath (Path.walked root others) root ≠ .ok text := by
  rw [Path.relativePath_walked root normal]
  refine ⟨normalizeRelativePath_eq_error_iff names, ?_⟩
  intro text normalized
  have pieces : (utf8Bytes text).splitOn 0x2F = names := by
    rw [utf8Bytes_normalizeRelativePath normalized]
    exact splitOn_joinSlashBytes below normal
  obtain ⟨leading, trailing⟩ := closed_of_splitOn pieces normal
  refine ⟨pieces, leading, trailing, ?_⟩
  intro others othersNormal distinct shared
  rw [Path.relativePath_walked root othersNormal] at shared
  apply distinct
  rw [normalizeRelativePath_injective othersNormal normal shared normalized]

/-- A name a lossy conversion would merge with others has no identity at all. -/
theorem paths_never_collapse_invalid :
    ∃ error, Path.relativePath (Path.walked (utf8Bytes "/data") [[0x61, 0xFF]])
      (utf8Bytes "/data") = .error error := by
  apply (paths_never_collapse (utf8Bytes "/data") (by decide : [[(0x61 : UInt8), 0xFF]] ≠ [])
    (by decide)).1.mpr
  exact ⟨[0x61, 0xFF], by decide, by decide⟩

end AntiEntropator
