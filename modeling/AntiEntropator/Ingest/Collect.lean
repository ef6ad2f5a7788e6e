import AntiEntropator.Domain.Category
import AntiEntropator.Domain.Error
import AntiEntropator.Domain.Walk

/-!
# Collecting files

Which regular files of a walk an ingest takes (`collect_files` in
src/ingest/mod.rs): the glob patterns are compiled first, then one loop applies
the filters and stops at the limit.  The limit is looked at after a file was
taken.
-/

namespace AntiEntropator.Ingest

/-- `glob::Pattern::new`, and what the pattern matches. -/
structure Glob where
  compile : String → Except String (String → Bool)

def Glob.matches (glob : Glob) (pattern filename : String) : Bool :=
  match glob.compile pattern with
  | .ok matcher => matcher filename
  | .error _ => false

structure IngestArgs where
  includes : List String
  excludes : List String
  types : List String
  maxSize : Option UInt64
  limit : Option Nat

/-- The arguments after parsing. -/
structure Filters where
  excludePatterns : List (String → Bool)
  includePatterns : List (String → Bool)
  typeFilter : Option (List String)
  maxSize : Option UInt64
  limit : Option Nat

def compilePatterns (glob : Glob) (kind : String) (patterns : List String) :
    Except Error (List (String → Bool)) :=
  patterns.mapM fun pattern =>
    match glob.compile pattern with
    | .ok matcher => .ok matcher
    | .error text => .error ((Error.msg text).context
        ("invalid " ++ kind ++ " glob pattern: '" ++ pattern ++ "'"))

def parseFilters (glob : Glob) (table : CaseTable) (args : IngestArgs) : Except Error Filters := do
  let excludePatterns ← compilePatterns glob "exclude" args.excludes
  let includePatterns ← compilePatterns glob "include" args.includes
  return {
    excludePatterns
    includePatterns
    typeFilter := if args.types.isEmpty then none else some (args.types.map table.toLowercase)
    maxSize := args.maxSize
    limit := args.limit }

/-- The name the patterns are matched against. -/
def filename (entry : DirEntry) : String :=
  ((Path.fileName entry.path).map OsString.toStringLossy).getD ""

def lowerExtension (table : CaseTable) (entry : DirEntry) : String :=
  ((Path.extension entry.path).map fun extension =>
    table.toLowercase extension.toStringLossy).getD ""

def categoryText (table : CaseTable) (entry : DirEntry) : String :=
  (FileCategory.classify table (lowerExtension table entry) none).toText

/-- One round of the loop up to the push: is the file taken? -/
def passes (table : CaseTable) (filters : Filters) (entry : DirEntry) : Except Error Bool :=
  if entry.fileType ≠ .file then .ok false
  else if filters.excludePatterns.any fun pattern => pattern (filename entry) then .ok false
  else if !filters.includePatterns.isEmpty &&
      !filters.includePatterns.any fun pattern => pattern (filename entry) then .ok false
  else if filters.typeFilter.any fun types => !types.contains (categoryText table entry) &&
      !types.contains (lowerExtension table entry) then .ok false
  else
    match filters.maxSize with
    | none => .ok true
    | some max =>
        match entry.metadata with
        | .error text => .error ((Error.msg text).context
            ("Failed to read file metadata for size filtering: " ++
              OsString.toStringLossy entry.path))
        | .ok size => .ok (!(max < size))

/-- The loop over the walk, with the files taken so far. -/
def collectLoop (table : CaseTable) (filters : Filters) (files : List (List UInt8)) :
    Walk → Except Error (List (List UInt8))
  | [] => .ok files
  | .error failure :: _ => .error (Error.msg failure.message)
  | .ok entry :: rest =>
      match passes table filters entry with
      | .error error => .error error
      | .ok false => collectLoop table filters files rest
      | .ok true =>
          let files := files ++ [entry.path]
          -- The limit is tested behind the push: it cannot stop the first file.
          if filters.limit.any fun limit => limit ≤ files.length then .ok files
          else collectLoop table filters files rest

def collectFiles (glob : Glob) (table : CaseTable) (args : IngestArgs) (walk : Walk) :
    Except Error (List (List UInt8)) := do
  let filters ← parseFilters glob table args
  collectLoop table filters [] walk

/-! ## What the filters say -/

/-- A regular file that no filter rejects. -/
def Wanted (glob : Glob) (table : CaseTable) (args : IngestArgs) (entry : DirEntry) : Prop :=
  entry.fileType = .file ∧
  (∀ pattern ∈ args.excludes, ¬ glob.matches pattern (filename entry)) ∧
  (args.includes ≠ [] → ∃ pattern ∈ args.includes, glob.matches pattern (filename entry)) ∧
  (args.types ≠ [] → lowerExtension table entry ∈ args.types.map table.toLowercase ∨
    categoryText table entry ∈ args.types.map table.toLowercase) ∧
  (∀ max ∈ args.maxSize, ∀ size ∈ entry.metadata.toOption, size ≤ max)

instance (glob : Glob) (table : CaseTable) (args : IngestArgs) (entry : DirEntry) :
    Decidable (Wanted glob table args entry) :=
  inferInstanceAs (Decidable (
    entry.fileType = .file ∧
    (∀ pattern ∈ args.excludes, ¬ glob.matches pattern (filename entry)) ∧
    (args.includes ≠ [] → ∃ pattern ∈ args.includes, glob.matches pattern (filename entry)) ∧
    (args.types ≠ [] → lowerExtension table entry ∈ args.types.map table.toLowercase ∨
      categoryText table entry ∈ args.types.map table.toLowercase) ∧
    (∀ max ∈ args.maxSize, ∀ size ∈ entry.metadata.toOption, size ≤ max)))

def filesWhere (keep : DirEntry → Bool) (walk : Walk) : List (List UInt8) :=
  walk.filterMap fun item =>
    match item with
    | .ok entry => if keep entry then some entry.path else none
    | .error _ => none

def wantedFiles (glob : Glob) (table : CaseTable) (args : IngestArgs) (walk : Walk) :
    List (List UInt8) :=
  filesWhere (fun entry => Wanted glob table args entry) walk

def firstFiles (limit : Option Nat) (files : List (List UInt8)) : List (List UInt8) :=
  match limit with
  | some limit => files.take limit
  | none => files

/-! ## The parsed arguments -/

theorem compilePatterns_eq {glob : Glob} {patterns : List String}
    (valid : ∀ pattern ∈ patterns, ∃ matcher, glob.compile pattern = .ok matcher) (kind : String) :
    compilePatterns glob kind patterns = .ok (patterns.map glob.matches) := by
  induction patterns with
  | nil => rfl
  | cons pattern rest inductionHypothesis =>
      obtain ⟨⟨matcher, compiled⟩, later⟩ := List.forall_mem_cons.mp valid
      have own : glob.matches pattern = matcher := by
        funext text
        rw [Glob.matches, compiled]
      have others := inductionHypothesis later
      unfold compilePatterns at others ⊢
      rw [List.mapM_cons, compiled, others, List.map_cons, own]
      rfl

/-- What valid arguments are parsed to. -/
def filtersOf (glob : Glob) (table : CaseTable) (args : IngestArgs) : Filters where
  excludePatterns := args.excludes.map glob.matches
  includePatterns := args.includes.map glob.matches
  typeFilter := if args.types.isEmpty then none else some (args.types.map table.toLowercase)
  maxSize := args.maxSize
  limit := args.limit

theorem parseFilters_eq {glob : Glob} {args : IngestArgs}
    (valid : ∀ pattern ∈ args.excludes ++ args.includes,
      ∃ matcher, glob.compile pattern = .ok matcher) (table : CaseTable) :
    parseFilters glob table args = .ok (filtersOf glob table args) := by
  obtain ⟨excludes, includes⟩ := List.forall_mem_append.mp valid
  unfold parseFilters
  rw [compilePatterns_eq excludes, compilePatterns_eq includes]
  rfl

section Tests

variable (glob : Glob) (table : CaseTable) (args : IngestArgs) (entry : DirEntry)

theorem excluded_iff :
    ((filtersOf glob table args).excludePatterns.any fun pattern => pattern (filename entry)) ↔
      ¬ ∀ pattern ∈ args.excludes, ¬ glob.matches pattern (filename entry) := by
  simp [filtersOf]

theorem notIncluded_iff :
    (!(filtersOf glob table args).includePatterns.isEmpty &&
      !(filtersOf glob table args).includePatterns.any fun pattern => pattern (filename entry)) ↔
      ¬ (args.includes ≠ [] →
        ∃ pattern ∈ args.includes, glob.matches pattern (filename entry)) := by
  simp [filtersOf]

theorem untyped_iff :
    ((filtersOf glob table args).typeFilter.any fun types =>
      !types.contains (categoryText table entry) && !types.contains (lowerExtension table entry)) ↔
      ¬ (args.types ≠ [] → lowerExtension table entry ∈ args.types.map table.toLowercase ∨
        categoryText table entry ∈ args.types.map table.toLowercase) := by
  by_cases none : args.types = []
  · simp [filtersOf, none]
  · simp only [filtersOf, List.isEmpty_iff, none, if_false, Option.any_some, Bool.and_eq_true,
      Bool.not_eq_true', List.contains_eq_mem, decide_eq_false_iff_not, ne_eq, not_false_eq_true,
      true_implies, not_or]
    exact and_comm

end Tests

theorem passes_eq (glob : Glob) (table : CaseTable) (args : IngestArgs) {entry : DirEntry}
    {size : UInt64} (known : entry.metadata = .ok size) :
    passes table (filtersOf glob table args) entry =
      .ok (Decidable.decide (Wanted glob table args entry)) := by
  unfold passes
  split_ifs with other excluded notIncluded untyped
  · exact congrArg Except.ok (decide_eq_false fun wanted => other wanted.1).symm
  · have rejected := (excluded_iff glob table args entry).mp excluded
    exact congrArg Except.ok (decide_eq_false fun wanted => rejected wanted.2.1).symm
  · have rejected := (notIncluded_iff glob table args entry).mp notIncluded
    exact congrArg Except.ok (decide_eq_false fun wanted => rejected wanted.2.2.1).symm
  · have rejected := (untyped_iff glob table args entry).mp untyped
    exact congrArg Except.ok (decide_eq_false fun wanted => rejected wanted.2.2.2.1).symm
  · rw [excluded_iff, not_not] at excluded
    rw [notIncluded_iff, not_not] at notIncluded
    rw [untyped_iff, not_not] at untyped
    have others : Wanted glob table args entry ↔
        ∀ max ∈ args.maxSize, ∀ size ∈ entry.metadata.toOption, size ≤ max :=
      ⟨fun wanted => wanted.2.2.2.2,
        fun sized => ⟨not_not.mp other, excluded, notIncluded, untyped, sized⟩⟩
    have maximum : (filtersOf glob table args).maxSize = args.maxSize := rfl
    rw [maximum, known]
    cases bound : args.maxSize with
    | none =>
        refine congrArg Except.ok (decide_eq_true (others.mpr ?_)).symm
        simp [bound]
    | some max =>
        have sized : Wanted glob table args entry ↔ size ≤ max := by
          rw [others, bound, known]
          simp [Except.toOption]
        simp only [sized]
        congr 1
        by_cases small : size ≤ max
        · simp [small]
        · simp [small, UInt64.not_le.mp small]

/-- The loop takes the files that pass up to the limit, and at least one. -/
theorem collectLoop_eq {table : CaseTable} {filters : Filters} {keep : DirEntry → Bool}
    {walk : Walk} {files : List (List UInt8)}
    (clean : ∀ item ∈ walk, ∃ entry, item = .ok entry ∧
      passes table filters entry = .ok (keep entry))
    (below : ∀ limit ∈ filters.limit, files.length < max limit 1) :
    collectLoop table filters files walk = .ok (firstFiles
      (filters.limit.map fun limit => max limit 1) (files ++ filesWhere keep walk)) := by
  induction walk generalizing files with
  | nil =>
      rw [collectLoop, filesWhere, List.filterMap_nil, List.append_nil]
      cases bound : filters.limit with
      | none => rfl
      | some limit =>
          have short := below limit bound
          exact congrArg Except.ok (List.take_of_length_le (Nat.le_of_lt short)).symm
  | cons item rest inductionHypothesis =>
      obtain ⟨⟨entry, rfl, outcome⟩, later⟩ := List.forall_mem_cons.mp clean
      rw [collectLoop, outcome]
      cases taken : keep entry with
      | false =>
          have skipped : filesWhere keep (.ok entry :: rest) = filesWhere keep rest := by
            simp [filesWhere, taken]
          rw [skipped]
          exact inductionHypothesis later below
      | true =>
          have pushed : files ++ filesWhere keep (.ok entry :: rest) =
              (files ++ [entry.path]) ++ filesWhere keep rest := by
            simp [filesWhere, taken]
          have one : (files ++ [entry.path]).length = files.length + 1 := by simp
          rw [pushed]
          simp only
          split
          next stop =>
            obtain ⟨limit, bound, reached⟩ := (Option.any_eq_true _ _).mp stop
            have short := below limit bound
            have exactly : max limit 1 = (files ++ [entry.path]).length := by
              have atLeast := of_decide_eq_true reached
              omega
            rw [bound, Option.map_some, firstFiles, exactly, List.take_left]
          next more =>
            refine inductionHypothesis later fun limit bound => ?_
            rw [bound, Option.any_some, decide_eq_true_eq, not_le] at more
            exact Nat.lt_of_lt_of_le more (Nat.le_max_left _ _)

theorem collectFiles_eq {glob : Glob} {args : IngestArgs} {walk : Walk}
    (valid : ∀ pattern ∈ args.excludes ++ args.includes,
      ∃ matcher, glob.compile pattern = .ok matcher)
    (clean : ∀ item ∈ walk, ∃ entry size, item = .ok entry ∧ entry.metadata = .ok size)
    (table : CaseTable) : collectFiles glob table args walk =
      .ok (firstFiles (args.limit.map fun limit => max limit 1)
        (wantedFiles glob table args walk)) := by
  have loop : collectFiles glob table args walk =
      collectLoop table (filtersOf glob table args) [] walk := by
    unfold collectFiles
    rw [parseFilters_eq valid]
    rfl
  rw [loop]
  refine collectLoop_eq (fun item member => ?_) fun limit _ => Nat.lt_of_lt_of_le Nat.one_pos
    (Nat.le_max_right _ _)
  obtain ⟨entry, size, rfl, known⟩ := clean item member
  exact ⟨entry, rfl, passes_eq glob table args known⟩

theorem wantedFiles_eq_nil_iff (glob : Glob) (table : CaseTable) (args : IngestArgs)
    (walk : Walk) : wantedFiles glob table args walk = [] ↔
      ∀ entry, .ok entry ∈ walk → ¬ Wanted glob table args entry := by
  unfold wantedFiles filesWhere
  rw [List.filterMap_eq_nil_iff]
  constructor
  · intro rejected entry member wanted
    have none := rejected (.ok entry) member
    simp [wanted] at none
  · intro rejected item member
    cases item with
    | error failure => rfl
    | ok entry => simp [rejected entry member]

/-- Exactly the files that the filters say are collected, in the order of the walk
and up to the limit, unless the limit is zero and there is such a file. -/
theorem collected_files_are_what_the_filters_say_iff (glob : Glob) (table : CaseTable)
    (args : IngestArgs) (walk : Walk)
    (valid : ∀ pattern ∈ args.excludes ++ args.includes,
      ∃ matcher, glob.compile pattern = .ok matcher)
    (clean : ∀ item ∈ walk, ∃ entry size, item = .ok entry ∧ entry.metadata = .ok size) :
    (∃ files, collectFiles glob table args walk = .ok files ∧
      files = firstFiles args.limit (wantedFiles glob table args walk) ∧
      ∀ limit ∈ args.limit, files.length ≤ limit) ↔
    (args.limit = some 0 → ∀ entry, .ok entry ∈ walk → ¬ Wanted glob table args entry) := by
  rw [collectFiles_eq valid clean, ← wantedFiles_eq_nil_iff]
  generalize wantedFiles glob table args walk = wanted
  match args.limit with
  | none => simp [firstFiles]
  | some 0 =>
      constructor
      · rintro ⟨files, same, rfl, -⟩ -
        have one : wanted.take 1 = [] := Except.ok.inj same
        exact (List.take_eq_nil_iff.mp one).resolve_left Nat.one_ne_zero
      · intro none
        exact ⟨[], by rw [none rfl]; rfl, rfl, fun _ _ => Nat.zero_le _⟩
  | some (limit + 1) =>
      have least : max (limit + 1) 1 = limit + 1 := Nat.max_eq_left (Nat.le_add_left _ _)
      refine iff_of_true ⟨_, rfl, ?_, ?_⟩ (fun zero => by cases zero)
      · rw [Option.map_some, least]
      · intro bound same
        rw [Option.map_some, least, ← Option.some.inj same]
        exact List.length_take_le _ _

/-- Patterns of at most one star, which stands in front. -/
def starGlob : Glob where
  compile pattern := .ok fun filename =>
    match pattern.toList with
    | '*' :: ending => Decidable.decide (ending <:+ filename.toList)
    | name => Decidable.decide (name = filename.toList)

def sampleWalk : Walk :=
  [.ok ⟨utf8Bytes "/data", .dir, .ok 4096⟩,
    .ok ⟨utf8Bytes "/data/a.txt", .file, .ok 5⟩,
    .ok ⟨utf8Bytes "/data/b.log", .file, .ok 7⟩,
    .ok ⟨utf8Bytes "/data/c.JPG", .file, .ok 9⟩,
    .ok ⟨utf8Bytes "/data/d.txt", .file, .ok 6⟩]

theorem collected_files_are_what_the_filters_say_iff_sample :
    ∃ files, collectFiles starGlob asciiCase ⟨[], ["*.log"], ["document"], some 6, some 2⟩
      sampleWalk = .ok files ∧ files = firstFiles (some 2) (wantedFiles starGlob asciiCase
        ⟨[], ["*.log"], ["document"], some 6, some 2⟩ sampleWalk) ∧
      ∀ limit ∈ some 2, files.length ≤ limit :=
  (collected_files_are_what_the_filters_say_iff starGlob asciiCase
    ⟨[], ["*.log"], ["document"], some 6, some 2⟩ sampleWalk (fun _ _ => ⟨_, rfl⟩) (by
      unfold sampleWalk
      simp)).mpr (fun zero => by cases zero)

/-- With a limit of zero, one file is collected. -/
theorem collects_a_file_at_limit_zero :
    collectFiles starGlob asciiCase ⟨[], [], [], none, some 0⟩ sampleWalk =
        .ok [utf8Bytes "/data/a.txt"] ∧
      ¬ ∀ (glob : Glob) (table : CaseTable) (args : IngestArgs) (walk : Walk),
        (∀ pattern ∈ args.excludes ++ args.includes,
          ∃ matcher, glob.compile pattern = .ok matcher) →
        (∀ item ∈ walk, ∃ entry size, item = .ok entry ∧ entry.metadata = .ok size) →
        ∃ files, collectFiles glob table args walk = .ok files ∧
          files = firstFiles args.limit (wantedFiles glob table args walk) ∧
          ∀ limit ∈ args.limit, files.length ≤ limit := by
  have one : collectFiles starGlob asciiCase ⟨[], [], [], none, some 0⟩ sampleWalk =
      .ok [utf8Bytes "/data/a.txt"] := rfl
  refine ⟨one, fun exact => ?_⟩
  obtain ⟨files, same, -, short⟩ := exact starGlob asciiCase ⟨[], [], [], none, some 0⟩ sampleWalk
    (fun _ member => by simp at member) (by
      unfold sampleWalk
      simp)
  rw [one] at same
  have long := short 0 rfl
  rw [← Except.ok.inj same] at long
  exact absurd long (by decide)

end AntiEntropator.Ingest
