import AntiEntropator.Profile.Groups
import AntiEntropator.Profile.Walk

/-!
# Breakdowns of the totals

Every file of known size is counted once in the totals, once under its
extension and once under its category, and at most once under a MIME type.
Whatever else the walk meets changes none of these, and what it could not read
is one error each.
-/

namespace AntiEntropator.Profile

open Grouping

/-- What could not be read, as the scanner reports it. -/
def failure? : Except WalkError DirEntry → Option ProfileError
  | .error failure => some ⟨(failure.path.map OsString.toStringLossy).getD "", failure.message⟩
  | .ok entry =>
      match entry.fileType, entry.metadata with
      | .file, .error message => some ⟨OsString.toStringLossy entry.path, message⟩
      | _, _ => none

def extensionOf (table : CaseTable) (entry : DirEntry) : String :=
  getExtension table entry.fileName.toStringLossy

def categoryOf (table : CaseTable) (entry : DirEntry) : FileCategory :=
  FileCategory.classify table (extensionOf table entry) none

/-- The MIME type a file is counted under, if it is looked for and found. -/
def mimeOf? (probes : Probes) (options : ScanOptions) (entry : DirEntry) : Option String :=
  if options.detectMime then probes.mimeType entry.path else none

/-! ## One step of the loop -/

section Visit

variable (table : CaseTable) (probes : Probes) (options : ScanOptions)

/-- The loop visits a file of known size; anything else leaves all but the counts of
directories and symlinks and the errors alone. -/
theorem visit_result (state : ScanState) (item : Except WalkError DirEntry) :
    (∃ entry size, countedFile? item = some (entry, size) ∧ failure? item = none ∧
      visit table probes options state item = visitFile table probes options state entry size) ∨
    countedFile? item = none ∧ ∃ dirCount symlinkCount,
      visit table probes options state item =
        { state with result := { state.result with
            dirCount
            symlinkCount
            errors := state.result.errors ++ (failure? item).toList } } := by
  rcases item with failure | entry
  · exact .inr ⟨rfl, _, _, rfl⟩
  · cases kind : entry.fileType with
    | file =>
        cases read : entry.metadata with
        | ok size =>
            exact .inl ⟨entry, size, by simp [countedFile?, kind, read],
              by simp [failure?, kind, read], by simp [visit, kind, read]⟩
        | error message =>
            refine .inr ⟨by simp [countedFile?, kind, read], state.result.dirCount,
              state.result.symlinkCount, ?_⟩
            simp [visit, failure?, recordError, kind, read]
    | dir =>
        refine .inr ⟨by simp [countedFile?, kind], state.result.dirCount + 1,
          state.result.symlinkCount, ?_⟩
        simp [visit, failure?, kind]
    | symlink =>
        refine .inr ⟨by simp [countedFile?, kind], state.result.dirCount,
          state.result.symlinkCount + 1, ?_⟩
        simp [visit, failure?, kind]
    | other =>
        refine .inr ⟨by simp [countedFile?, kind], state.result.dirCount,
          state.result.symlinkCount, ?_⟩
        simp [visit, failure?, kind]

/-- A part of the result that only files change is built from the files. -/
theorem foldl_scanWalk {Part : Type} (part : ProfileResult → Part)
    (add : Part → DirEntry × UInt64 → Part)
    (files : ∀ state entry size, part (visitFile table probes options state entry size).result =
      add (part state.result) (entry, size))
    (others : ∀ result dirCount symlinkCount errors,
      part { result with dirCount, symlinkCount, errors } = part result)
    (root : List UInt8) (walk : Walk) :
    part (scanWalk table probes options root walk).result =
      (countedFiles walk).foldl add (part (.new (OsString.toStringLossy root))) := by
  induction walk using List.reverseRecOn with
  | nil => rfl
  | append_singleton walk item inductionHypothesis =>
      rw [scanWalk_snoc, countedFiles, List.filterMap_append, List.foldl_append]
      rcases visit_result table probes options (scanWalk table probes options root walk) item with
        ⟨entry, size, counted, -, visited⟩ | ⟨uncounted, dirCount, symlinkCount, visited⟩
      · rw [visited, files, inductionHypothesis]
        simp [countedFiles, counted]
      · rw [visited, others, inductionHypothesis]
        simp [countedFiles, uncounted]

end Visit

/-! ## Breakdowns -/

def keyed (key? : DirEntry → Option String) (files : List (DirEntry × UInt64)) :
    List (String × UInt64 × String) :=
  files.filterMap fun file => (key? file.1).map fun key => (key, sized file)

/-- One group for each key that occurs, with the exact numbers of its files. -/
structure Breakdown (groups : List (String × GroupStats))
    (items : List (String × UInt64 × String)) : Prop where
  nodup : (groups.map Prod.fst).Nodup
  mem_iff : ∀ key, key ∈ groups.map Prod.fst ↔ key ∈ items.map Prod.fst
  describes : ∀ key stats, (key, stats) ∈ groups →
    stats.Describes ((under key items).map Prod.fst) ∧
      stats.totalBytes.toNat = totalSize (under key items)
  sum_count : (groups.map fun group => group.2.count).sum = items.length
  sum_totalBytes : (groups.map fun group => group.2.totalBytes.toNat).sum =
    totalSize (items.map Prod.snd)

def groupsOf (items : List (String × UInt64 × String)) : List (String × GroupStats) :=
  (keys items).map fun key => (key, GroupStats.new.addAll (under key items))

theorem map_fst_groupsOf (items : List (String × UInt64 × String)) :
    (groupsOf items).map Prod.fst = keys items := by
  rw [groupsOf, List.map_map]
  exact List.map_id (keys items)

theorem under_ne_nil {key : String} {items : List (String × UInt64 × String)}
    (member : key ∈ keys items) : under key items ≠ [] := by
  obtain ⟨item, inside, same⟩ := List.mem_map.mp (mem_keys_iff.mp member)
  apply List.ne_nil_of_mem (a := item.2)
  exact List.mem_map.mpr ⟨item, List.mem_filter.mpr ⟨inside, by simpa using same⟩, rfl⟩

theorem finalizeGroups_groupsOf (items : List (String × UInt64 × String)) :
    ProfileResult.finalizeGroups (groupsOf items) = groupsOf items := by
  unfold ProfileResult.finalizeGroups groupsOf
  rw [List.map_map]
  apply List.map_congr_left
  intro key member
  exact congrArg (Prod.mk key) (GroupStats.finalize_addAll (under_ne_nil member))

theorem breakdown_groupsOf {items : List (String × UInt64 × String)}
    (small : totalSize (items.map Prod.snd) < 2 ^ 64) : Breakdown (groupsOf items) items := by
  have total : totalSize (items.map Prod.snd) = (items.map fun item => item.2.1.toNat).sum := by
    rw [totalSize, List.map_map]
    rfl
  have bytes : ∀ key, (GroupStats.new.addAll (under key items)).totalBytes.toNat =
      totalSize (under key items) := by
    intro key
    have part : totalSize (under key items) ≤ totalSize (items.map Prod.snd) := by
      rw [total]
      exact sum_under_le (fun file : UInt64 × String => file.1.toNat) key items
    have zero : GroupStats.new.totalBytes.toNat = 0 := rfl
    rw [GroupStats.totalBytes_addAll _ _ (by omega), zero, Nat.zero_add]
  refine ⟨?_, ?_, ?_, ?_, ?_⟩
  · rw [map_fst_groupsOf]
    exact nodup_keys items
  · intro key
    rw [map_fst_groupsOf]
    exact mem_keys_iff
  · intro key stats member
    obtain ⟨other, inside, same⟩ := List.mem_map.mp member
    cases same
    exact ⟨GroupStats.describes_addAll (under_ne_nil inside), bytes key⟩
  · have counts := sum_under (fun _ : UInt64 × String => 1) items
    rw [groupsOf, List.map_map]
    simpa [Function.comp_def, GroupStats.count_addAll, GroupStats.new] using counts
  · rw [total, ← sum_under (fun file : UInt64 × String => file.1.toNat) items, groupsOf,
      List.map_map]
    simp only [Function.comp_def, bytes]
    rfl

theorem foldl_addTo (key? : DirEntry → Option String) (files : List (DirEntry × UInt64)) :
    files.foldl (fun groups file =>
      match key? file.1 with
      | some key => addTo key file.2 (OsString.toStringLossy file.1.path) groups
      | none => groups) [] = groupsOf (keyed key? files) := by
  have collected := collect_eq GroupStats.new
    (fun stats (file : UInt64 × String) => stats.add file.1 file.2) (keyed key? files)
  unfold groupsOf GroupStats.addAll
  rw [← collected, collect, keyed, List.foldl_filterMap]
  congr 1
  funext groups file
  cases key? file.1 <;> rfl

theorem foldl_add_size (start : UInt64) (files : List (DirEntry × UInt64))
    (small : start.toNat + totalSize (files.map sized) < 2 ^ 64) :
    (files.foldl (fun bytes file => bytes + file.2) start).toNat =
      start.toNat + totalSize (files.map sized) := by
  induction files generalizing start with
  | nil => rfl
  | cons file rest inductionHypothesis =>
      have split : totalSize ((file :: rest).map sized) =
          file.2.toNat + totalSize (rest.map sized) := by
        simp [totalSize, sized]
      have added : (start + file.2).toNat = start.toNat + file.2.toNat := by
        rw [UInt64.toNat_add, Nat.mod_eq_of_lt (by omega)]
      rw [List.foldl_cons, inductionHypothesis _ (by omega)]
      omega

theorem foldl_count_empty (start : Nat) (files : List (DirEntry × UInt64)) :
    files.foldl (fun count file => if file.2 = 0 then count + 1 else count) start =
      start + files.countP fun file => file.2 = 0 := by
  induction files generalizing start with
  | nil => rfl
  | cons file rest inductionHypothesis =>
      rw [List.foldl_cons, inductionHypothesis, List.countP_cons]
      by_cases empty : file.2 = 0
      · simp only [empty, if_true, decide_true]
        omega
      · simp [empty]

section Scan

variable (table : CaseTable) (probes : Probes) (options : ScanOptions)
  (sizeOrder : IterationOrder (UInt64 × List String))
  (groupOrder : IterationOrder ((UInt64 × String) × List String)) (root : List UInt8)
  (walk : Walk)

theorem fileCount_scanWalk :
    (scanWalk table probes options root walk).result.fileCount = (countedFiles walk).length := by
  have counted := foldl_scanWalk table probes options ProfileResult.fileCount
    (fun count _ => count + 1) (fun _ _ _ => rfl) (fun _ _ _ _ => rfl) root walk
  rw [counted, List.foldl_const]
  simp [ProfileResult.new]

theorem zeroByteCount_scanWalk :
    (scanWalk table probes options root walk).result.zeroByteCount =
      (countedFiles walk).countP fun file => file.2 = 0 := by
  have counted := foldl_scanWalk table probes options ProfileResult.zeroByteCount
    (fun count file => if file.2 = 0 then count + 1 else count) (fun _ _ _ => rfl)
    (fun _ _ _ _ => rfl) root walk
  rw [counted, foldl_count_empty]
  exact Nat.zero_add _

theorem totalBytes_scanWalk (small : totalSize (regularFiles walk) < 2 ^ 64) :
    (scanWalk table probes options root walk).result.totalBytes.toNat =
      totalSize (regularFiles walk) := by
  have counted := foldl_scanWalk table probes options ProfileResult.totalBytes
    (fun bytes file => bytes + file.2) (fun _ _ _ => rfl) (fun _ _ _ _ => rfl) root walk
  have zero : (ProfileResult.new (OsString.toStringLossy root)).totalBytes.toNat = 0 := rfl
  rw [regularFiles_eq] at small ⊢
  rw [counted, foldl_add_size _ _ (by omega), zero, Nat.zero_add]

theorem byExtension_scanWalk :
    (scanWalk table probes options root walk).result.byExtension =
      groupsOf (keyed (fun entry => some (extensionOf table entry)) (countedFiles walk)) := by
  rw [← foldl_addTo]
  exact foldl_scanWalk table probes options ProfileResult.byExtension _ (fun _ _ _ => rfl)
    (fun _ _ _ _ => rfl) root walk

theorem byCategory_scanWalk :
    (scanWalk table probes options root walk).result.byCategory =
      groupsOf (keyed (fun entry => some (categoryOf table entry).toText)
        (countedFiles walk)) := by
  rw [← foldl_addTo]
  exact foldl_scanWalk table probes options ProfileResult.byCategory _ (fun _ _ _ => rfl)
    (fun _ _ _ _ => rfl) root walk

theorem byMime_scanWalk :
    (scanWalk table probes options root walk).result.byMime =
      groupsOf (keyed (mimeOf? probes options) (countedFiles walk)) := by
  rw [← foldl_addTo]
  exact foldl_scanWalk table probes options ProfileResult.byMime _ (fun _ _ _ => rfl)
    (fun _ _ _ _ => rfl) root walk

/-! ## Errors -/

def withErrors (state : ScanState) (errors : List ProfileError) : ScanState :=
  { state with result := { state.result with errors } }

theorem visit_failed {item : Except WalkError DirEntry} {error : ProfileError}
    (failed : failure? item = some error) (state : ScanState) :
    visit table probes options state item = recordError state error := by
  rcases item with failure | entry
  · cases failed
    rfl
  · cases kind : entry.fileType <;> cases read : entry.metadata <;>
      simp only [failure?, kind, read] at failed <;> cases failed
    simp only [visit, kind, read]

theorem visit_withErrors {item : Except WalkError DirEntry} (clean : failure? item = none)
    (state : ScanState) (errors : List ProfileError) :
    visit table probes options (withErrors state errors) item =
      withErrors (visit table probes options state item) errors := by
  rcases item with failure | entry
  · cases clean
  · cases kind : entry.fileType with
    | file =>
        cases read : entry.metadata with
        | ok size =>
            simp only [visit, kind, read, visitFile, withErrors]
            cases (if options.detectMime then probes.mimeType entry.path else none) <;> rfl
        | error message => simp [failure?, kind, read] at clean
    | dir => simp only [visit, kind, withErrors]
    | symlink => simp only [visit, kind, withErrors]
    | other => simp only [visit, kind]

/-- What could not be read is recorded in order, and changes nothing else. -/
theorem scanWalk_failures :
    scanWalk table probes options root walk =
      withErrors (scanWalk table probes options root
        (walk.filter fun item => (failure? item).isNone)) (walk.filterMap failure?) := by
  induction walk using List.reverseRecOn with
  | nil => rfl
  | append_singleton walk item inductionHypothesis =>
      rw [scanWalk_snoc, inductionHypothesis, List.filter_append, List.filterMap_append]
      cases outcome : failure? item with
      | some error =>
          rw [visit_failed table probes options outcome]
          simp [recordError, withErrors, outcome]
      | none =>
          rw [visit_withErrors table probes options outcome]
          simp [outcome, scanWalk_snoc]

theorem scan_failures :
    scan table probes options sizeOrder groupOrder root walk =
      { scan table probes options sizeOrder groupOrder root
          (walk.filter fun item => (failure? item).isNone) with
        errors := walk.filterMap failure? } := by
  unfold scan
  rw [scanWalk_failures]
  dsimp only [withErrors, ProfileResult.finalize]
  split <;> rfl

theorem scan_counts :
    (scan table probes options sizeOrder groupOrder root walk).fileCount =
        (scanWalk table probes options root walk).result.fileCount ∧
      (scan table probes options sizeOrder groupOrder root walk).totalBytes =
        (scanWalk table probes options root walk).result.totalBytes ∧
      (scan table probes options sizeOrder groupOrder root walk).zeroByteCount =
        (scanWalk table probes options root walk).result.zeroByteCount := by
  unfold scan ProfileResult.finalize
  dsimp only
  split <;> exact ⟨rfl, rfl, rfl⟩

/-- Finalizing leaves the breakdowns as they are, since no group is empty. -/
theorem scan_breakdowns :
    (scan table probes options sizeOrder groupOrder root walk).byExtension =
        groupsOf (keyed (fun entry => some (extensionOf table entry)) (countedFiles walk)) ∧
      (scan table probes options sizeOrder groupOrder root walk).byCategory =
        groupsOf (keyed (fun entry => some (categoryOf table entry).toText)
          (countedFiles walk)) ∧
      (scan table probes options sizeOrder groupOrder root walk).byMime =
        groupsOf (keyed (mimeOf? probes options) (countedFiles walk)) := by
  rw [← byExtension_scanWalk table probes options root walk,
    ← byCategory_scanWalk table probes options root walk,
    ← byMime_scanWalk table probes options root walk]
  have extensions := finalizeGroups_groupsOf
    (keyed (fun entry => some (extensionOf table entry)) (countedFiles walk))
  have categories := finalizeGroups_groupsOf
    (keyed (fun entry => some (categoryOf table entry).toText) (countedFiles walk))
  have mimes := finalizeGroups_groupsOf (keyed (mimeOf? probes options) (countedFiles walk))
  rw [← byExtension_scanWalk table probes options root walk] at extensions
  rw [← byCategory_scanWalk table probes options root walk] at categories
  rw [← byMime_scanWalk table probes options root walk] at mimes
  unfold scan ProfileResult.finalize
  dsimp only
  split <;> exact ⟨extensions, categories, mimes⟩

end Scan

theorem length_keyed_le (key? : DirEntry → Option String) (files : List (DirEntry × UInt64)) :
    (keyed key? files).length ≤ files.length := List.length_filterMap_le _ _

theorem totalSize_keyed_le (key? : DirEntry → Option String)
    (files : List (DirEntry × UInt64)) :
    totalSize ((keyed key? files).map Prod.snd) ≤ totalSize (files.map sized) := by
  induction files with
  | nil => exact Nat.le_refl _
  | cons file rest inductionHypothesis =>
      unfold totalSize keyed at inductionHypothesis ⊢
      rw [List.filterMap_cons]
      cases key? file.1 with
      | none => exact Nat.le_trans inductionHypothesis (Nat.le_add_left _ _)
      | some key => exact Nat.add_le_add_left inductionHypothesis _

theorem keyed_some (key : DirEntry → String) (files : List (DirEntry × UInt64)) :
    keyed (fun entry => some (key entry)) files =
      files.map fun file => (key file.1, sized file) := by
  unfold keyed
  rw [← List.filterMap_eq_map]
  rfl

/-- Whatever a walk meets, its breakdowns are exact and partition the totals, and what
could not be read is one error each and changes nothing else. -/
theorem breakdowns_partition_the_totals (table : CaseTable) (probes : Probes)
    (options : ScanOptions) (sizeOrder : IterationOrder (UInt64 × List String))
    (groupOrder : IterationOrder ((UInt64 × String) × List String)) (root : List UInt8)
    (walk : Walk) (small : totalSize (regularFiles walk) < 2 ^ 64) :
    let result := scan table probes options sizeOrder groupOrder root walk
    let files := countedFiles walk
    result.fileCount = files.length ∧
    result.totalBytes.toNat = totalSize (files.map sized) ∧
    result.zeroByteCount = (files.countP fun file => file.2 = 0) ∧
    Breakdown result.byExtension
      (keyed (fun entry => some (extensionOf table entry)) files) ∧
    Breakdown result.byCategory
      (keyed (fun entry => some (categoryOf table entry).toText) files) ∧
    Breakdown result.byMime (keyed (mimeOf? probes options) files) ∧
    (result.byExtension.map fun group => group.2.count).sum = result.fileCount ∧
    (result.byCategory.map fun group => group.2.count).sum = result.fileCount ∧
    (result.byExtension.map fun group => group.2.totalBytes.toNat).sum =
      result.totalBytes.toNat ∧
    (result.byCategory.map fun group => group.2.totalBytes.toNat).sum =
      result.totalBytes.toNat ∧
    (result.byMime.map fun group => group.2.count).sum ≤ result.fileCount ∧
    result.errors = walk.filterMap failure? ∧
    { result with errors := [] } =
      { scan table probes options sizeOrder groupOrder root
          (walk.filter fun item => (failure? item).isNone) with errors := [] } := by
  intro result files
  obtain ⟨fileCount, totalBytes, zeroByteCount⟩ :=
    scan_counts table probes options sizeOrder groupOrder root walk
  obtain ⟨byExtension, byCategory, byMime⟩ :=
    scan_breakdowns table probes options sizeOrder groupOrder root walk
  have failures := scan_failures table probes options sizeOrder groupOrder root walk
  have number : result.fileCount = files.length :=
    fileCount.trans (fileCount_scanWalk table probes options root walk)
  have bytes : result.totalBytes.toNat = totalSize (files.map sized) := by
    rw [← regularFiles_eq, ← totalBytes_scanWalk table probes options root walk small]
    exact congrArg UInt64.toNat totalBytes
  rw [regularFiles_eq] at small
  have exact_groups : ∀ key?, Breakdown (groupsOf (keyed key? files)) (keyed key? files) :=
    fun key? => breakdown_groupsOf (Nat.lt_of_le_of_lt (totalSize_keyed_le key? files) small)
  have extensions := exact_groups fun entry => some (extensionOf table entry)
  have categories := exact_groups fun entry => some (categoryOf table entry).toText
  have mimes := exact_groups (mimeOf? probes options)
  rw [← byExtension] at extensions
  rw [← byCategory] at categories
  rw [← byMime] at mimes
  have whole : ∀ key : DirEntry → String,
      totalSize ((keyed (fun entry => some (key entry)) files).map Prod.snd) =
        totalSize (files.map sized) := by
    intro key
    rw [keyed_some, List.map_map]
    rfl
  refine ⟨number, bytes, ?_, extensions, categories, mimes, ?_, ?_, ?_, ?_, ?_, ?_, ?_⟩
  · exact zeroByteCount.trans (zeroByteCount_scanWalk table probes options root walk)
  · rw [extensions.sum_count, keyed_some, List.length_map, number]
  · rw [categories.sum_count, keyed_some (fun entry => (categoryOf table entry).toText),
      List.length_map, number]
  · rw [extensions.sum_totalBytes, whole, bytes]
  · rw [categories.sum_totalBytes, whole fun entry => (categoryOf table entry).toText, bytes]
  · rw [mimes.sum_count, number]
    exact length_keyed_le _ _
  · exact congrArg ProfileResult.errors failures
  · exact congrArg (fun report : ProfileResult => { report with errors := [] }) failures

/-- Two archives, an unreadable file and an unreadable directory. -/
def mixedWalk : Walk :=
  [.ok ⟨utf8Bytes "/data", .dir, .ok 4096⟩,
    .ok ⟨utf8Bytes "/data/a.zip", .file, .ok 7⟩,
    .ok ⟨utf8Bytes "/data/link", .symlink, .ok 1⟩,
    .error ⟨some (utf8Bytes "/data/private"), "Permission denied"⟩,
    .ok ⟨utf8Bytes "/data/b.rar", .file, .ok 0⟩,
    .ok ⟨utf8Bytes "/data/c.zip", .file, .error "No such file"⟩]

def extensionProbes : Probes := ⟨fun _ _ => false, fun _ => none, fun _ => none⟩

theorem breakdowns_partition_the_totals_mixed :
    ((scan asciiCase extensionProbes ⟨true, true, 10⟩ insertionOrder insertionOrder
      (utf8Bytes "/data") mixedWalk).byCategory.map fun group => group.2.count).sum =
      (scan asciiCase extensionProbes ⟨true, true, 10⟩ insertionOrder insertionOrder
        (utf8Bytes "/data") mixedWalk).fileCount :=
  (breakdowns_partition_the_totals asciiCase extensionProbes ⟨true, true, 10⟩ insertionOrder
    insertionOrder (utf8Bytes "/data") mixedWalk (by decide)).2.2.2.2.2.2.2.1

end AntiEntropator.Profile
