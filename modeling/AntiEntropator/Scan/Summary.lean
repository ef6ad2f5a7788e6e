import AntiEntropator.Scan.Run

/-!
# What a scan reports

The loop looks at a part of the walk that its limit determines.  The summary is
about exactly that part: its files, its errors, and a table in which every file
is counted once.
-/

namespace AntiEntropator.Scan

open Grouping

variable (environment : PathBuf → Environment) (limit : Option Nat)

/-- What an entry of the walk comes to: a scanned file, an error, or nothing. -/
def outcome? : Except WalkError FoundEntry → Option (Except String FileInfo)
  | .error failure => some (.error (walkErrorText failure))
  | .ok entry =>
      if entry.isFile then
        some ((scanFile (environment entry.path) entry.path).mapError (fileErrorText entry.path))
      else none

def success? : Except String FileInfo → Option FileInfo
  | .ok info => some info
  | .error _ => none

def successes (walk : FoundWalk) : List FileInfo :=
  (walk.filterMap (outcome? environment)).filterMap success?

def failure? : Except String FileInfo → Option String
  | .ok _ => none
  | .error text => some text

def failures (walk : FoundWalk) : List String :=
  (walk.filterMap (outcome? environment)).filterMap failure?

/-- The part of a walk that the loop looks at: up to the file that reaches the limit. -/
structure Met (already : Nat) (walk seen : FoundWalk) : Prop where
  within : seen <+: walk
  exhausted : seen = walk ∨ ∃ bound ∈ limit, bound ≤ already + (successes environment seen).length
  needed : ∀ bound ∈ limit, ∀ part, part <+: seen → part ≠ seen →
    already + (successes environment part).length < bound

def upToLimit (limit : Option Nat) (files : List FileInfo) : List FileInfo :=
  match limit with
  | some limit => files.take limit
  | none => files

section Loop

variable {environment limit}

theorem successes_append (first second : FoundWalk) :
    successes environment (first ++ second) =
      successes environment first ++ successes environment second := by
  simp [successes]

theorem successes_cons (item : Except WalkError FoundEntry) (walk : FoundWalk) :
    successes environment (item :: walk) =
      successes environment [item] ++ successes environment walk := successes_append [item] walk

theorem failures_append (first second : FoundWalk) :
    failures environment (first ++ second) =
      failures environment first ++ failures environment second := by
  simp [failures]

theorem failures_cons (item : Except WalkError FoundEntry) (walk : FoundWalk) :
    failures environment (item :: walk) =
      failures environment [item] ++ failures environment walk := failures_append [item] walk

theorem length_successes_singleton (item : Except WalkError FoundEntry) :
    (successes environment [item]).length ≤ 1 := by
  have length := List.length_filterMap_le success? ([item].filterMap (outcome? environment))
  exact Nat.le_trans length (List.length_filterMap_le _ _)

theorem scanLoop_full (walk : FoundWalk) (state : ScanState)
    (filled : (limit.any fun limit => limit ≤ state.scanned.length) = true) :
    scanLoop environment limit walk state = state := by
  rcases walk with - | ⟨- | -, rest⟩
  · rfl
  · rw [scanLoop, filled]
    rfl
  · rw [scanLoop, filled]
    rfl

theorem scanLoop_cons (item : Except WalkError FoundEntry) (rest : FoundWalk) (state : ScanState)
    (unfilled : (limit.any fun limit => limit ≤ state.scanned.length) = false) :
    scanLoop environment limit (item :: rest) state =
      scanLoop environment limit rest ⟨state.scanned ++ successes environment [item],
        state.errors ++ failures environment [item]⟩ := by
  cases item with
  | error failure =>
      rw [scanLoop, unfilled]
      simp [successes, failures, outcome?, List.filterMap_cons, success?, failure?]
  | ok entry =>
      rw [scanLoop, unfilled]
      cases regular : entry.isFile with
      | false => simp [successes, failures, outcome?, regular]
      | true =>
          cases scanned : scanFile (environment entry.path) entry.path with
          | ok info =>
              simp [successes, failures, outcome?, List.filterMap_cons, success?, failure?, regular,
                scanned, Except.mapError]
          | error error =>
              simp [successes, failures, outcome?, List.filterMap_cons, success?, failure?, regular,
                scanned, Except.mapError]

theorem scanLoop_eq (walk : FoundWalk) (state : ScanState) :
    ∃ seen, Met environment limit state.scanned.length walk seen ∧
      scanLoop environment limit walk state = ⟨state.scanned ++ successes environment seen,
        state.errors ++ failures environment seen⟩ := by
  induction walk generalizing state with
  | nil =>
      refine ⟨[], ⟨ List.prefix_rfl, .inl rfl, fun bound _ part within other => ?_⟩, ?_⟩
      · exact absurd (List.prefix_nil.mp within) other
      · simp [scanLoop, successes, failures]
  | cons item rest inductionHypothesis =>
      cases full : limit.any fun limit => limit ≤ state.scanned.length with
      | true =>
          obtain ⟨bound, limited, reached⟩ : ∃ bound ∈ limit, bound ≤ state.scanned.length := by
            simpa [Option.any_eq_true] using full
          refine ⟨[], ⟨ List.nil_prefix, .inr ⟨bound, limited, ?_⟩, ?_⟩, ?_⟩
          · exact Nat.le_add_right_of_le reached
          · exact fun _ _ part within other => absurd (List.prefix_nil.mp within) other
          · simp [scanLoop_full _ _ full, successes, failures]
      | false =>
          rw [scanLoop_cons item rest state full]
          obtain ⟨seen, met, collected⟩ := inductionHypothesis
            ⟨state.scanned ++ successes environment [item],
              state.errors ++ failures environment [item]⟩
          rw [List.length_append] at met
          refine ⟨item :: seen, ⟨?_, ?_, ?_⟩, ?_⟩
          · exact List.cons_prefix_cons.mpr ⟨rfl, met.within⟩
          · rcases met.exhausted with whole | ⟨bound, limited, reached⟩
            · exact .inl (congrArg (item :: ·) whole)
            · refine .inr ⟨bound, limited, ?_⟩
              rw [successes_cons, List.length_append]
              omega
          · intro bound limited part within other
            cases part with
            | nil =>
                subst limited
                simpa [successes] using full
            | cons first part =>
                obtain ⟨rfl, further⟩ := List.cons_prefix_cons.mp within
                have fewer := met.needed bound limited part further fun same => other (by rw [same])
                rw [successes_cons, List.length_append]
                omega
          · rw [collected, successes_cons item seen, failures_cons item seen, List.append_assoc,
              List.append_assoc]

theorem length_successes_le {walk seen : FoundWalk} {bound : Nat}
    (met : Met environment limit 0 walk seen) (limited : bound ∈ limit) :
    (successes environment seen).length ≤ bound := by
  rcases List.eq_nil_or_concat' seen with rfl | ⟨part, last, rfl⟩
  · exact Nat.zero_le bound
  · have fewer := met.needed bound limited part (List.prefix_append part [last]) (by simp)
    have one : (successes environment [last]).length ≤ 1 := length_successes_singleton last
    rw [successes_append, List.length_append]
    omega

theorem Met.whole {walk seen : FoundWalk} (met : Met environment none 0 walk seen) :
    seen = walk := by
  rcases met.exhausted with whole | ⟨bound, unlimited, -⟩
  · exact whole
  · cases unlimited

/-- With a limit, the loop stops at the end of the walk or when the limit is reached. -/
theorem Met.whole_or_reached {walk seen : FoundWalk} {bound : Nat}
    (met : Met environment (some bound) 0 walk seen) :
    seen = walk ∨ (successes environment seen).length = bound := by
  have small : (successes environment seen).length ≤ bound := length_successes_le met rfl
  rcases met.exhausted with whole | ⟨other, same, reached⟩
  · exact .inl whole
  · cases same
    rw [Nat.zero_add] at reached
    exact .inr (Nat.le_antisymm small reached)

/-- The files of the part that is looked at are the first ones of the whole walk. -/
theorem successes_of_met {walk seen : FoundWalk} (met : Met environment limit 0 walk seen) :
    successes environment seen = upToLimit limit (successes environment walk) := by
  cases limit with
  | none =>
      rw [met.whole]
      rfl
  | some bound =>
      have small : (successes environment seen).length ≤ bound := length_successes_le met rfl
      rcases met.whole_or_reached with rfl | reached
      · exact (List.take_of_length_le small).symm
      · obtain ⟨unseen, rfl⟩ := met.within
        rw [successes_append, upToLimit, List.take_append_of_le_length reached.ge,
          List.take_of_length_le small]

end Loop

/-! ## The table -/

theorem foldl_count (entry : Nat × UInt64) (sizes : List Nat) :
    sizes.foldl (fun entry size => (entry.1 + 1, entry.2 + UInt64.ofNat size)) entry =
      (entry.1 + sizes.length, entry.2 + UInt64.ofNat sizes.sum) := by
  induction sizes generalizing entry with
  | nil => simp
  | cons size rest inductionHypothesis =>
      rw [List.foldl_cons, inductionHypothesis, List.length_cons, List.sum_cons, UInt64.ofNat_add]
      simp only [Prod.mk.injEq]
      exact ⟨by omega, by rw [UInt64.add_assoc]⟩

theorem under_category (category : FileCategory) (scanned : List FileInfo) :
    under category (scanned.map fun info => (info.category, info.sizeBytes)) =
      (scanned.filter fun info => info.category = category).map FileInfo.sizeBytes := by
  simp [under, List.filter_map, Function.comp_def]

theorem countCategories_eq (scanned : List FileInfo) :
    countCategories scanned =
      (keys (scanned.map fun info => (info.category, info.sizeBytes))).map fun category =>
        (category, (scanned.filter fun info => info.category = category).length,
          UInt64.ofNat (((scanned.filter fun info => info.category = category).map
            FileInfo.sizeBytes).sum)) := by
  rw [countCategories, collect_eq]
  refine List.map_congr_left fun category _ => ?_
  rw [foldl_count, under_category, List.length_map]
  simp

theorem mostBytes_trans (first second third : FileCategory × Nat × UInt64)
    (before : mostBytes first second = true) (after : mostBytes second third = true) :
    mostBytes first third = true := by
  simp only [mostBytes, decide_eq_true_eq] at before after ⊢
  exact UInt64.le_trans after before

theorem mostBytes_total (first second : FileCategory × Nat × UInt64) :
    (mostBytes first second || mostBytes second first) = true := by
  simp only [mostBytes, Bool.or_eq_true, decide_eq_true_eq]
  exact UInt64.le_total _ _

/-- Every scanned file is counted under its category, and once. -/
structure Tabulates (scanned : List FileInfo) (table : List (FileCategory × Nat × UInt64)) :
    Prop where
  entry : ∀ row ∈ table,
    0 < row.2.1 ∧ row.2.1 = (scanned.filter fun info => info.category = row.1).length ∧
      row.2.2 = UInt64.ofNat (((scanned.filter fun info => info.category = row.1).map
        FileInfo.sizeBytes).sum)
  complete : ∀ info ∈ scanned, ∃ row ∈ table, row.1 = info.category
  distinct : (table.map Prod.fst).Nodup
  total : (table.map fun row => row.2.1).sum = scanned.length
  sorted : table.Pairwise fun first second => second.2.2 ≤ first.2.2

theorem tabulates_sorted (order : Profile.IterationOrder (FileCategory × Nat × UInt64))
    (scanned : List FileInfo) :
    Tabulates scanned ((order.arrange (countCategories scanned)).mergeSort mostBytes) := by
  have same : ((order.arrange (countCategories scanned)).mergeSort mostBytes).Perm
      (countCategories scanned) :=
    (List.mergeSort_perm _ _).trans (order.perm _)
  have table := countCategories_eq scanned
  constructor
  · intro row member
    rw [same.mem_iff, table] at member
    obtain ⟨category, occurs, rfl⟩ := List.mem_map.mp member
    refine ⟨?_, rfl, rfl⟩
    obtain ⟨item, inside, rfl⟩ := List.mem_map.mp (mem_keys_iff.mp occurs)
    obtain ⟨info, scanned, rfl⟩ := List.mem_map.mp inside
    exact List.length_pos_of_mem (List.mem_filter.mpr ⟨scanned, decide_eq_true rfl⟩)
  · intro info member
    refine ⟨_, same.mem_iff.mpr (table ▸ List.mem_map.mpr ⟨info.category, ?_, rfl⟩), rfl⟩
    exact mem_keys_iff.mpr (List.mem_map.mpr ⟨_, List.mem_map.mpr ⟨info, member, rfl⟩, rfl⟩)
  · rw [(same.map Prod.fst).nodup_iff, table, List.map_map]
    simpa [Function.comp_def] using nodup_keys _
  · rw [(same.map fun row => row.2.1).sum_nat, table, List.map_map]
    have sums := sum_under (fun _ => 1)
      (scanned.map fun info => (info.category, info.sizeBytes))
    simpa [under_category, Function.comp_def] using sums
  · refine (List.pairwise_mergeSort mostBytes_trans mostBytes_total _).imp fun before => ?_
    exact of_decide_eq_true before

/-! ## The summary -/

theorem isDuplicate_scanFile {environment : Environment} {path : PathBuf} {info : FileInfo}
    (scanned : scanFile environment path = .ok info) : info.isDuplicate = false := by
  cases read : metadata environment path.bytes with
  | error text =>
      simp only [scanFile, read, withContext, bind, Except.bind] at scanned
      cases scanned
  | ok found =>
      cases inspected : inspect environment path.bytes found.len with
      | error text =>
          simp only [scanFile, read, inspected, withContext, bind, Except.bind] at scanned
          cases scanned
      | ok details =>
          obtain ⟨mimeType, part, full⟩ := details
          simp only [scanFile, read, inspected, withContext, bind, Except.bind] at scanned
          split at scanned <;> cases scanned <;> cases mimeType <;> cases part <;> cases full <;> rfl

variable {environment limit}

theorem isDuplicate_of_mem_successes {walk : FoundWalk} {info : FileInfo}
    (member : info ∈ successes environment walk) : info.isDuplicate = false := by
  obtain ⟨outcome, found, success⟩ := List.mem_filterMap.mp member
  obtain ⟨item, -, came⟩ := List.mem_filterMap.mp found
  cases item with
  | error failure =>
      cases came
      cases success
  | ok entry =>
      simp only [outcome?, Option.ite_none_right_eq_some, Option.some.injEq] at came
      obtain ⟨-, rfl⟩ := came
      cases scanned : scanFile (environment entry.path) entry.path with
      | error error =>
          rw [scanned] at success
          cases success
      | ok result =>
          rw [scanned] at success
          cases success
          exact isDuplicate_scanFile scanned

theorem length_successes_of_item (item : Except WalkError FoundEntry) :
    (successes environment [item]).length ≤ (regularFiles [item]).length ∧
      (failures environment [item] = [] →
        (successes environment [item]).length = (regularFiles [item]).length) := by
  cases item with
  | error failure => simp [successes, failures, outcome?, List.filterMap_cons, success?, failure?]
  | ok entry =>
      cases regular : entry.isFile with
      | false => simp [successes, regularFiles, outcome?, regular, Except.toOption]
      | true =>
          cases scanned : scanFile (environment entry.path) entry.path <;>
            simp [successes, failures, regularFiles, outcome?, regular, scanned,
              List.filterMap_cons, success?, failure?, Except.mapError, Except.toOption]

theorem length_successes (walk : FoundWalk) :
    (successes environment walk).length ≤ (regularFiles walk).length ∧
      (failures environment walk = [] →
        (successes environment walk).length = (regularFiles walk).length) := by
  induction walk with
  | nil => exact ⟨Nat.le_refl 0, fun _ => rfl⟩
  | cons item rest inductionHypothesis =>
      obtain ⟨fewer, same⟩ := inductionHypothesis
      obtain ⟨one, exactly⟩ : (successes environment [item]).length ≤ (regularFiles [item]).length ∧
          (failures environment [item] = [] → (successes environment [item]).length =
            (regularFiles [item]).length) := length_successes_of_item item
      have files : regularFiles (item :: rest) = regularFiles [item] ++ regularFiles rest :=
        List.filter_append [item] rest
      rw [successes_cons, files, failures_cons, List.length_append, List.length_append,
        List.append_eq_nil_iff]
      refine ⟨Nat.add_le_add one fewer, fun ⟨first, later⟩ => ?_⟩
      rw [exactly first, same later]

theorem length_of_met {walk seen : FoundWalk} (met : Met environment limit 0 walk seen)
    (clean : failures environment seen = []) :
    (successes environment seen).length =
      (limit.map fun limit => min limit (regularFiles walk).length).getD
        (regularFiles walk).length := by
  have all : (successes environment seen).length = (regularFiles seen).length :=
    (length_successes seen).2 clean
  cases limit with
  | none =>
      rw [← met.whole]
      exact all
  | some bound =>
      have small : (successes environment seen).length ≤ bound := length_successes_le met rfl
      rw [Option.map_some, Option.getD_some]
      rcases met.whole_or_reached with rfl | reached
      · omega
      · have within : (regularFiles seen).length ≤ (regularFiles walk).length :=
          (met.within.sublist.filter _).length_le
        omega

/-- What a summary says of a walk of which the loop looked at a part. -/
structure Reports (environment : PathBuf → Environment) (limit : Option Nat)
    (counted walk seen : FoundWalk) (summary : ScanSummary) : Prop where
  met : Met environment limit 0 walk seen
  scanned : summary.scanned = successes environment seen
  first : summary.scanned = upToLimit limit (successes environment walk)
  errors : summary.errors = failures environment seen
  result : summary.result = .ok () ↔ failures environment seen = []
  /-- The progress bar's length is right if the tree did not change between the walks. -/
  announced : counted = walk → failures environment seen = [] →
    summary.scanned.length = summary.fileCount
  table : Tabulates summary.scanned summary.categories
  suggestions : summary.suggestions = (withSuggestions summary.scanned).take 10
  more : summary.moreSuggestions = (withSuggestions summary.scanned).length - 10
  duplicates : summary.duplicates = 0

theorem result_eq_ok_iff {summary : ScanSummary} :
    summary.result = .ok () ↔ summary.errors = [] := by
  unfold ScanSummary.result
  split
  next none => exact iff_of_true rfl none
  next some => exact iff_of_false nofun some

/-- A scan of a directory reports the files of the part of the walk its limit leaves it, each
once in its table, and fails exactly if something in that part could not be read. -/
theorem scan_reports_what_it_met (order : Profile.IterationOrder (FileCategory × Nat × UInt64))
    (counted walk : FoundWalk) :
    ∃ summary seen,
      run environment limit order (.directory counted walk) = (some summary, summary.result) ∧
      Reports environment limit counted walk seen summary := by
  obtain ⟨seen, met, collected⟩ : ∃ seen, Met environment limit 0 walk seen ∧
      scanLoop environment limit walk ⟨[], []⟩ =
        ⟨successes environment seen, failures environment seen⟩ :=
    scanLoop_eq walk ⟨[], []⟩
  have scanned : (summarize environment limit order counted walk).scanned =
      successes environment seen := congrArg ScanState.scanned collected
  have errors : (summarize environment limit order counted walk).errors =
      failures environment seen := congrArg ScanState.errors collected
  refine ⟨_, seen, rfl, met, scanned, scanned.trans (successes_of_met met), errors, ?_, ?_, ?_, rfl,
    rfl, ?_⟩
  · rw [result_eq_ok_iff, errors]
  · rintro rfl clean
    rw [scanned]
    exact length_of_met met clean
  · exact tabulates_sorted order _
  · show (List.filter _ (scanLoop environment limit walk ⟨[], []⟩).scanned).length = 0
    rw [collected, List.length_eq_zero_iff, List.filter_eq_nil_iff]
    intro info member marked
    rw [isDuplicate_of_mem_successes member] at marked
    cases marked

end AntiEntropator.Scan
