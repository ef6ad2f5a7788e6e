import AntiEntropator.Extremes
import AntiEntropator.Profile.Stats

/-!
# What the statistics of a group say

Count, total and extremes are those of the files that were added, in any order.
The path of the largest file starts out empty and the maximum at zero, so a
group of empty files keeps the empty path.
-/

namespace AntiEntropator.Profile

open Extremes

def totalSize (files : List (UInt64 × String)) : Nat :=
  (files.map fun file => file.1.toNat).sum

namespace GroupStats

def addAll (stats : GroupStats) (files : List (UInt64 × String)) : GroupStats :=
  files.foldl (fun stats file => stats.add file.1 file.2) stats

section AddAll

variable (stats : GroupStats) (files : List (UInt64 × String))

theorem count_addAll : (stats.addAll files).count = stats.count + files.length := by
  induction files generalizing stats with
  | nil => rfl
  | cons file rest inductionHypothesis =>
      have later := inductionHypothesis (stats.add file.1 file.2)
      have added : (stats.add file.1 file.2).count = stats.count + 1 := rfl
      rw [List.length_cons]
      unfold addAll at later ⊢
      rw [List.foldl_cons, later, added]
      omega

theorem totalBytes_addAll (small : stats.totalBytes.toNat + totalSize files < 2 ^ 64) :
    (stats.addAll files).totalBytes.toNat = stats.totalBytes.toNat + totalSize files := by
  induction files generalizing stats with
  | nil => rfl
  | cons file rest inductionHypothesis =>
      have split : totalSize (file :: rest) = file.1.toNat + totalSize rest := by
        simp [totalSize]
      have added : (stats.add file.1 file.2).totalBytes.toNat =
          stats.totalBytes.toNat + file.1.toNat := by
        rw [add, UInt64.toNat_add, Nat.mod_eq_of_lt (by omega)]
      have later := inductionHypothesis (stats.add file.1 file.2) (by omega)
      unfold addAll at later ⊢
      rw [List.foldl_cons, later]
      omega

theorem minBytes_addAll :
    (stats.addAll files).minBytes = (files.map Prod.fst).foldl lower stats.minBytes := by
  induction files generalizing stats with
  | nil => rfl
  | cons file rest inductionHypothesis => exact inductionHypothesis (stats.add file.1 file.2)

theorem largest_addAll :
    ((stats.addAll files).maxBytes, (stats.addAll files).largestPath) =
      files.foldl raise (stats.maxBytes, stats.largestPath) := by
  induction files generalizing stats with
  | nil => rfl
  | cons file rest inductionHypothesis =>
      have step : ((stats.add file.1 file.2).maxBytes, (stats.add file.1 file.2).largestPath) =
          raise (stats.maxBytes, stats.largestPath) file := by
        simp only [add, raise]
        split <;> rfl
      rw [List.foldl_cons, ← step]
      exact inductionHypothesis (stats.add file.1 file.2)

end AddAll

/-- What the statistics say of files of these sizes. -/
structure Describes (stats : GroupStats) (sizes : List UInt64) : Prop where
  count : stats.count = sizes.length
  minBytes : IsLeast {size | size ∈ sizes} stats.minBytes
  maxBytes : IsGreatest {size | size ∈ sizes} stats.maxBytes

theorem le_max (size : UInt64) : size ≤ 0xFFFFFFFFFFFFFFFF := by
  have bound := size.toNat_lt
  rw [UInt64.le_iff_toNat_le]
  exact Nat.le_sub_one_of_lt bound

theorem describes_addAll {files : List (UInt64 × String)} (nonempty : files ≠ []) :
    (new.addAll files).Describes (files.map Prod.fst) := by
  have sizes : files.map Prod.fst ≠ [] := by simpa using nonempty
  obtain ⟨-, bounded⟩ := le_foldl_raise (new.maxBytes, new.largestPath) files
  have maximum : (new.addAll files).maxBytes =
      (files.foldl raise (new.maxBytes, new.largestPath)).1 :=
    congrArg Prod.fst (largest_addAll new files)
  refine ⟨?_, ?_, ?_, ?_⟩
  · rw [count_addAll, List.length_map]
    exact Nat.zero_add _
  · rw [minBytes_addAll]
    exact isLeast_foldl_lower sizes fun size _ => le_max size
  · rcases foldl_raise_cases (new.maxBytes, new.largestPath) files with
      ⟨same, zero⟩ | ⟨-, found⟩
    · -- nothing beats zero, so all files are empty
      obtain ⟨file, rest, rfl⟩ := List.exists_cons_of_ne_nil nonempty
      have empty : file.1 = 0 := UInt64.le_zero_iff.mp (zero file List.mem_cons_self)
      rw [maximum, same]
      exact List.mem_map.mpr ⟨file, List.mem_cons_self, empty⟩
    · rw [maximum]
      exact List.mem_map_of_mem (List.mem_of_find?_eq_some found)
  · rintro size member
    obtain ⟨file, inside, rfl⟩ := List.mem_map.mp member
    rw [maximum]
    exact bounded file inside

theorem finalize_of_count {stats : GroupStats} (filled : stats.count ≠ 0) :
    stats.finalize = stats := if_neg filled

theorem finalize_addAll {files : List (UInt64 × String)} (nonempty : files ≠ []) :
    (new.addAll files).finalize = new.addAll files := by
  apply finalize_of_count
  rw [count_addAll]
  simpa [new] using nonempty

/-- The path that is kept: of the first file of the largest size, unless all files
are empty. -/
theorem largestPath_addAll (files : List (UInt64 × String)) :
    (∀ file ∈ files, file.1 = 0) ∧ (new.addAll files).maxBytes = 0 ∧
        (new.addAll files).largestPath = "" ∨
      (∃ file ∈ files, 0 < file.1) ∧
        (files.find? fun file => file.1 = (new.addAll files).maxBytes) =
          some ((new.addAll files).maxBytes, (new.addAll files).largestPath) := by
  have kept := largest_addAll new files
  rcases foldl_raise_cases (new.maxBytes, new.largestPath) files with
    ⟨same, zero⟩ | ⟨positive, found⟩
  · left
    obtain ⟨maximum, path⟩ := Prod.mk.inj (kept.trans same)
    exact ⟨fun file member => UInt64.le_zero_iff.mp (zero file member), maximum, path⟩
  · right
    rw [← kept] at positive found
    refine ⟨⟨_, List.mem_of_find?_eq_some found, positive⟩, found⟩

end GroupStats

/-- Minimum and maximum are those of the files that were added; the path is that of
the first largest file exactly if some file is not empty, or the first has no path. -/
theorem largest_path_names_a_largest_file_iff (calls : List (UInt64 × String))
    (nonempty : calls ≠ []) :
    (IsLeast {size | size ∈ calls.map Prod.fst} (GroupStats.new.addAll calls).minBytes ∧
      IsGreatest {size | size ∈ calls.map Prod.fst} (GroupStats.new.addAll calls).maxBytes ∧
      (calls.find? fun call => call.1 = (GroupStats.new.addAll calls).maxBytes).map Prod.snd =
        some (GroupStats.new.addAll calls).largestPath ∧
      (GroupStats.new.addAll calls).finalize = GroupStats.new.addAll calls) ↔
    (∃ call ∈ calls, 0 < call.1) ∨ ∀ first ∈ calls.head?, first.2 = "" := by
  have described := GroupStats.describes_addAll nonempty
  have finalized := GroupStats.finalize_addAll nonempty
  rcases GroupStats.largestPath_addAll calls with ⟨empty, maximum, path⟩ | ⟨positive, found⟩
  · obtain ⟨first, rest, rfl⟩ := List.exists_cons_of_ne_nil nonempty
    have zero : first.1 = 0 := empty first List.mem_cons_self
    have notPositive : ¬ ∃ call ∈ first :: rest, 0 < call.1 := by
      rintro ⟨call, member, positive⟩
      rw [empty call member] at positive
      exact absurd positive (by decide)
    have found : (first :: rest).find? (fun call =>
        call.1 = (GroupStats.new.addAll (first :: rest)).maxBytes) = some first :=
      List.find?_cons_of_pos (by simp [maximum, zero])
    rw [found, path]
    constructor
    · rintro ⟨-, -, same, -⟩
      right
      rintro _ ⟨⟩
      exact Option.some.inj same
    · intro condition
      refine ⟨described.minBytes, described.maxBytes, ?_, finalized⟩
      exact congrArg some (condition.resolve_left notPositive first rfl)
  · refine iff_of_true ⟨described.minBytes, described.maxBytes, ?_, finalized⟩ (.inl positive)
    rw [found]
    rfl

theorem largest_path_names_a_largest_file_iff_ties :
    ([(7, "/data/b"), (9, "/data/c"), (9, "/data/d")].find? fun call : UInt64 × String =>
      call.1 = (GroupStats.new.addAll
        [(7, "/data/b"), (9, "/data/c"), (9, "/data/d")]).maxBytes).map Prod.snd =
      some (GroupStats.new.addAll
        [(7, "/data/b"), (9, "/data/c"), (9, "/data/d")]).largestPath :=
  ((largest_path_names_a_largest_file_iff [(7, "/data/b"), (9, "/data/c"), (9, "/data/d")]
    (by decide)).mpr (.inl ⟨(7, "/data/b"), by decide, by decide⟩)).2.2.1

/-- A group of one empty file names no file. -/
theorem empty_file_has_no_largest_path :
    (GroupStats.new.addAll [(0, "/data/empty.log")]).largestPath = "" ∧
      ¬ ∀ calls : List (UInt64 × String), calls ≠ [] →
        (calls.find? fun call => call.1 = (GroupStats.new.addAll calls).maxBytes).map Prod.snd =
          some (GroupStats.new.addAll calls).largestPath := by
  refine ⟨by decide, fun names => ?_⟩
  exact absurd (names [(0, "/data/empty.log")] (by decide)) (by decide)

end AntiEntropator.Profile
