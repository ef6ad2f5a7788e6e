import AntiEntropator.ChangeLog.Latest
import AntiEntropator.Ingest.State.Reader

/-!
# Reducing observation rows

`reduce_latest` as the reduction of a change log: which row it keeps for a
path, and when the order and the splitting of the rows do not matter.
-/

namespace AntiEntropator.Ingest

open Lakehouse

/-- What the current state keeps of a row. -/
def ObservationRow.known (row : ObservationRow) : KnownPath := ⟨row.contentHash, row.observedAt⟩

/-- The row is one of the path's with the greatest `observed_at`. -/
def ObservationRow.IsLatest (row : ObservationRow) (rows : List ObservationRow) (path : String) :
    Prop :=
  row.relativePath = path ∧
    ∀ other ∈ rows, other.relativePath = path → other.observedAt ≤ row.observedAt

instance (row : ObservationRow) (rows : List ObservationRow) (path : String) :
    Decidable (row.IsLatest rows path) := inferInstanceAs (Decidable (_ ∧ _))

/-- The first of the latest rows in input order. -/
def firstLatest? (rows : List ObservationRow) (path : String) : Option ObservationRow :=
  rows.find? fun row => Decidable.decide (row.IsLatest rows path)

/-- Two states merged by greater `observed_at`; ties keep the left one. -/
def CurrentState.merge (left right : CurrentState) : CurrentState := fun path =>
  match left path, right path with
  | some held, some other => if other.observedAt ≤ held.observedAt then some held else some other
  | some held, none => some held
  | none, other => other

/-- Rows of one path and time record the same content. -/
def Unambiguous (rows : List ObservationRow) : Prop :=
  ∀ first ∈ rows, ∀ second ∈ rows, first.relativePath = second.relativePath →
    first.observedAt = second.observedAt → first.contentHash = second.contentHash

/-! ## Rows as entries -/

theorem newest_entry_iff {rows : List ObservationRow} {row : ObservationRow} {path : String} :
    ChangeLog.Newest (rows.map ObservationRow.entry) path row.entry ↔ row.IsLatest rows path := by
  simp [ChangeLog.Newest, ObservationRow.IsLatest, ObservationRow.entry]

theorem consistent_entries {rows : List ObservationRow} (unambiguous : Unambiguous rows) :
    ChangeLog.Consistent (rows.map ObservationRow.entry) := by
  intro first left second right key time
  obtain ⟨row, member, rfl⟩ := List.mem_map.mp left
  obtain ⟨other, present, rfl⟩ := List.mem_map.mp right
  exact unambiguous row member other present key time

theorem reduceLatest_eq_firstLatest? (rows : List ObservationRow) (path : String) :
    reduceLatest rows path = (firstLatest? rows path).map ObservationRow.known := by
  rw [reduceLatest_eq_latest, ChangeLog.latest_eq_find?, List.find?_map]
  have same : (fun row : ObservationRow => Decidable.decide (row.IsLatest rows path)) =
      (fun entry => Decidable.decide
        (ChangeLog.Newest (rows.map ObservationRow.entry) path entry)) ∘ ObservationRow.entry :=
    funext fun row => decide_eq_decide.mpr newest_entry_iff.symm
  rw [firstLatest?, same, Option.map_map]
  rfl

theorem reduceLatest_isSome_iff (rows : List ObservationRow) (path : String) :
    (reduceLatest rows path).isSome = true ↔ path ∈ rows.map ObservationRow.relativePath := by
  rw [reduceLatest_eq_latest, Option.isSome_map, ← not_iff_not, Bool.not_eq_true,
    Option.isSome_eq_false_iff, Option.isNone_iff_eq_none, ChangeLog.latest_eq_none_iff]
  simp [ObservationRow.entry]

theorem reduceLatest_append (first second : List ObservationRow) :
    reduceLatest (first ++ second) =
      CurrentState.merge (reduceLatest first) (reduceLatest second) := by
  funext path
  simp only [CurrentState.merge, reduceLatest_eq_latest, List.map_append, ChangeLog.latest_append]
  cases ChangeLog.latest (first.map ObservationRow.entry) path with
  | none => rfl
  | some held =>
      cases ChangeLog.latest (second.map ObservationRow.entry) path with
      | none => rfl
      | some other =>
          simp only [ChangeLog.newer, Option.map_some, KnownPath.ofEntry]
          split <;> rfl

theorem reduceLatest_perm {rows permuted : List ObservationRow} (unambiguous : Unambiguous rows)
    (same : permuted.Perm rows) : reduceLatest permuted = reduceLatest rows := by
  funext path
  rw [reduceLatest_eq_latest, reduceLatest_eq_latest,
    ChangeLog.latest_perm (consistent_entries unambiguous) (same.map _)]

/-- A path is unchanged exactly for the content of its first latest row. -/
theorem decide_eq_unchanged_iff {rows : List ObservationRow} {path contentHash : String} :
    decide (some (reduceLatest rows)) path contentHash = .unchanged ↔
      ∃ row, firstLatest? rows path = some row ∧ row.contentHash = contentHash := by
  unfold decide
  rw [Option.bind_some, reduceLatest_eq_firstLatest?]
  cases firstLatest? rows path with
  | none => simp
  | some row => simp [ObservationRow.known]

theorem firstLatest?_of_isLatest {rows : List ObservationRow} {row : ObservationRow}
    {path : String} (member : row ∈ rows) (latest : row.IsLatest rows path) :
    ∃ first ∈ rows, firstLatest? rows path = some first ∧ first.IsLatest rows path := by
  cases found : firstLatest? rows path with
  | none =>
      have none := List.find?_eq_none.mp found row member
      exact absurd latest (by simpa using none)
  | some first =>
      exact ⟨first, List.mem_of_find?_eq_some found, rfl, by simpa using List.find?_some found⟩

theorem decide_eq_unchanged_iff_isLatest {rows : List ObservationRow} {path contentHash : String}
    (unambiguous : Unambiguous rows) :
    decide (some (reduceLatest rows)) path contentHash = .unchanged ↔
      ∃ row ∈ rows, row.IsLatest rows path ∧ row.contentHash = contentHash := by
  rw [decide_eq_unchanged_iff]
  constructor
  · rintro ⟨row, found, content⟩
    exact ⟨row, List.mem_of_find?_eq_some found, by simpa using List.find?_some found, content⟩
  · rintro ⟨row, member, latest, rfl⟩
    obtain ⟨first, present, found, newest⟩ := firstLatest?_of_isLatest member latest
    have time := le_antisymm (latest.2 first present newest.1) (newest.2 row member latest.1)
    exact ⟨first, found, unambiguous first present row member
      (newest.1.trans latest.1.symm) time⟩

/-- Current-state reduction: its keys, the row it keeps, and its independence
of order and splitting where no two rows of a path conflict at one time. -/
theorem current_state_reduction (rows : List ObservationRow) :
    (∀ path, (reduceLatest rows path).isSome = true ↔
        path ∈ rows.map ObservationRow.relativePath) ∧
      (∀ path, reduceLatest rows path = (firstLatest? rows path).map ObservationRow.known) ∧
      (∀ first second, reduceLatest (first ++ second) =
        CurrentState.merge (reduceLatest first) (reduceLatest second)) ∧
      (Unambiguous rows →
        (∀ permuted, permuted.Perm rows → reduceLatest permuted = reduceLatest rows) ∧
        (∀ castText batches parts, List.Forall₂ HoldsRows batches parts →
          (∀ row ∈ parts.flatten, row.InRange) →
          (parts.flatten.filterMap ProjectedRow.complete?).Perm rows →
          (rowsFromBatches castText batches).map reduceLatest = .ok (reduceLatest rows)) ∧
        ∀ path contentHash, decide (some (reduceLatest rows)) path contentHash = .unchanged ↔
          ∃ row ∈ rows, row.IsLatest rows path ∧ row.contentHash = contentHash) := by
  refine ⟨reduceLatest_isSome_iff rows, reduceLatest_eq_firstLatest? rows, reduceLatest_append, ?_⟩
  intro unambiguous
  refine ⟨fun permuted same => reduceLatest_perm unambiguous same, ?_, ?_⟩
  · intro castText batches parts holds inRange same
    rw [rowsFromBatches_of_holds castText holds inRange, ← reduceLatest_perm unambiguous same]
    rfl
  · exact fun path contentHash => decide_eq_unchanged_iff_isLatest unambiguous

theorem a_b_a_yields_a :
    decide (some (reduceLatest [⟨"a", "h1", 10⟩, ⟨"a", "h2", 20⟩, ⟨"a", "h1", 30⟩])) "a" "h1" =
      .unchanged := by
  obtain ⟨-, -, -, ordered⟩ :=
    current_state_reduction [⟨"a", "h1", 10⟩, ⟨"a", "h2", 20⟩, ⟨"a", "h1", 30⟩]
  have unambiguous : Unambiguous [⟨"a", "h1", 10⟩, ⟨"a", "h2", 20⟩, ⟨"a", "h1", 30⟩] := by
    simp [Unambiguous]
  exact ((ordered unambiguous).2.2 "a" "h1").mpr ⟨⟨"a", "h1", 30⟩, by decide, by decide, rfl⟩

end AntiEntropator.Ingest
