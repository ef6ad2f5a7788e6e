import AntiEntropator.ChangeLog.Basic
import AntiEntropator.Lakehouse.Catalog
import Mathlib.Order.Lattice

/-!
# Current catalog state per path

The catalog is an append-only observation log.  The last known content of a
path is the `present` observation with the greatest `observed_at`; a path whose
content is the last known one gets no new observation.
-/

namespace AntiEntropator.Ingest

open Lakehouse

structure KnownPath where
  contentHash : String
  observedAt : DateTime
  deriving DecidableEq

/-- Latest `present` observation per relative path for one source. -/
abbrev CurrentState := String → Option KnownPath

structure ObservationRow where
  relativePath : String
  contentHash : String
  observedAt : DateTime
  deriving DecidableEq

inductive PathDecision where
  | observe
  | unchanged
  deriving DecidableEq

/-- Decide for one path; without a state every path is observed. -/
def decide (state : Option CurrentState) (relativePath contentHash : String) : PathDecision :=
  match state.bind fun state => state relativePath with
  | some known => if known.contentHash = contentHash then .unchanged else .observe
  | none => .observe

def noteRow (state : CurrentState) (row : ObservationRow) : CurrentState :=
  let candidate : KnownPath := ⟨row.contentHash, row.observedAt⟩
  match state row.relativePath with
  | some existing =>
      if candidate.observedAt ≤ existing.observedAt then state
      else Function.update state row.relativePath (some candidate)
  | none => Function.update state row.relativePath (some candidate)

/-- Reduce observation rows to the latest per path; ties keep the first. -/
def reduceLatest (rows : List ObservationRow) : CurrentState := rows.foldl noteRow fun _ => none

def fromTimestampMicros (micros : Int) : DateTime := micros * 1000

/-- The observation a catalog row records for a source, if it is a complete
`present` one. -/
def observationRow? (sourceId : String) (row : CatalogRow) : Option ObservationRow :=
  if row.sourceId = some sourceId ∧
      row.observationStatus = some ObservationStatus.present.asStr then
    match row.relativePath, row.contentHash, row.observedAt with
    | some relativePath, some contentHash, some observedAt =>
        some ⟨relativePath, contentHash, fromTimestampMicros observedAt⟩
    | _, _, _ => none
  else none

/-- The rows the current-state query returns. -/
def observationRows (catalog : List CatalogRow) (sourceId : String) : List ObservationRow :=
  catalog.filterMap (observationRow? sourceId)

def loadCurrentState (catalog : List CatalogRow) (sourceId : String) : CurrentState :=
  reduceLatest (observationRows catalog sourceId)

@[simp]
theorem observationRows_append (catalog more : List CatalogRow) (sourceId : String) :
    observationRows (catalog ++ more) sourceId =
      observationRows catalog sourceId ++ observationRows more sourceId := by
  simp [observationRows]

/-! ## The catalog as a change log -/

def ObservationRow.entry (row : ObservationRow) : ChangeLog.Entry String String DateTime :=
  ⟨row.relativePath, row.contentHash, row.observedAt⟩

/-- The observations of a source as a change log: path, content, time. -/
def observationLog (catalog : List CatalogRow) (sourceId : String) :
    List (ChangeLog.Entry String String DateTime) :=
  (observationRows catalog sourceId).map ObservationRow.entry

@[simp]
theorem observationLog_append (catalog more : List CatalogRow) (sourceId : String) :
    observationLog (catalog ++ more) sourceId =
      observationLog catalog sourceId ++ observationLog more sourceId := by
  simp [observationLog]

def KnownPath.ofEntry (entry : ChangeLog.Entry String String DateTime) : KnownPath :=
  ⟨entry.value, entry.time⟩

theorem noteRow_eq_note {state : CurrentState}
    {log : String → Option (ChangeLog.Entry String String DateTime)}
    (same : ∀ path, state path = (log path).map KnownPath.ofEntry) (row : ObservationRow)
    (path : String) :
    noteRow state row path = (ChangeLog.note log row.entry path).map KnownPath.ofEntry := by
  have updated : Function.update state row.relativePath (some ⟨row.contentHash, row.observedAt⟩)
      path =
        (Function.update log row.relativePath (some row.entry) path).map KnownPath.ofEntry := by
    by_cases equal : path = row.relativePath
    · subst path
      simp [KnownPath.ofEntry, ObservationRow.entry]
    · rw [Function.update_of_ne equal, Function.update_of_ne equal, same]
  have slot := same row.relativePath
  cases held : log row.relativePath with
  | none =>
      have fresh : ChangeLog.note log row.entry =
          Function.update log row.relativePath (some row.entry) := by
        simp [ChangeLog.note, ObservationRow.entry, held]
      rw [held, Option.map_none] at slot
      simp only [noteRow, slot, fresh]
      exact updated
  | some entry =>
      rw [held, Option.map_some] at slot
      by_cases older : row.observedAt ≤ entry.time
      · have kept : ChangeLog.note log row.entry = log := by
          simp [ChangeLog.note, ObservationRow.entry, held, older]
        simp only [noteRow, slot, KnownPath.ofEntry, older, if_true, kept]
        exact same path
      · have fresh : ChangeLog.note log row.entry =
            Function.update log row.relativePath (some row.entry) := by
          simp [ChangeLog.note, ObservationRow.entry, held, older]
        simp only [noteRow, slot, KnownPath.ofEntry, older, if_false, fresh]
        exact updated

theorem reduceLatest_eq_latest (rows : List ObservationRow) (path : String) :
    reduceLatest rows path =
      (ChangeLog.latest (rows.map ObservationRow.entry) path).map KnownPath.ofEntry := by
  induction rows using List.reverseRecOn generalizing path with
  | nil => rfl
  | append_singleton rows row inductionHypothesis =>
      have step : reduceLatest (rows ++ [row]) = noteRow (reduceLatest rows) row := by
        simp [reduceLatest]
      rw [step, List.map_append, List.map_singleton, ChangeLog.latest_snoc]
      exact noteRow_eq_note inductionHypothesis row path

/-- On a minimal log the current state of a path is its last observation. -/
theorem loadCurrentState_eq_getLast? {catalog : List CatalogRow} {sourceId : String}
    (minimal : ChangeLog.Minimal (observationLog catalog sourceId)) (path : String) :
    loadCurrentState catalog sourceId path =
      (ChangeLog.history (observationLog catalog sourceId) path).getLast?.map
        KnownPath.ofEntry := by
  unfold loadCurrentState
  rw [reduceLatest_eq_latest, ← ChangeLog.latest_eq_getLast? minimal]
  rfl

theorem decide_eq_observe_iff {state : Option CurrentState} {relativePath contentHash : String} :
    decide state relativePath contentHash = .observe ↔
      ∀ known, (state.bind fun state => state relativePath) = some known →
        known.contentHash ≠ contentHash := by
  unfold decide
  split
  next known found =>
    simp only [found, Option.some.injEq, forall_eq']
    split <;> simp_all
  next absent => simp [absent]

end AntiEntropator.Ingest
