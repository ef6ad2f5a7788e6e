import AntiEntropator.Domain.FileInfo
import Mathlib.Data.List.AList

/-!
# Durable ingest-run journal

One object per run, rewritten with its full history on every transition.  A
journal whose last own entry is not terminal is an interrupted run; a failed
commit is open too, until a later run closes the journal.
-/

namespace AntiEntropator.Ingest

/-- One lifecycle transition.  Closure states are appended by a later run. -/
inductive RunState where
  | started
  | committing (batch : Nat)
  | batchCommitted (batch rows : Nat)
  | completed
  | incomplete (failed : Nat)
  | commitFailed (batch : Nat)
  | reconciled (rowsInCatalog : Nat)
  | supersededBy (runId : Uuid)
  deriving DecidableEq

def RunState.isClosure : RunState → Bool
  | .reconciled _ | .supersededBy _ => true
  | _ => false

structure Transition where
  «at» : DateTime
  state : RunState
  deriving DecidableEq

/-- What the journal says about a run as a whole. -/
inductive RunOutcome where
  | completed
  | incomplete
  | commitFailed
  | interrupted
  | reconciled
  deriving DecidableEq

structure RunJournal where
  formatVersion : Nat
  runId : Uuid
  sourceId : String
  startedAt : DateTime
  updatedAt : DateTime
  candidates : Nat
  history : List Transition
  deriving DecidableEq

def journalFormatVersion : Nat := 1

namespace RunJournal

def new (runId : Uuid) (sourceId : String) (candidates : Nat) (now : DateTime) : RunJournal where
  formatVersion := journalFormatVersion
  runId := runId
  sourceId := sourceId
  startedAt := now
  updatedAt := now
  candidates := candidates
  history := [⟨now, .started⟩]

def push (journal : RunJournal) (state : RunState) (now : DateTime) : RunJournal :=
  { journal with updatedAt := now, history := journal.history ++ [⟨now, state⟩] }

def states (journal : RunJournal) : List RunState := journal.history.map Transition.state

/-- Last entry written by the run itself. -/
def lastOwn (journal : RunJournal) : RunState :=
  (journal.states.reverse.find? fun state => !state.isClosure).getD .started

def isClosed (journal : RunJournal) : Bool := journal.states.any RunState.isClosure

def outcome (journal : RunJournal) : RunOutcome :=
  match journal.lastOwn with
  | .completed => .completed
  | .incomplete _ => .incomplete
  | .commitFailed _ => if journal.isClosed then .reconciled else .commitFailed
  | _ => if journal.isClosed then .reconciled else .interrupted

/-- Outcome unknown, and no later run has closed the journal yet. -/
def isOpen (journal : RunJournal) : Bool :=
  match journal.outcome with
  | .interrupted | .commitFailed => true
  | _ => false

/-- Rows the run itself recorded as committed. -/
def rowsCommitted (journal : RunJournal) : Nat :=
  (journal.states.filterMap fun
    | .batchCommitted _ rows => some rows
    | _ => none).sum

def batchesCommitted (journal : RunJournal) : Nat :=
  (journal.states.filter fun
    | .batchCommitted _ _ => true
    | _ => false).length

section Push

variable (journal : RunJournal) (state : RunState) (now : DateTime)

@[simp] theorem push_runId : (journal.push state now).runId = journal.runId := rfl
@[simp] theorem push_sourceId : (journal.push state now).sourceId = journal.sourceId := rfl

@[simp]
theorem push_history : (journal.push state now).history = journal.history ++ [⟨now, state⟩] := rfl

@[simp]
theorem push_states : (journal.push state now).states = journal.states ++ [state] := by
  simp [states]

@[simp]
theorem push_lastOwn :
    (journal.push state now).lastOwn = if state.isClosure then journal.lastOwn else state := by
  cases closure : state.isClosure <;> simp [lastOwn, closure]

@[simp]
theorem push_isClosed :
    (journal.push state now).isClosed = (journal.isClosed || state.isClosure) := by
  simp [isClosed]

end Push

theorem isOpen_iff {journal : RunJournal} :
    journal.isOpen = true ↔ journal.isClosed = false ∧ journal.lastOwn ≠ .completed ∧
      ∀ failed, journal.lastOwn ≠ .incomplete failed := by
  cases closed : journal.isClosed <;> cases last : journal.lastOwn <;>
    simp [isOpen, outcome, closed, last]

theorem rowsCommitted_le_of_prefix {first second : RunJournal}
    (shorter : first.history <+: second.history) : first.rowsCommitted ≤ second.rowsCommitted := by
  obtain ⟨rest, split⟩ := shorter
  simp only [rowsCommitted, states, ← split, List.map_append, List.filterMap_append,
    List.sum_append_nat]
  omega

end RunJournal

/-- The journals of the bucket, by run. -/
abbrev JournalStore := AList fun _ : Uuid => RunJournal

/-- `list`, sorted: newest first; the sort is stable. -/
def newestFirst (journals : List RunJournal) : List RunJournal :=
  journals.mergeSort fun first second => Decidable.decide (second.startedAt ≤ first.startedAt)

def openRunsFor (journals : List RunJournal) (sourceId : String) : List RunJournal :=
  (newestFirst journals).filter fun journal => journal.sourceId = sourceId ∧ journal.isOpen

theorem mem_openRunsFor_iff {journals : List RunJournal} {sourceId : String}
    {journal : RunJournal} : journal ∈ openRunsFor journals sourceId ↔
      journal ∈ journals ∧ journal.sourceId = sourceId ∧ journal.isOpen = true := by
  simp [openRunsFor, newestFirst]

theorem newestFirst_perm (journals : List RunJournal) : (newestFirst journals).Perm journals :=
  List.mergeSort_perm _ _

theorem nodup_openRunsFor {journals : List RunJournal}
    (distinct : (journals.map RunJournal.runId).Nodup) (sourceId : String) :
    ((openRunsFor journals sourceId).map RunJournal.runId).Nodup := by
  have sorted : ((newestFirst journals).map RunJournal.runId).Nodup :=
    ((newestFirst_perm journals).map _).nodup_iff.mpr distinct
  exact sorted.sublist (List.filter_sublist.map _)

end AntiEntropator.Ingest
