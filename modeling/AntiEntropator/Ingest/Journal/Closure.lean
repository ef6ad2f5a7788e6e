import AntiEntropator.Ingest.Journal

/-!
# Closure entries

A later run appends closure entries to a journal that is not its own.  They say
nothing about the rows of the run, and the first of them settles its outcome.
-/

namespace AntiEntropator.Ingest

namespace RunJournal

def pushAll (journal : RunJournal) (entries : List Transition) : RunJournal :=
  entries.foldl (fun journal entry => journal.push entry.state entry.«at») journal

/-- What a closure makes of an outcome. -/
def settled : RunOutcome → RunOutcome
  | .completed => .completed
  | .incomplete => .incomplete
  | _ => .reconciled

section Closure

variable {journal : RunJournal} {closure : RunState} (closes : closure.isClosure = true)
  (now : DateTime)
include closes

theorem lastOwn_push_closure : (journal.push closure now).lastOwn = journal.lastOwn := by
  rw [push_lastOwn, if_pos closes]

theorem isClosed_push_closure : (journal.push closure now).isClosed = true := by
  rw [push_isClosed, closes, Bool.or_true]

theorem rowsCommitted_push_closure :
    (journal.push closure now).rowsCommitted = journal.rowsCommitted := by
  unfold rowsCommitted
  rw [push_states, List.filterMap_append]
  cases closure with
  | reconciled => simp
  | supersededBy => simp
  | _ => cases closes

theorem batchesCommitted_push_closure :
    (journal.push closure now).batchesCommitted = journal.batchesCommitted := by
  unfold batchesCommitted
  rw [push_states, List.filter_append]
  cases closure with
  | reconciled => simp
  | supersededBy => simp
  | _ => cases closes

theorem outcome_push_closure :
    (journal.push closure now).outcome = settled journal.outcome := by
  have last : (journal.push closure now).lastOwn = journal.lastOwn :=
    lastOwn_push_closure closes now
  have closed : (journal.push closure now).isClosed = true := isClosed_push_closure closes now
  unfold outcome
  rw [last, closed]
  cases journal.lastOwn <;> cases journal.isClosed <;> rfl

theorem isOpen_push_closure : (journal.push closure now).isOpen = false := by
  unfold isOpen
  rw [outcome_push_closure closes now]
  cases journal.outcome <;> rfl

end Closure

theorem settled_of_isClosed {journal : RunJournal} (closed : journal.isClosed = true) :
    settled journal.outcome = journal.outcome := by
  unfold outcome
  rw [closed]
  cases journal.lastOwn <;> rfl

/-- Once a journal is closed, more closures change nothing about the outcome. -/
theorem outcome_pushAll {journal : RunJournal} (closed : journal.isClosed = true)
    {later : List Transition} (closures : ∀ entry ∈ later, entry.state.isClosure = true) :
    (journal.pushAll later).outcome = journal.outcome := by
  induction later generalizing journal with
  | nil => rfl
  | cons entry rest inductionHypothesis =>
      obtain ⟨first, others⟩ := List.forall_mem_cons.mp closures
      have still : (journal.push entry.state entry.«at»).isClosed = true :=
        isClosed_push_closure first entry.«at»
      refine (inductionHypothesis still others).trans ?_
      rw [outcome_push_closure first, settled_of_isClosed closed]

theorem lastOwn_of_not_isClosed {journal : RunJournal} (own : journal.isClosed = false) :
    journal.lastOwn = journal.states.getLast?.getD .started := by
  have none : ∀ state ∈ journal.states, (!state.isClosure) = true := by
    intro state member
    have each := List.any_eq_false.mp own state member
    simpa using each
  unfold lastOwn
  rw [List.getLast?_eq_head?_reverse]
  cases history : journal.states.reverse with
  | nil => rfl
  | cons last before =>
      have member : last ∈ journal.states := by
        rw [← List.mem_reverse, history]
        exact List.mem_cons_self
      have found : (last :: before).find? (fun state => !state.isClosure) = some last :=
        List.find?_cons_of_pos (none last member)
      rw [found]
      rfl

end RunJournal

/-- Whatever a journal's history, a closure leaves what the run itself wrote alone and
settles the outcome for good; without one, a journal is open unless its last entry
completes it. -/
theorem closures_only_close (journal : RunJournal) :
    (∀ closure now, closure.isClosure = true →
      (journal.push closure now).lastOwn = journal.lastOwn ∧
      (journal.push closure now).rowsCommitted = journal.rowsCommitted ∧
      (journal.push closure now).batchesCommitted = journal.batchesCommitted ∧
      (journal.push closure now).isOpen = false ∧
      (journal.outcome = .completed ∨ journal.outcome = .incomplete →
        (journal.push closure now).outcome = journal.outcome) ∧
      (journal.outcome ≠ .completed → journal.outcome ≠ .incomplete →
        (journal.push closure now).outcome = .reconciled)) ∧
    (journal.states.any RunState.isClosure = true → ∀ later : List Transition,
      (∀ entry ∈ later, entry.state.isClosure = true) →
        (journal.pushAll later).outcome = journal.outcome) ∧
    (journal.states.any RunState.isClosure = false →
      (journal.isOpen = true ↔ ∀ last, journal.states.getLast? = some last →
        last ≠ .completed ∧ ∀ failed, last ≠ .incomplete failed)) := by
  refine ⟨?_, ?_, ?_⟩
  · intro closure now closes
    have outcome : (journal.push closure now).outcome = RunJournal.settled journal.outcome :=
      RunJournal.outcome_push_closure closes now
    refine ⟨RunJournal.lastOwn_push_closure closes now,
      RunJournal.rowsCommitted_push_closure closes now,
      RunJournal.batchesCommitted_push_closure closes now,
      RunJournal.isOpen_push_closure closes now, ?_, ?_⟩
    · rintro (done | done) <;> rw [outcome, done] <;> rfl
    · intro notCompleted notIncomplete
      rw [outcome]
      cases state : journal.outcome with
      | completed => exact absurd state notCompleted
      | incomplete => exact absurd state notIncomplete
      | _ => rfl
  · intro closed later closures
    exact RunJournal.outcome_pushAll closed closures
  · intro own
    have last := RunJournal.lastOwn_of_not_isClosed own
    have unclosed : journal.isClosed = false := own
    rw [RunJournal.isOpen_iff, last, unclosed]
    cases journal.states.getLast? with
    | none => simp
    | some state => simp

end AntiEntropator.Ingest
