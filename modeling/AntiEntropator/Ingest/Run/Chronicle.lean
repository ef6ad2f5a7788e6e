import AntiEntropator.Ingest.Run.Rows

/-!
# What a run writes about itself

The states of a run's own journal, related at every moment to what its commit
call is doing and to the rows the catalog holds for it.
-/

namespace AntiEntropator.Ingest

open Lakehouse

/-! ## The language of a run's own entries -/

/-- The entries of batches that were acknowledged with these sizes. -/
def batchEntries (sizes : List Nat) : List RunState :=
  (sizes.zipIdx 1).flatMap fun (rows, batch) => [.committing batch, .batchCommitted batch rows]

/-- A run that has committed batches of these sizes. -/
def ownWord (sizes : List Nat) : List RunState := .started :: batchEntries sizes

@[simp]
theorem batchEntries_nil : batchEntries [] = [] := rfl

theorem batchEntries_snoc (sizes : List Nat) (rows : Nat) :
    batchEntries (sizes ++ [rows]) = batchEntries sizes ++
      [.committing (sizes.length + 1), .batchCommitted (sizes.length + 1) rows] := by
  simp [batchEntries, List.zipIdx_append, Nat.add_comm]

theorem ownWord_snoc (sizes : List Nat) (rows : Nat) :
    ownWord (sizes ++ [rows]) = ownWord sizes ++
      [.committing (sizes.length + 1), .batchCommitted (sizes.length + 1) rows] := by
  simp [ownWord, batchEntries_snoc]

def recordedRows (states : List RunState) : Nat :=
  (states.filterMap fun
    | .batchCommitted _ rows => some rows
    | _ => none).sum

theorem rowsCommitted_eq (journal : RunJournal) :
    journal.rowsCommitted = recordedRows journal.states := rfl

@[simp]
theorem recordedRows_append (first second : List RunState) :
    recordedRows (first ++ second) = recordedRows first + recordedRows second := by
  simp [recordedRows]

@[simp]
theorem recordedRows_ownWord (sizes : List Nat) : recordedRows (ownWord sizes) = sizes.sum := by
  induction sizes using List.reverseRecOn with
  | nil => rfl
  | append_singleton sizes rows inductionHypothesis =>
      rw [ownWord_snoc, recordedRows_append, inductionHypothesis]
      simp [recordedRows]

def RunState.isTerminal : RunState → Bool
  | .completed | .incomplete _ | .commitFailed _ => true
  | _ => false

theorem ownWord_plain (sizes : List Nat) :
    ∀ state ∈ ownWord sizes, state.isClosure = false ∧ state.isTerminal = false := by
  induction sizes using List.reverseRecOn with
  | nil =>
      intro state member
      rw [List.mem_singleton.mp member]
      exact ⟨rfl, rfl⟩
  | append_singleton sizes rows inductionHypothesis =>
      intro state member
      rw [ownWord_snoc] at member
      rcases List.mem_append.mp member with old | new
      · exact inductionHypothesis state old
      · simp only [List.mem_cons, List.not_mem_nil, or_false] at new
        rcases new with rfl | rfl <;> exact ⟨rfl, rfl⟩

/-! ## The run and its journal -/

/-- No request is on its way, and the catalog holds what was acknowledged. -/
def Settled (run : Run) (acknowledged landed : Nat) : Prop :=
  (∀ request, run.request = some request → request.status ≠ .inFlight) ∧ landed = acknowledged

/-- A request is not acknowledged; the catalog may hold its batch. -/
def Outstanding (run : Run) (rows : List FileInfo) (acknowledged landed : Nat) : Prop :=
  rows ≠ [] ∧ rows.length ≤ run.plan.pipeline.batchSize ∧
    ∃ status, run.request = some ⟨filesToBatch rows, status⟩ ∧
      landed = acknowledged + if status = .applied then rows.length else 0

/-- A batch whose commit failed: it was not sent, or its fate is unknown. -/
def Unresolved (run : Run) (acknowledged landed : Nat) : Prop :=
  Settled run acknowledged landed ∨ ∃ rows, Outstanding run rows acknowledged landed

def Quiet (run : Run) (states : List RunState) (landed : Nat) (sizes : List Nat) : Prop :=
  states = ownWord sizes ∧ run.batches = sizes.length ∧ Settled run sizes.sum landed

def Announced (run : Run) (states : List RunState) (sizes : List Nat) : Prop :=
  states = ownWord sizes ++ [.committing (sizes.length + 1)] ∧ run.batches = sizes.length + 1

/-- The states of a run that has not ended, by the stage of its writer, after
acknowledged batches of these sizes; `landed` rows of the run are in the
catalog. -/
def OngoingAt (run : Run) (states : List RunState) (landed : Nat) (sizes : List Nat) :
    Pipeline.Writer CommitCall → Prop
  | .receiving _ | .returned none => Quiet run states landed sizes
  | .committing rows call _ =>
      match call.phase with
      | .entered => Quiet run states landed sizes
      | .savingCommitting batch | .committing batch =>
          batch = sizes.length + 1 ∧ Announced run states sizes ∧ Settled run sizes.sum landed
      | .requested batch =>
          batch = sizes.length + 1 ∧ Announced run states sizes ∧
            Outstanding run rows sizes.sum landed
      | .savingCommitted | .returned (.ok _) =>
          states = ownWord (sizes ++ [rows.length]) ∧ run.batches = sizes.length + 1 ∧
            run.request = some ⟨filesToBatch rows, .applied⟩ ∧
            Outstanding run rows sizes.sum landed
      | .returned (.error _) => Announced run states sizes ∧ Unresolved run sizes.sum landed
  | .returned (some _) => Announced run states sizes ∧ Unresolved run sizes.sum landed

def Ongoing (run : Run) (states : List RunState) (landed : Nat) : Prop :=
  ∃ sizes, run.pipe.commit.batchesCommitted = sizes.length ∧
    OngoingAt run states landed sizes run.pipe.writer

/-- The states of a run that has written its terminal entry. -/
def Over (run : Run) (states : List RunState) (landed : Nat) : Prop :=
  ∃ sizes,
    (∃ terminal, states = ownWord sizes ++ [terminal] ∧
      (terminal = .completed ∨ ∃ failed, terminal = .incomplete failed) ∧
      Settled run sizes.sum landed) ∨
    (states = ownWord sizes ++
        [.committing (sizes.length + 1), .commitFailed (sizes.length + 1)] ∧
      Unresolved run sizes.sum landed)

def Ended : RunPhase → Prop
  | .recording _ | .superseding _ _ | .exited (some _) _ => True
  | _ => False

/-- The journal fits what the run has done, whatever it does next. -/
def Chronicle (run : Run) (states : List RunState) (landed : Nat) : Prop :=
  (run.phase = .ingesting ∨ run.phase = .killed) ∧ Ongoing run states landed ∨
    (Ended run.phase ∨ run.phase = .killed) ∧ Over run states landed

/-! ## Steps -/

section Requests

variable {run : Run} {states : List RunState} {acknowledged landed : Nat}
  {rows : List CatalogRow}

theorem Settled.not_inFlight (settled : Settled run acknowledged landed)
    (flying : run.request = some ⟨rows, .inFlight⟩) : False :=
  settled.1 _ flying rfl

theorem Outstanding.land {batch : List FileInfo}
    (outstanding : Outstanding run batch acknowledged landed)
    (flying : run.request = some ⟨rows, .inFlight⟩) :
    Outstanding { run with request := some ⟨rows, .applied⟩ } batch acknowledged
      (landed + rows.length) := by
  obtain ⟨nonempty, bounded, status, request, count⟩ := outstanding
  rw [flying, Option.some.injEq, Request.mk.injEq] at request
  obtain ⟨rfl, rfl⟩ := request
  refine ⟨nonempty, bounded, .applied, rfl, ?_⟩
  simp [count, filesToBatch]

theorem Outstanding.lose {batch : List FileInfo}
    (outstanding : Outstanding run batch acknowledged landed)
    (flying : run.request = some ⟨rows, .inFlight⟩) :
    Outstanding { run with request := some ⟨rows, .lost⟩ } batch acknowledged landed := by
  obtain ⟨nonempty, bounded, status, request, count⟩ := outstanding
  rw [flying, Option.some.injEq, Request.mk.injEq] at request
  obtain ⟨rfl, rfl⟩ := request
  exact ⟨nonempty, bounded, .lost, rfl, count⟩

/-- The fate of a request that is in flight concerns an unresolved batch only. -/
theorem Chronicle.resolve {status : RequestStatus} {later : Nat}
    (chronicle : Chronicle run states landed)
    (flying : run.request = some ⟨rows, .inFlight⟩)
    (resolved : ∀ (batch : List FileInfo) (acknowledged : Nat),
      Outstanding run batch acknowledged landed →
      Outstanding { run with request := some ⟨rows, status⟩ } batch acknowledged later) :
    Chronicle { run with request := some ⟨rows, status⟩ } states later := by
  have unresolved : ∀ acknowledged, Unresolved run acknowledged landed →
      Unresolved { run with request := some ⟨rows, status⟩ } acknowledged later := by
    rintro acknowledged (settled | ⟨batch, outstanding⟩)
    · exact (settled.not_inFlight flying).elim
    · exact .inr ⟨batch, resolved batch acknowledged outstanding⟩
  rcases chronicle with ⟨phase, sizes, counted, ongoing⟩ | ⟨phase, sizes, finished⟩
  · refine .inl ⟨phase, sizes, counted, ?_⟩
    change OngoingAt _ states later sizes run.pipe.writer
    generalize run.pipe.writer = writer at ongoing ⊢
    cases writer with
    | receiving batch => exact (ongoing.2.2.not_inFlight flying).elim
    | committing batch call tail =>
        obtain ⟨callRows, stage⟩ := call
        cases stage with
        | entered => exact (ongoing.2.2.not_inFlight flying).elim
        | savingCommitting => exact (ongoing.2.2.not_inFlight flying).elim
        | committing => exact (ongoing.2.2.not_inFlight flying).elim
        | requested => exact ⟨ongoing.1, ongoing.2.1, resolved _ _ ongoing.2.2⟩
        | savingCommitted => simp [OngoingAt, flying] at ongoing
        | returned result =>
            cases result with
            | ok value => simp [OngoingAt, flying] at ongoing
            | error error => exact ⟨ongoing.1, unresolved _ ongoing.2⟩
    | returned failure =>
        cases failure with
        | none => exact (ongoing.2.2.not_inFlight flying).elim
        | some error => exact ⟨ongoing.1, unresolved _ ongoing.2⟩
  · refine .inr ⟨phase, sizes, ?_⟩
    rcases finished with ⟨terminal, shown, accepted, settled⟩ | ⟨shown, failed⟩
    · exact (settled.not_inFlight flying).elim
    · exact .inr ⟨shown, unresolved _ failed⟩

end Requests

/-- The states a run can write about itself. -/
inductive OwnStates : List RunState → Prop where
  | between (sizes : List Nat) : OwnStates (ownWord sizes)
  | announced (sizes : List Nat) : OwnStates (ownWord sizes ++ [.committing (sizes.length + 1)])
  | accepted (sizes : List Nat) (terminal : RunState) :
      (terminal = .completed ∨ ∃ failed, terminal = .incomplete failed) →
      OwnStates (ownWord sizes ++ [terminal])
  | failed (sizes : List Nat) : OwnStates (ownWord sizes ++
      [.committing (sizes.length + 1), .commitFailed (sizes.length + 1)])

theorem OwnStates.not_closure {states : List RunState} (own : OwnStates states) :
    ∀ state ∈ states, state.isClosure = false := by
  intro state member
  cases own with
  | between sizes => exact (ownWord_plain sizes state member).1
  | announced sizes =>
      rcases List.mem_append.mp member with old | last
      · exact (ownWord_plain sizes state old).1
      · rw [List.mem_singleton.mp last]
        rfl
  | accepted sizes terminal accepted =>
      rcases List.mem_append.mp member with old | last
      · exact (ownWord_plain sizes state old).1
      · rw [List.mem_singleton.mp last]
        rcases accepted with rfl | ⟨failed, rfl⟩ <;> rfl
  | failed sizes =>
      rcases List.mem_append.mp member with old | last
      · exact (ownWord_plain sizes state old).1
      · simp only [List.mem_cons, List.not_mem_nil, or_false] at last
        rcases last with rfl | rfl <;> rfl

theorem Ongoing.shape {run : Run} {states : List RunState} {landed : Nat}
    (ongoing : Ongoing run states landed) :
    ∃ sizes, states = ownWord sizes ∨
      states = ownWord sizes ++ [.committing (sizes.length + 1)] := by
  obtain ⟨sizes, -, ongoing⟩ := ongoing
  generalize run.pipe.writer = writer at ongoing
  unfold OngoingAt at ongoing
  split at ongoing
  · exact ⟨sizes, .inl ongoing.1⟩
  · exact ⟨sizes, .inl ongoing.1⟩
  · split at ongoing
    · exact ⟨sizes, .inl ongoing.1⟩
    · exact ⟨sizes, .inr ongoing.2.1.1⟩
    · exact ⟨sizes, .inr ongoing.2.1.1⟩
    · exact ⟨sizes, .inr ongoing.2.1.1⟩
    · exact ⟨_, .inl ongoing.1⟩
    · exact ⟨_, .inl ongoing.1⟩
    · exact ⟨sizes, .inr ongoing.1.1⟩
  · exact ⟨sizes, .inr ongoing.1.1⟩

theorem Ongoing.not_terminal {run : Run} {states : List RunState} {landed : Nat}
    (ongoing : Ongoing run states landed) : ∀ state ∈ states, state.isTerminal = false := by
  intro state member
  obtain ⟨sizes, rfl | rfl⟩ := ongoing.shape
  · exact (ownWord_plain sizes state member).2
  · rcases List.mem_append.mp member with old | last
    · exact (ownWord_plain sizes state old).2
    · rw [List.mem_singleton.mp last]
      rfl

theorem Chronicle.ownStates {run : Run} {states : List RunState} {landed : Nat}
    (chronicle : Chronicle run states landed) : OwnStates states := by
  rcases chronicle with ⟨-, ongoing⟩ | ⟨-, sizes, ⟨terminal, rfl, accepted, -⟩ | ⟨rfl, -⟩⟩
  · obtain ⟨sizes, rfl | rfl⟩ := ongoing.shape
    · exact .between sizes
    · exact .announced sizes
  · exact .accepted sizes terminal accepted
  · exact .failed sizes

theorem Chronicle.ongoing {run : Run} {states : List RunState} {landed : Nat}
    (chronicle : Chronicle run states landed) (phase : run.phase = .ingesting) :
    Ongoing run states landed := by
  rcases chronicle with ⟨-, ongoing⟩ | ⟨ended | killed, -⟩
  · exact ongoing
  · rw [phase] at ended
    exact ended.elim
  · rw [phase] at killed
    cases killed

theorem Chronicle.finished {run : Run} {states : List RunState} {landed : Nat}
    (chronicle : Chronicle run states landed) (ended : Ended run.phase) :
    Over run states landed := by
  rcases chronicle with ⟨ingesting | killed, -⟩ | ⟨-, finished⟩
  · rw [ingesting] at ended
    exact ended.elim
  · rw [killed] at ended
    exact ended.elim
  · exact finished

theorem Chronicle.kill {run : Run} {states : List RunState} {landed : Nat}
    (chronicle : Chronicle run states landed) :
    Chronicle { run with phase := .killed } states landed := by
  rcases chronicle with ⟨-, ongoing⟩ | ⟨-, finished⟩
  · exact .inl ⟨.inr rfl, ongoing⟩
  · exact .inr ⟨.inr rfl, finished⟩

namespace Process

theorem batch_of_pipelineReached {run : Run} (reached : run.PipelineReached)
    {rows : List FileInfo} {call : CommitCall} {tail : Bool}
    (committing : run.pipe.writer = .committing rows call tail) :
    rows ≠ [] ∧ rows.length ≤ run.plan.pipeline.batchSize := by
  obtain ⟨actions, exec⟩ := reached
  have erased : run.pipe.erase.writer = .committing rows () tail := by
    rw [Pipeline.erase_writer, committing]
    rfl
  have writes : run.plan.parts.erase.committer ≠ none := by
    intro absent
    have idle := (Pipeline.accounted_of_exec exec).idle absent
    rw [idle.1] at erased
    cases erased
  cases Pipeline.ledger_of_exec writes exec with
  | receiving phase => simp [erased] at phase
  | committing phase shown full counts nonempty bounded =>
      rw [erased, Pipeline.Writer.committing.injEq] at phase
      obtain ⟨rfl, -, -⟩ := phase
      exact ⟨nonempty, bounded⟩
  | finished phase => simp [erased] at phase
  | failed phase => simp [erased] at phase

theorem phase_of_committer {plan : RunPlan} {commit : List FileInfo → CommitCall}
    (committer : plan.parts.committer = some commit) (rows : List FileInfo) :
    (commit rows).phase = .entered := by
  simp only [RunPlan.parts] at committer
  split at committer
  · cases committer
    rfl
  · cases committer

theorem ongoing_pipeline {run : Run} {states : List RunState} {landed : Nat}
    {pipe : Pipeline.State FileTask CommitCall} {action : Pipeline.Action}
    (ongoing : Ongoing run states landed) (allowed : allows run.pipe action = true)
    (stepped : Pipeline.step run.plan.pipeline run.plan.parts run.pipe action = some pipe) :
    Ongoing { run with pipe } states landed := by
  obtain ⟨sizes, counted, ongoing⟩ := ongoing
  cases Pipeline.Step.of_step stepped with
  | recvMore receiving =>
      rw [receiving] at ongoing
      exact ⟨sizes, counted, ongoing⟩
  | recvFull receiving channel full committer =>
      rw [receiving] at ongoing
      refine ⟨sizes, counted, ?_⟩
      simp only [OngoingAt, phase_of_committer committer]
      exact ongoing
  | recvClosedEmpty receiving =>
      rw [receiving] at ongoing
      exact ⟨sizes, counted, ongoing⟩
  | recvClosedTail receiving channel returned nonempty committer =>
      rw [receiving] at ongoing
      refine ⟨sizes, counted, ?_⟩
      simp only [OngoingAt, phase_of_committer committer]
      exact ongoing
  | @commitOk rows call tail writing =>
      simp only [allows, writing, decide_eq_true_eq] at allowed
      simp only [writing, OngoingAt, allowed] at ongoing
      obtain ⟨shown, started, applied, -, -, status, request, count⟩ := ongoing
      rw [applied, Option.some.injEq, Request.mk.injEq] at request
      obtain ⟨-, rfl⟩ := request
      have quiet : Quiet run states landed (sizes ++ [rows.length]) := by
        refine ⟨shown, by simp [started], ?_, by simp [count]⟩
        simp [applied]
      refine ⟨sizes ++ [rows.length], by simp [counted], ?_⟩
      cases tail with
      | false => exact quiet
      | true => exact quiet
  | commitErr writing =>
      simp only [allows, writing, decide_eq_true_eq] at allowed
      simp only [writing, OngoingAt, allowed] at ongoing
      exact ⟨sizes, counted, ongoing⟩
  | _ => exact ⟨sizes, counted, ongoing⟩

theorem CommitStep.ongoing {process next : Process} {rows : List FileInfo} {call : CommitCall}
    {tail : Bool} {journal : RunJournal} {action : CommitAction} {landed : Nat}
    (ongoing : Ongoing process.run journal.states landed)
    (committing : process.run.pipe.writer = .committing rows call tail) (same : call.rows = rows)
    (bounded : rows ≠ [] ∧ rows.length ≤ process.run.plan.pipeline.batchSize)
    (recorded : process.run.journal = some journal)
    (stepped : CommitStep process rows call tail journal action next) :
    ∃ later, next.run.journal = some later ∧ Ongoing next.run later.states landed := by
  obtain ⟨sizes, counted, ongoing⟩ := ongoing
  rw [committing] at ongoing
  cases stepped with
  | enter phase =>
      simp only [OngoingAt, phase] at ongoing
      obtain ⟨shown, started, settled⟩ := ongoing
      refine ⟨_, rfl, sizes, counted, ?_⟩
      refine ⟨by rw [started], ⟨?_, by rw [started]⟩, settled⟩
      simp [shown, started]
  | savedCommitting phase =>
      simp only [OngoingAt, phase] at ongoing
      exact ⟨journal, recorded, sizes, counted, ongoing⟩
  | committingUnsaved phase =>
      simp only [OngoingAt, phase] at ongoing
      exact ⟨journal, recorded, sizes, counted, ongoing⟩
  | innerFailed phase =>
      simp only [OngoingAt, phase] at ongoing
      exact ⟨journal, recorded, sizes, counted, ongoing.2.1, .inl ongoing.2.2⟩
  | request phase =>
      simp only [OngoingAt, phase] at ongoing
      obtain ⟨batch, announced, settled⟩ := ongoing
      refine ⟨journal, recorded, sizes, counted, batch, announced, bounded.1, bounded.2,
        .inFlight, ?_, ?_⟩
      · simp [same]
      · simp [settled.2]
  | acknowledged phase applied =>
      simp only [OngoingAt, phase] at ongoing
      obtain ⟨rfl, ⟨shown, started⟩, outstanding⟩ := ongoing
      have sent := outstanding.2.2
      simp only [applied, Option.some.injEq, Request.mk.injEq] at sent
      obtain ⟨status, ⟨rfl, rfl⟩, count⟩ := sent
      refine ⟨_, rfl, sizes, counted, ?_, started, applied, outstanding⟩
      simp [shown, ownWord_snoc, same]
  | requestFailed phase =>
      simp only [OngoingAt, phase] at ongoing
      exact ⟨journal, recorded, sizes, counted, ongoing.2.1, .inr ⟨rows, ongoing.2.2⟩⟩
  | savedCommitted phase =>
      simp only [OngoingAt, phase] at ongoing
      exact ⟨journal, recorded, sizes, counted, ongoing⟩
  | committedUnsaved phase =>
      simp only [OngoingAt, phase] at ongoing
      exact ⟨journal, recorded, sizes, counted, ongoing⟩

theorem terminalState_of_accepted {report : Pipeline.PipelineReport}
    (accepted : report.commitFailure = none) :
    terminalState report = .completed ∨ ∃ failed, terminalState report = .incomplete failed := by
  simp only [terminalState, accepted]
  cases report.errors.length with
  | zero => exact .inl rfl
  | succ failed => exact .inr ⟨failed + 1, rfl⟩

theorem over_of_report {run : Run} {states : List RunState} {landed : Nat}
    {report : Pipeline.PipelineReport} (ongoing : Ongoing run states landed)
    (reported : run.pipe.report? = some report) :
    Over run (states ++ [terminalState report]) landed := by
  obtain ⟨sizes, counted, ongoing⟩ := ongoing
  obtain ⟨-, writer, -, commit, -⟩ := Pipeline.report?_eq_some_iff.mp reported
  rw [writer] at ongoing
  refine ⟨sizes, ?_⟩
  cases failure : report.commitFailure with
  | none =>
      rw [failure] at ongoing
      obtain ⟨shown, -, settled⟩ := ongoing
      exact .inl ⟨terminalState report, by rw [shown], terminalState_of_accepted failure, settled⟩
  | some error =>
      rw [failure] at ongoing
      obtain ⟨⟨shown, -⟩, unresolved⟩ := ongoing
      refine .inr ⟨?_, unresolved⟩
      simp [terminalState, failure, shown, commit, counted]

/-- The journal of a run, if it has one, is its own and tells its chronicle. -/
def Chronicled (run : Run) (landed : Nat) : Prop :=
  match run.journal with
  | none => run.request = none ∧ landed = 0
  | some journal =>
      journal.runId = run.plan.runId ∧ journal.sourceId = run.plan.sourceId ∧
        Chronicle run journal.states landed

/-- Before a run has a journal its steps leave it unwritten, or write its
first entry. -/
theorem PrologueStep.chronicled {process next : Process} {action : PrologueAction} {landed : Nat}
    (untouched : process.run.Fresh) (chronicled : Chronicled process.run landed)
    (stepped : PrologueStep process action next) : Chronicled next.run landed := by
  simp only [Chronicled, untouched.journal] at chronicled
  have unwritten : ∀ run : Run, run.journal = process.run.journal →
      run.request = process.run.request → Chronicled run landed := by
    intro run journal request
    simp only [Chronicled, journal, untouched.journal, request]
    exact chronicled
  cases stepped with
  | @proceed stage => cases stage <;> exact unwritten _ rfl rfl
  | report =>
      simp only [Process.report]
      split <;> exact unwritten _ rfl rfl
  | collected =>
      simp only [Process.collected]
      split <;> exact unwritten _ rfl rfl
  | @started now =>
      refine ⟨rfl, rfl, .inl ⟨.inl rfl, [], ?_, ?_⟩⟩
      · simp [untouched.pipe, Pipeline.start]
      · have quiet : Quiet { process.run with
            journal := some (newJournal process.run now), phase := .ingesting }
            (newJournal process.run now).states landed [] := by
          refine ⟨rfl, untouched.batches, ?_, chronicled.2⟩
          simp [untouched.request]
        simp only [untouched.pipe, Pipeline.start]
        split <;> exact quiet
  | _ => exact unwritten _ rfl rfl

theorem IngestStep.chronicled {deployment : Deployment} {process next : Process}
    {action : IngestAction} {landed : Nat} (reached : process.run.PipelineReached)
    (calls : ∀ rows call tail, process.run.pipe.writer = .committing rows call tail →
      call.rows = rows)
    (chronicled : Chronicled process.run landed)
    (stepped : IngestStep deployment process action next) : Chronicled next.run landed := by
  have phase := stepped.phase_eq
  unfold Chronicled at chronicled
  cases recorded : process.run.journal with
  | none =>
      simp only [recorded] at chronicled
      cases stepped with
      | commit _ committing written => simp [recorded] at written
      | _ => simpa [Chronicled, setPipe, recorded] using chronicled
  | some journal =>
      simp only [recorded] at chronicled
      obtain ⟨runId, sourceId, chronicle⟩ := chronicled
      have ongoing := chronicle.ongoing phase.1
      cases stepped with
      | pipeline _ allowed moved =>
          simp only [Chronicled, setPipe, recorded]
          exact ⟨runId, sourceId, .inl ⟨.inl phase.2, ongoing_pipeline ongoing allowed moved⟩⟩
      | worker _ found moved =>
          simp only [Chronicled, setPipe, recorded]
          exact ⟨runId, sourceId, .inl ⟨.inl phase.2, ongoing⟩⟩
      | commit _ committing written moved =>
          rw [recorded, Option.some.injEq] at written
          subst written
          obtain ⟨later, written, moved'⟩ := moved.ongoing ongoing committing
            (calls _ _ _ committing) (batch_of_pipelineReached reached committing) recorded
          have named : later.runId = journal.runId ∧ later.sourceId = journal.sourceId := by
            cases moved with
            | enter => cases written; exact ⟨rfl, rfl⟩
            | acknowledged => cases written; exact ⟨rfl, rfl⟩
            | _ =>
                have same : process.run.journal = some later := written
                rw [recorded, Option.some.injEq] at same
                exact same ▸ ⟨rfl, rfl⟩
          simp only [Chronicled, written]
          rw [moved.frame.1]
          exact ⟨named.1.trans runId, named.2.trans sourceId, .inl ⟨.inl phase.2, moved'⟩⟩

/-- After its terminal entry a run leaves its own journal alone. -/
theorem Chronicled.advance {run : Run} {landed : Nat} (phase : RunPhase)
    (chronicled : Chronicled run landed) (before : Ended run.phase) (after : Ended phase) :
    Chronicled { run with phase } landed := by
  unfold Chronicled at chronicled ⊢
  cases recorded : run.journal with
  | none => simpa only [recorded] using chronicled
  | some journal =>
      simp only [recorded] at chronicled
      obtain ⟨runId, sourceId, chronicle⟩ := chronicled
      exact ⟨runId, sourceId, .inr ⟨.inl after, chronicle.finished before⟩⟩

theorem Chronicled.kill {run : Run} {landed : Nat} (chronicled : Chronicled run landed) :
    Chronicled { run with phase := .killed } landed := by
  unfold Chronicled at chronicled ⊢
  cases recorded : run.journal with
  | none => simpa only [recorded] using chronicled
  | some journal =>
      simp only [recorded] at chronicled
      exact ⟨chronicled.1, chronicled.2.1, chronicled.2.2.kill⟩

theorem ended_afterRecord (process : Process) (conclusion : Conclusion) :
    Ended (if conclusion.terminal = .completed then
      .superseding process.run.openRuns conclusion
    else .exited (some conclusion) conclusion.result : RunPhase) := by
  split <;> trivial

theorem EpilogueStep.chronicled {process next : Process} {action : EpilogueAction} {landed : Nat}
    (chronicled : Chronicled process.run landed) (stepped : EpilogueStep process action next) :
    Chronicled next.run landed := by
  cases stepped with
  | conclude phase reported recorded =>
      simp only [Chronicled, recorded] at chronicled
      obtain ⟨runId, sourceId, chronicle⟩ := chronicled
      refine ⟨runId, sourceId, .inr ⟨.inl trivial, ?_⟩⟩
      rw [RunJournal.push_states]
      exact over_of_report (chronicle.ongoing phase) reported
  | concludePreview phase reported absent =>
      simp only [Chronicled, absent] at chronicled
      simpa [Chronicled, setPhase, absent] using chronicled
  | recorded phase =>
      exact chronicled.advance _ (by rw [phase]; trivial) (ended_afterRecord _ _)
  | recordFailed phase =>
      exact chronicled.advance _ (by rw [phase]; trivial) (ended_afterRecord _ _)
  | supersede phase => exact chronicled.advance _ (by rw [phase]; trivial) trivial
  | supersedeFailed phase => exact chronicled.advance _ (by rw [phase]; trivial) trivial
  | exit phase => exact chronicled.advance _ (by rw [phase]; trivial) trivial

theorem Chronicled.resolve {run : Run} {rows : List CatalogRow} {status : RequestStatus}
    {landed later : Nat} (chronicled : Chronicled run landed)
    (flying : run.request = some ⟨rows, .inFlight⟩)
    (resolved : ∀ (batch : List FileInfo) (acknowledged : Nat),
      Outstanding run batch acknowledged landed →
      Outstanding { run with request := some ⟨rows, status⟩ } batch acknowledged later) :
    Chronicled { run with request := some ⟨rows, status⟩ } later := by
  unfold Chronicled at chronicled ⊢
  cases recorded : run.journal with
  | none => simp [recorded, flying] at chronicled
  | some journal =>
      simp only [recorded] at chronicled
      exact ⟨chronicled.1, chronicled.2.1, chronicled.2.2.resolve flying resolved⟩

theorem Step.chronicled {deployment : Deployment} {process next : Process}
    {action : ProcessAction} {landed : Nat}
    (fresh : Unrecorded process.run.phase → process.run.Fresh)
    (reached : process.run.PipelineReached)
    (calls : ∀ rows call tail, process.run.pipe.writer = .committing rows call tail →
      call.rows = rows)
    (chronicled : Chronicled process.run landed)
    (stepped : Step deployment process action next) :
    Chronicled next.run (landed + (process.landing action).length) := by
  cases stepped with
  | prologue taken => exact taken.chronicled (fresh taken.unrecorded) chronicled
  | ingest taken => exact taken.chronicled reached calls chronicled
  | epilogue taken => exact taken.chronicled chronicled
  | kill => exact chronicled.kill
  | land flying =>
      simp only [landing, flying]
      apply chronicled.resolve flying
      intro batch acknowledged outstanding
      exact outstanding.land flying
  | lose flying =>
      apply chronicled.resolve flying
      intro batch acknowledged outstanding
      exact outstanding.lose flying
  | edit => exact chronicled

end Process

end AntiEntropator.Ingest
