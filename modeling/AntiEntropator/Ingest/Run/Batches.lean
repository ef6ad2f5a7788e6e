import AntiEntropator.Ingest.Run.Chronicle
import AntiEntropator.Ingest.Run.Honesty

/-!
# The numbers of a run's batches

`JournaledCommitter` numbers batches with a counter of its own, `flush` counts
the commits that returned, and the end of the run counts once more.  The three
agree with each other and with the batches the catalog writer was given.
-/

namespace AntiEntropator.Ingest

open Lakehouse Pipeline

/-! ## What the journal counts -/

/-- The sizes of the batches that these states record as committed. -/
def recordedSizes (states : List RunState) : List Nat :=
  states.filterMap fun
    | .batchCommitted _ rows => some rows
    | _ => none

@[simp]
theorem recordedSizes_append (first second : List RunState) :
    recordedSizes (first ++ second) = recordedSizes first ++ recordedSizes second := by
  simp [recordedSizes]

@[simp]
theorem recordedSizes_ownWord (sizes : List Nat) : recordedSizes (ownWord sizes) = sizes := by
  induction sizes using List.reverseRecOn with
  | nil => rfl
  | append_singleton sizes rows inductionHypothesis =>
      rw [ownWord_snoc, recordedSizes_append, inductionHypothesis]
      simp [recordedSizes]

theorem recordedSizes_terminal (report : PipelineReport) :
    recordedSizes [terminalState report] = [] := by
  unfold terminalState
  split <;> rfl

theorem rowsCommitted_eq_sum (journal : RunJournal) :
    journal.rowsCommitted = (recordedSizes journal.states).sum := rfl

theorem batchesCommitted_eq_length (journal : RunJournal) :
    journal.batchesCommitted = (recordedSizes journal.states).length := by
  simp only [RunJournal.batchesCommitted, recordedSizes]
  induction journal.states with
  | nil => rfl
  | cons state states inductionHypothesis => cases state <;> simp [inductionHypothesis]

/-! ## What the writer counts -/

/-- The counts after acknowledged batches of these sizes, and failed ones. -/
def CommitCounts.after (sizes : List Nat) (failed : Nat) : CommitCounts :=
  ⟨sizes.sum, sizes.length, failed⟩

@[simp]
theorem batchIndex_after (sizes : List Nat) :
    batchIndex (CommitCounts.after sizes 0) = sizes.length + 1 := rfl

/-- The context `flush` adds to the error of a batch. -/
def flushContext (batch rows : Nat) : String :=
  "batch " ++ toString batch ++ " (" ++ toString rows ++ " rows)"

/-- The batch that a step of the commit call gives to the inner committer. -/
def CommitCall.handing (call : CommitCall) (action : CommitAction) : List (List FileInfo) :=
  match call.phase, action with
  | .savingCommitting _, .saved | .savingCommitting _, .saveFailed _ => [call.rows]
  | _, _ => []

def RunPhase.conclusion? : RunPhase → Option Conclusion
  | .recording conclusion | .superseding _ conclusion | .exited (some conclusion) _ =>
      some conclusion
  | _ => none

/-- The batches handed to the catalog writer, the states of the journal that
record sizes, and the counts, by the stage of the writer. -/
def MatchedAt (handed sizes : List Nat) (commit : CommitCounts) : Writer CommitCall → Prop
  | .receiving _ | .returned none => handed = sizes ∧ commit = .after sizes 0
  | .committing rows call _ =>
      match call.phase with
      | .entered | .savingCommitting _ => handed = sizes ∧ commit = .after sizes 0
      | .committing _ | .requested _ | .returned (.error _) =>
          handed = sizes ++ [rows.length] ∧ commit = .after sizes 0
      | .savingCommitted | .returned (.ok _) =>
          handed = sizes ∧ ∃ earlier, sizes = earlier ++ [rows.length] ∧ commit = .after earlier 0
  | .returned (some error) =>
      ∃ rows, handed = sizes ++ [rows] ∧ commit = .after sizes 1 ∧
        error.contexts.head? = some (flushContext (sizes.length + 1) rows)

/-- The journal records the batches that were handed over and acknowledged. -/
def Matched (handed : List (List FileInfo)) (run : Run) : Prop :=
  match run.journal with
  | none => handed = []
  | some journal => MatchedAt (handed.map List.length) (recordedSizes journal.states)
      run.pipe.commit run.pipe.writer

theorem Matched.congr {handed : List (List FileInfo)} {run next : Run}
    (matched : Matched handed run) (journal : next.journal = run.journal)
    (pipe : next.pipe = run.pipe) : Matched handed next := by
  simpa only [Matched, journal, pipe] using matched

namespace Process

/-- The batch that an action hands to the catalog writer. -/
def handing (process : Process) : ProcessAction → List (List FileInfo)
  | .ingest (.commit action) =>
      match process.run.pipe.writer with
      | .committing _ call _ => call.handing action
      | _ => []
  | _ => []

theorem matchedAt_pipeline {plan : RunPlan} {handed sizes : List Nat}
    {pipe next : Pipeline.State FileTask CommitCall} {action : Pipeline.Action}
    (matched : MatchedAt handed sizes pipe.commit pipe.writer)
    (allowed : allows pipe action = true)
    (stepped : Pipeline.step plan.pipeline plan.parts pipe action = some next) :
    MatchedAt handed sizes next.commit next.writer := by
  cases Pipeline.Step.of_step stepped with
  | recvMore receiving =>
      rw [receiving] at matched
      exact matched
  | recvFull receiving channel full committer =>
      rw [receiving] at matched
      simpa only [MatchedAt, phase_of_committer committer] using matched
  | recvClosedEmpty receiving =>
      rw [receiving] at matched
      exact matched
  | recvClosedTail receiving channel returned nonempty committer =>
      rw [receiving] at matched
      simpa only [MatchedAt, phase_of_committer committer] using matched
  | @commitOk rows call tail writing =>
      simp only [allows, writing, decide_eq_true_eq] at allowed
      simp only [writing, MatchedAt, allowed] at matched
      obtain ⟨same, earlier, rfl, counts⟩ := matched
      have counted : CommitCounts.mk (pipe.commit.committed + rows.length)
          (pipe.commit.batchesCommitted + 1) pipe.commit.batchesFailed =
          .after (earlier ++ [rows.length]) 0 := by
        simp [counts, CommitCounts.after]
      cases tail with
      | false => exact ⟨same, counted⟩
      | true => exact ⟨same, counted⟩
  | @commitErr rows call tail error writing =>
      simp only [allows, writing, decide_eq_true_eq] at allowed
      simp only [writing, MatchedAt, allowed] at matched
      obtain ⟨handed, counts⟩ := matched
      refine ⟨rows.length, handed, by simp [counts, CommitCounts.after], ?_⟩
      simp [Error.context, flushContext, counts]
  | _ => exact matched

/-- The call hands its batch over once it is announced; the acknowledgement
records the batch's size. -/
theorem CommitStep.matched {process next : Process} {rows : List FileInfo} {call : CommitCall}
    {tail : Bool} {journal : RunJournal} {action : CommitAction} {handed : List (List FileInfo)}
    (matched : Matched handed process.run)
    (committing : process.run.pipe.writer = .committing rows call tail) (same : call.rows = rows)
    (recorded : process.run.journal = some journal)
    (stepped : CommitStep process rows call tail journal action next) :
    Matched (handed ++ call.handing action) next.run := by
  simp only [Matched, recorded, committing] at matched
  cases stepped with
  | enter phase =>
      simp only [MatchedAt, phase] at matched
      simpa [Matched, MatchedAt, CommitCall.handing, phase, withCall, setPipe, recordedSizes]
        using matched
  | savedCommitting phase =>
      simp only [MatchedAt, phase] at matched
      simp [Matched, MatchedAt, CommitCall.handing, phase, withCall, setPipe, recorded, matched,
        same]
  | committingUnsaved phase =>
      simp only [MatchedAt, phase] at matched
      simp [Matched, MatchedAt, CommitCall.handing, phase, withCall, setPipe, recorded, matched,
        same]
  | innerFailed phase =>
      simp only [MatchedAt, phase] at matched
      simpa [Matched, MatchedAt, CommitCall.handing, phase, withCall, setPipe, recorded]
        using matched
  | request phase =>
      simp only [MatchedAt, phase] at matched
      simpa [Matched, MatchedAt, CommitCall.handing, phase, withCall, setPipe, recorded]
        using matched
  | acknowledged phase applied =>
      simp only [MatchedAt, phase] at matched
      simp [Matched, MatchedAt, CommitCall.handing, phase, withCall, setPipe, matched, same,
        recordedSizes]
  | requestFailed phase =>
      simp only [MatchedAt, phase] at matched
      simpa [Matched, MatchedAt, CommitCall.handing, phase, withCall, setPipe, recorded]
        using matched
  | savedCommitted phase =>
      simp only [MatchedAt, phase] at matched
      simpa [Matched, MatchedAt, CommitCall.handing, phase, withCall, setPipe, recorded]
        using matched
  | committedUnsaved phase =>
      simp only [MatchedAt, phase] at matched
      simpa [Matched, MatchedAt, CommitCall.handing, phase, withCall, setPipe, recorded]
        using matched

theorem PrologueStep.matched {process next : Process} {action : PrologueAction}
    {handed : List (List FileInfo)} (fresh : process.run.Fresh)
    (matched : Matched handed process.run) (stepped : PrologueStep process action next) :
    Matched handed next.run := by
  simp only [Matched, fresh.journal] at matched
  have unwritten : ∀ run : Run, run.journal = process.run.journal → Matched handed run := by
    intro run journal
    simpa only [Matched, journal, fresh.journal] using matched
  cases stepped with
  | @proceed stage => cases stage <;> exact unwritten _ rfl
  | report =>
      simp only [Process.report]
      split <;> exact unwritten _ rfl
  | collected =>
      simp only [Process.collected]
      split <;> exact unwritten _ rfl
  | started =>
      subst matched
      simp only [Matched, fresh.pipe, Pipeline.start]
      split <;> exact ⟨rfl, rfl⟩
  | _ => exact unwritten _ rfl

theorem EpilogueStep.matched {process next : Process} {action : EpilogueAction}
    {handed : List (List FileInfo)} (matched : Matched handed process.run)
    (stepped : EpilogueStep process action next) : Matched handed next.run := by
  cases stepped with
  | @conclude report journal now phase reported recorded =>
      simp only [Matched, recorded] at matched
      simpa only [Matched, RunJournal.push_states, recordedSizes_append, recordedSizes_terminal,
        List.append_nil] using matched
  | _ => exact matched.congr rfl rfl

theorem Step.matched {deployment : Deployment} {process next : Process}
    {action : ProcessAction} {handed : List (List FileInfo)}
    (fresh : Unrecorded process.run.phase → process.run.Fresh)
    (calls : ∀ rows call tail, process.run.pipe.writer = .committing rows call tail →
      call.rows = rows)
    (matched : Matched handed process.run) (stepped : Step deployment process action next) :
    Matched (handed ++ process.handing action) next.run := by
  cases stepped with
  | prologue taken =>
      simpa [handing] using taken.matched (fresh taken.unrecorded) matched
  | ingest taken =>
      cases taken with
      | pipeline phase allowed moved =>
          simp only [handing, List.append_nil]
          unfold Matched at matched ⊢
          simp only [setPipe]
          cases recorded : process.run.journal with
          | none => simpa only [recorded] using matched
          | some journal =>
              simp only [recorded] at matched
              exact matchedAt_pipeline matched allowed moved
      | worker => simpa [handing, Matched, setPipe] using matched
      | commit phase committing recorded moved =>
          simp only [handing, committing]
          exact moved.matched matched committing (calls _ _ _ committing) recorded
  | epilogue taken => simpa [handing] using taken.matched matched
  | kill => simpa [handing, Matched, setPhase] using matched
  | land => simpa [handing, Matched] using matched
  | lose => simpa [handing, Matched] using matched
  | edit => simpa [handing, Matched] using matched

/-! ## The end of the run -/

/-- The journal of a run that has ended closes with the terminal entry. -/
def Signed (run : Run) : Prop :=
  ∀ conclusion, run.phase.conclusion? = some conclusion →
    ∃ journal before, run.journal = some journal ∧ journal.states = before ++ [conclusion.terminal]

theorem PrologueStep.conclusion?_eq_none {process next : Process} {action : PrologueAction}
    (stepped : PrologueStep process action next) : next.run.phase.conclusion? = none := by
  cases stepped with
  | @proceed stage => cases stage <;> rfl
  | report =>
      simp only [Process.report]
      split <;> rfl
  | collected =>
      simp only [Process.collected]
      split
      · rfl
      · cases process.run.plan.mode.writes <;> rfl
  | _ => rfl

theorem PrologueStep.journal_of_exited {process next : Process} {action : PrologueAction}
    {result : Except Error Unit} (fresh : process.run.Fresh)
    (stepped : PrologueStep process action next)
    (exited : next.run.phase = .exited none result) : next.run.journal = none := by
  cases stepped with
  | @proceed stage => cases stage <;> exact fresh.journal
  | report =>
      simp only [Process.report]
      split <;> exact fresh.journal
  | collected =>
      simp only [Process.collected]
      split <;> exact fresh.journal
  | started => cases exited
  | _ => exact fresh.journal

theorem Step.signed {deployment : Deployment} {process next : Process} {action : ProcessAction}
    (journaled : process.run.phase = .ingesting → process.run.journal ≠ none)
    (signed : Signed process.run) (stepped : Step deployment process action next) :
    Signed next.run := by
  cases stepped with
  | prologue taken => simp [Signed, taken.conclusion?_eq_none]
  | ingest taken => simp [Signed, taken.phase_eq.2, RunPhase.conclusion?]
  | epilogue taken =>
      cases taken with
      | conclude phase reported recorded =>
          rintro conclusion concluded
          cases concluded
          exact ⟨_, _, rfl, RunJournal.push_states _ _ _⟩
      | concludePreview phase reported absent => exact (journaled phase absent).elim
      | recorded phase =>
          intro conclusion concluded
          refine signed conclusion ?_
          rw [phase]
          simp only [afterRecord, setPhase] at concluded
          split at concluded <;> exact concluded
      | recordFailed phase =>
          intro conclusion concluded
          refine signed conclusion ?_
          rw [phase]
          simp only [afterRecord, setPhase] at concluded
          split at concluded <;> exact concluded
      | supersede phase =>
          intro conclusion concluded
          exact signed conclusion (by rw [phase]; exact concluded)
      | supersedeFailed phase =>
          intro conclusion concluded
          exact signed conclusion (by rw [phase]; exact concluded)
      | exit phase =>
          intro conclusion concluded
          exact signed conclusion (by rw [phase]; exact concluded)
  | kill => simp [Signed, setPhase, RunPhase.conclusion?]
  | land => exact signed
  | lose => exact signed
  | edit => exact signed

section Runs

variable {deployment : Deployment} {plan : RunPlan} {world : World}
  {actions : List ProcessAction} {final : Process}

theorem matched_of_exec
    (exec : (machine deployment).exec ⟨world, Run.start plan⟩ actions = some final) :
    Matched ((machine deployment).observe handing ⟨world, Run.start plan⟩ actions) final.run := by
  refine (machine deployment).exec_induction (motive := fun actions (process : Process) =>
    Matched ((machine deployment).observe handing ⟨world, Run.start plan⟩ actions)
      process.run) ?_ ?_ exec
  · rfl
  · intro actions middle action next before matched stepped
    rw [(machine deployment).observe_snoc _ before stepped]
    exact (Step.of_step stepped).matched (fresh_of_exec before) (built_of_exec before).call matched

theorem signed_of_exec (writes : plan.mode.writes = true)
    (exec : (machine deployment).exec ⟨world, Run.start plan⟩ actions = some final) :
    Signed final.run := by
  refine (machine deployment).exec_induction
    (motive := fun _ (process : Process) => Signed process.run) ?_ ?_ exec
  · simp only [Signed, Run.start]
    split <;> simp [RunPhase.conclusion?]
  · intro actions middle action next before signed stepped
    exact (Step.of_step stepped).signed (journal_of_ingesting writes before) signed

/-- The journal is a chronicle in any world, whatever rows it holds. -/
theorem exists_chronicled_of_exec
    (exec : (machine deployment).exec ⟨world, Run.start plan⟩ actions = some final) :
    ∃ landed, Chronicled final.run landed := by
  refine (machine deployment).exec_induction
    (motive := fun _ (process : Process) => ∃ landed, Chronicled process.run landed) ?_ ?_ exec
  · exact ⟨0, rfl, rfl⟩
  · rintro actions middle action next before ⟨landed, chronicled⟩ stepped
    exact ⟨_, (Step.of_step stepped).chronicled (fresh_of_exec before)
      (pipelineReached_of_exec before) (built_of_exec before).call chronicled⟩

theorem journal_of_unconcluded {result : Except Error Unit}
    (exec : (machine deployment).exec ⟨world, Run.start plan⟩ actions = some final)
    (exited : final.run.phase = .exited none result) : final.run.journal = none := by
  have tracked := (machine deployment).exec_induction
    (motive := fun _ (process : Process) => ∀ result, process.run.phase = .exited none result →
      process.run.journal = none) ?_ ?_ exec
  · exact tracked result exited
  · rintro result -
    rfl
  · intro actions middle action next before unwritten stepped result ended
    cases Step.of_step stepped with
    | prologue taken => exact taken.journal_of_exited (fresh_of_exec before taken.unrecorded) ended
    | ingest taken => simp [taken.phase_eq.2] at ended
    | epilogue taken =>
        cases taken with
        | recorded | recordFailed =>
            simp only [afterRecord, setPhase] at ended
            split at ended <;> cases ended
        | _ => cases ended
    | kill => cases ended
    | land => exact unwritten result ended
    | lose => exact unwritten result ended
    | edit => exact unwritten result ended

theorem states_of_accepted {journal : RunJournal} {report : PipelineReport} {landed : Nat}
    (accepted : report.commitFailure = none) (finished : Over final.run journal.states landed)
    (last : journal.states.getLast? = some (terminalState report)) :
    journal.states = ownWord (recordedSizes journal.states) ++ [terminalState report] := by
  obtain ⟨sizes, ⟨terminal, shown, -⟩ | ⟨shown, -⟩⟩ := finished
  · rw [shown, List.getLast?_concat, Option.some.injEq] at last
    subst last
    conv => lhs; rw [shown]
    rw [shown, recordedSizes_append, recordedSizes_ownWord, recordedSizes_terminal,
      List.append_nil]
  · have closing : terminalState report = .commitFailed (sizes.length + 1) := by
      simpa [shown, List.getLast?_append] using last.symm
    rcases terminalState_of_accepted accepted with same | ⟨files, same⟩ <;>
      cases same.symm.trans closing

theorem states_of_failed {journal : RunJournal} {report : PipelineReport} {landed : Nat}
    {error : Error} (failed : report.commitFailure = some error)
    (finished : Over final.run journal.states landed)
    (last : journal.states.getLast? = some (terminalState report)) :
    journal.states = ownWord (recordedSizes journal.states) ++
      [.committing ((recordedSizes journal.states).length + 1), terminalState report] ∧
    terminalState report = .commitFailed ((recordedSizes journal.states).length + 1) := by
  obtain ⟨sizes, ⟨terminal, shown, accepted, -⟩ | ⟨shown, -⟩⟩ := finished
  · rw [shown, List.getLast?_concat, Option.some.injEq] at last
    rw [last, terminalState, failed] at accepted
    rcases accepted with same | ⟨files, same⟩ <;> cases same
  · have sizes_eq : recordedSizes journal.states = sizes := by
      rw [shown, recordedSizes_append, recordedSizes_ownWord]
      exact List.append_nil sizes
    have closing : terminalState report = .commitFailed (sizes.length + 1) := by
      simpa [shown, List.getLast?_append] using last.symm
    rw [sizes_eq, closing]
    exact ⟨shown, rfl⟩

end Runs

end Process

/-- Counts after acknowledged batches tell which of the handed batches they were. -/
theorem counted_of_after {handed : List (List FileInfo)} {sizes rest : List Nat}
    {commit : CommitCounts} {failed : Nat} (same : handed.map List.length = sizes ++ rest)
    (counts : commit = .after sizes failed) :
    (handed.take commit.batchesCommitted).map List.length = sizes ∧
      handed.length = commit.batchesCommitted + rest.length ∧
      sizes.sum = commit.committed ∧ sizes.length = commit.batchesCommitted := by
  subst counts
  refine ⟨?_, ?_, rfl, rfl⟩
  · rw [List.map_take, same]
    exact List.take_left
  · rw [← List.length_map List.length, same, List.length_append]
    rfl

theorem commitFailedLine_mem_printHumanReport (formatSize : UInt64 → String)
    (summary : IngestSummary) (writes : summary.mode.writes = true)
    (failed : 0 < summary.commit.batchesFailed) :
    commitFailedLine (summary.commit.batchesCommitted + 1) summary.uncommittedRows ∈
      printHumanReport formatSize summary := by
  have counted : commitFailedLine (summary.commit.batchesCommitted + 1) summary.uncommittedRows ∈
      countLines formatSize summary := by
    simp [countLines, writes, failed]
  simp [printHumanReport, counted]

open Process in
/-- However a writing run ended: its journal tells the batches that the catalog
writer was given, in order and by size, and the summary, the pipeline's error
and the operator report number them alike. -/
theorem batch_numbers_agree
    {deployment : Deployment} {plan : RunPlan} {world : World} {actions : List ProcessAction}
    {final : Process} {drawn : Option Conclusion} {result : Except Error Unit}
    (writes : plan.mode.writes = true)
    (exec : (machine deployment).exec ⟨world, Run.start plan⟩ actions = some final)
    (exited : final.run.phase = .exited drawn result) :
    (drawn = none → final.run.journal = none) ∧
    ∀ conclusion, drawn = some conclusion →
      let handed := (machine deployment).observe handing ⟨world, Run.start plan⟩ actions
      let k := conclusion.summary.commit.batchesCommitted
      let failed := conclusion.commitFailure.isSome
      (failed = true ↔ CommitFailed actions) ∧
      ∃ journal, final.run.journal = some journal ∧
        journal.states = ownWord ((handed.take k).map List.length) ++
          (if failed then [.committing (k + 1)] else []) ++ [conclusion.terminal] ∧
        conclusion.terminal.isTerminal = true ∧
        handed.length = k + (if failed then 1 else 0) ∧
        journal.rowsCommitted = conclusion.summary.commit.committed ∧
        journal.batchesCommitted = k ∧
        ∀ error, conclusion.commitFailure = some error →
          conclusion.terminal = .commitFailed (k + 1) ∧
          (∃ rows, handed[k]? = some rows ∧
            error.contexts.head? = some (flushContext (k + 1) rows.length)) ∧
          ∀ formatSize, commitFailedLine (k + 1) conclusion.summary.uncommittedRows ∈
            printHumanReport formatSize conclusion.summary := by
  refine ⟨?_, ?_⟩
  · rintro rfl
    exact journal_of_unconcluded exec exited
  · rintro conclusion rfl
    have concluded := concluded_of_exec exec
    simp only [Concluded, exited] at concluded
    obtain ⟨report, reported, rfl⟩ := concluded
    obtain ⟨journal, before, recorded, signed⟩ :=
      signed_of_exec writes exec _ (by rw [exited]; rfl)
    obtain ⟨landed, chronicled⟩ := exists_chronicled_of_exec exec
    simp only [Chronicled, recorded] at chronicled
    have finished := chronicled.2.2.finished (by rw [exited]; trivial)
    have last : journal.states.getLast? = some (terminalState report) := by
      rw [signed]
      exact List.getLast?_concat
    obtain ⟨stop, happened, -⟩ := report_of_exec writes exec reported
    have matched := matched_of_exec exec
    obtain ⟨-, writer, -, commit, -⟩ := Pipeline.report?_eq_some_iff.mp reported
    simp only [Matched, recorded, writer, ← commit] at matched
    refine ⟨happened, journal, recorded, ?_⟩
    generalize (machine deployment).observe handing ⟨world, Run.start plan⟩ actions = handed
      at matched ⊢
    rw [rowsCommitted_eq_sum, batchesCommitted_eq_length]
    rcases report.commitFailure.eq_none_or_eq_some with failure | ⟨error, failure⟩
    · simp only [failure] at matched
      obtain ⟨same, counts⟩ := matched
      obtain ⟨accepted, number, rows, batches⟩ :=
        counted_of_after (by rw [same, List.append_nil]) counts
      have shown := states_of_accepted failure finished last
      simp only [Conclusion.build, IngestSummary.build, failure, accepted]
      refine ⟨by simpa using shown, ?_, by simpa using number, rows, batches, ?_⟩
      · rcases terminalState_of_accepted failure with terminal | ⟨files, terminal⟩ <;>
          rw [terminal] <;> rfl
      · rintro error ⟨⟩
    · simp only [failure] at matched
      obtain ⟨size, same, counts, context⟩ := matched
      obtain ⟨accepted, number, rows, batches⟩ := counted_of_after same counts
      obtain ⟨shown, closing⟩ := states_of_failed failure finished last
      rw [batches] at shown closing context
      have printed := fun formatSize => commitFailedLine_mem_printHumanReport formatSize
        (Conclusion.build final.run.plan final.run.files.length report).summary
        (by rw [← writes, ← plan_of_exec exec]; rfl)
        (by simp [Conclusion.build, IngestSummary.build, stop, failure])
      refine ⟨?_, ?_, ?_, rows, batches, ?_⟩
      · simpa [Conclusion.build, IngestSummary.build, failure, accepted] using shown
      · simp only [Conclusion.build, closing, RunState.isTerminal]
      · simpa [Conclusion.build, IngestSummary.build, failure] using number
      · intro error' again
        obtain rfl : error = error' := Option.some.inj (failure.symm.trans again)
        refine ⟨closing, ?_, printed⟩
        have sized : (handed.map List.length)[report.commit.batchesCommitted]? = some size := by
          rw [same, ← batches]
          exact List.getElem?_concat_length
        rw [List.getElem?_map, Option.map_eq_some_iff] at sized
        obtain ⟨batch, found, rfl⟩ := sized
        exact ⟨batch, found, context⟩

/-- A run over two files, of whose two batches the catalog takes the first one. -/
def rejectedSchedule (runId : Uuid) (now : DateTime) : List ProcessAction :=
  turnsSchedule runId now ++ [.ingest (.commit (.requestFailed (Error.msg "conflict")))] ++
    ([.commitErr (Error.msg "conflict"), .await, .drain].map fun action =>
      .ingest (.pipeline action)) ++
    concludeSchedule now

theorem batch_numbers_agree_rejected :
    ∃ final conclusion journal,
      (Process.machine sampleDeployment).exec ⟨sampleWorld, Run.start (turnsPlan 1)⟩
        (rejectedSchedule 1 1000000) = some final ∧
      final.run.journal = some journal ∧
      journal.states =
        [.started, .committing 1, .batchCommitted 1 1, .committing 2, .commitFailed 2] ∧
      final.run.phase = .exited (some conclusion) conclusion.result ∧
      ∀ formatSize, commitFailedLine 2 conclusion.summary.uncommittedRows ∈
        printHumanReport formatSize conclusion.summary := by
  obtain ⟨final, run, shown⟩ := Option.map_eq_some_iff.mp (show
    ((Process.machine sampleDeployment).exec ⟨sampleWorld, Run.start (turnsPlan 1)⟩
      (rejectedSchedule 1 1000000)).map (fun final => final.run.phase.exit?.map
        fun ended => ended.1.map fun conclusion => (conclusion.summary.commit,
          conclusion.commitFailure.isSome,
          Decidable.decide (ended.2 = conclusion.result))) =
      some (some (some (⟨1, 1, 1⟩, true, true))) by decide +kernel)
  have sizes : ((Process.machine sampleDeployment).observe Process.handing
      ⟨sampleWorld, Run.start (turnsPlan 1)⟩ (rejectedSchedule 1 1000000)).map List.length =
      [1, 1] := by decide +kernel
  obtain ⟨⟨drawn, result⟩, phase, concluded⟩ := Option.map_eq_some_iff.mp shown
  obtain ⟨conclusion, rfl, numbers⟩ := Option.map_eq_some_iff.mp concluded
  simp only [Prod.mk.injEq, decide_eq_true_eq] at numbers
  obtain ⟨counts, failed, rfl⟩ := numbers
  have exited := RunPhase.exit?_eq_some_iff.mp phase
  obtain ⟨-, agree⟩ := batch_numbers_agree rfl run exited
  obtain ⟨-, journal, recorded, shown, -, -, -, -, numbered⟩ := agree conclusion rfl
  obtain ⟨error, failure⟩ := Option.isSome_iff_exists.mp failed
  obtain ⟨terminal, -, printed⟩ := numbered error failure
  refine ⟨final, conclusion, journal, run, recorded, ?_, exited, by simpa [counts] using printed⟩
  simp only [List.map_take, sizes, counts, failed, terminal] at shown
  exact shown

end AntiEntropator.Ingest
