import AntiEntropator.Ingest.Run.Phases
import Mathlib.Tactic.TFAE

/-!
# Success is honest

Exit status, summary, journal and the superseding of predecessors are computed
from different encodings of failure.  In every run they agree.
-/

namespace AntiEntropator.Ingest

/-! ## The conclusion drawn from a report -/

section Conclusion

variable (plan : RunPlan) (candidates : Nat) {report : Pipeline.PipelineReport}

theorem terminalState_eq_completed_iff :
    terminalState report = .completed ↔ report.errors = [] ∧ report.commitFailure = none := by
  unfold terminalState
  cases report.commitFailure <;> cases report.errors <;> simp

theorem result_eq_ok_iff :
    (Conclusion.build plan candidates report).result = .ok () ↔
      report.errors = [] ∧ report.commitFailure = none := by
  simp only [Conclusion.result, Conclusion.build, finalizeIngest, outcomeError, IngestSummary.build]
  rcases report with ⟨counts, commit, _ | ⟨error, rest⟩, _ | failure⟩
  · simp
  · simp
  · by_cases writes : plan.mode.writes = true <;> simp [writes]
  · simp

theorem status_eq_success_iff
    (stop : report.commit.batchesFailed = if report.commitFailure.isSome then 1 else 0) :
    (Conclusion.build plan candidates report).summary.status = .success ↔
      report.errors = [] ∧ report.commitFailure = none := by
  simp only [Conclusion.build, IngestSummary.build, CommitCounts.status, stop]
  cases report.commitFailure <;> cases report.errors <;>
    by_cases some : 0 < report.commit.batchesCommitted <;>
    simp [some]

/-- A failed commit decides status, terminal entry and result alone. -/
theorem conclusion_of_commitFailure {error : Error} (failure : report.commitFailure = some error)
    (stop : report.commit.batchesFailed = if report.commitFailure.isSome then 1 else 0) :
    (Conclusion.build plan candidates report).summary.status = .commitFailed ∧
      (Conclusion.build plan candidates report).terminal =
        .commitFailed (report.commit.batchesCommitted + 1) ∧
      (Conclusion.build plan candidates report).result =
        .error (error.context "metadata commit failed") := by
  simp [Conclusion.build, IngestSummary.build, CommitCounts.status, stop, failure, terminalState,
    Conclusion.result, finalizeIngest, outcomeError]

theorem conclusion_of_errors {plan : RunPlan} (candidates : Nat) (writes : plan.mode.writes = true)
    (accepted : report.commitFailure = none) (failed : report.errors ≠ [])
    (stop : report.commit.batchesFailed = if report.commitFailure.isSome then 1 else 0) :
    (Conclusion.build plan candidates report).summary.status = .incomplete ∧
      (Conclusion.build plan candidates report).terminal = .incomplete report.errors.length ∧
      (Conclusion.build plan candidates report).result =
        .error (Error.msg ("ingest incomplete: " ++ toString report.errors.length ++
          " file(s) failed")) := by
  obtain ⟨error, rest, errors⟩ := List.exists_cons_of_ne_nil failed
  by_cases some : 0 < report.commit.batchesCommitted <;>
    simp [Conclusion.build, IngestSummary.build, CommitCounts.status, stop, accepted, errors,
      terminalState, Conclusion.result, finalizeIngest, outcomeError, writes, some]

end Conclusion

namespace Process

/-! ## What a run passes to its journal, and whom it supersedes -/

def terminalsRecorded (process : Process) : ProcessAction → List RunState
  | .epilogue (.conclude _) =>
      match process.run.pipe.report?, process.run.journal with
      | some report, some _ => [terminalState report]
      | _, _ => []
  | _ => []

def supersedeCalls (process : Process) : ProcessAction → List (List RunJournal)
  | .epilogue action =>
      match process.run.phase,
        (process.epilogue action).map fun (next : Process) => next.run.phase with
      | .recording _, some (RunPhase.superseding journals _) => [journals]
      | _, _ => []
  | _ => []

/-- What a writing run has recorded and called, by phase. -/
def Trail (terminals : List RunState) (calls : List (List RunJournal)) (run : Run) : Prop :=
  match run.phase with
  | .starting => terminals = [] ∧ calls = []
  | .ingesting => terminals = [] ∧ calls = [] ∧ run.journal ≠ none
  | .recording conclusion => terminals = [conclusion.terminal] ∧ calls = []
  | .superseding _ conclusion =>
      terminals = [conclusion.terminal] ∧ calls = [run.openRuns] ∧
        conclusion.terminal = .completed
  | .exited (some conclusion) result =>
      terminals = [conclusion.terminal] ∧ result = conclusion.result ∧
        calls = if conclusion.terminal = .completed then [run.openRuns] else []
  | .exited none result =>
      terminals = [] ∧ calls = [] ∧ (run.files = [] ∨ ∃ error, result = .error error)
  | .killed => True
  | _ => terminals = [] ∧ calls = [] ∧ run.files = []

theorem Trail.early {terminals : List RunState} {calls : List (List RunJournal)} {run : Run}
    (early : Early run.phase) :
    Trail terminals calls run ↔ terminals = [] ∧ calls = [] ∧ run.files = [] := by
  rcases run with ⟨plan, phase⟩
  cases phase <;> first | rfl | exact early.elim

theorem PrologueStep.trail {process next : Process} {action : PrologueAction}
    {terminals : List RunState} {calls : List (List RunJournal)}
    (writes : process.run.plan.mode.writes = true) (trail : Trail terminals calls process.run)
    (stepped : PrologueStep process action next) : Trail terminals calls next.run := by
  have unstarted : ∀ {phase : RunPhase}, process.run.phase = phase → Early phase →
      terminals = [] ∧ calls = [] ∧ process.run.files = [] := by
    rintro phase rfl early
    exact (Trail.early early).mp trail
  cases stepped with
  | @proceed stage phase =>
      have nothing := unstarted phase trivial
      cases stage <;> exact nothing
  | failed error early fails =>
      obtain ⟨none, uncalled, -⟩ := unstarted rfl early
      exact ⟨none, uncalled, .inr ⟨_, rfl⟩⟩
  | loadState phase => exact unstarted phase trivial
  | list phase => exact unstarted phase trivial
  | load phase => exact unstarted phase trivial
  | loadFailed phase => exact unstarted phase trivial
  | report phase =>
      have nothing := unstarted phase trivial
      simp only [Process.report, writes, if_true]
      exact nothing
  | count phase => exact unstarted phase trivial
  | closed phase => exact unstarted phase trivial
  | closeFailed text phase =>
      obtain ⟨none, uncalled, -⟩ := unstarted phase trivial
      exact ⟨none, uncalled, .inr ⟨_, rfl⟩⟩
  | reconciled phase => exact unstarted phase trivial
  | collected phase =>
      obtain ⟨none, uncalled, empty⟩ := unstarted phase trivial
      simp only [Process.collected, writes, if_true]
      split
      · exact ⟨none, uncalled, .inl empty⟩
      · exact ⟨none, uncalled⟩
  | started phase =>
      simp only [Trail, phase] at trail
      exact ⟨trail.1, trail.2, by simp⟩
  | startFailed text phase =>
      simp only [Trail, phase] at trail
      exact ⟨trail.1, trail.2, .inr ⟨_, rfl⟩⟩

theorem IngestStep.trail {deployment : Deployment} {process next : Process}
    {action : IngestAction} {terminals : List RunState} {calls : List (List RunJournal)}
    (trail : Trail terminals calls process.run)
    (stepped : IngestStep deployment process action next) : Trail terminals calls next.run := by
  cases stepped with
  | pipeline phase =>
      simp only [Trail, phase] at trail
      simpa only [Trail, setPipe, phase] using trail
  | worker phase =>
      simp only [Trail, phase] at trail
      simpa only [Trail, setPipe, phase] using trail
  | commit phase committing recorded moved =>
      obtain ⟨-, -, same, -⟩ := moved.frame
      simp only [Trail, phase] at trail
      have kept : next.run.journal ≠ none := by
        cases moved <;> simp [withCall, setPipe, recorded]
      simp only [Trail, same, phase]
      exact ⟨trail.1, trail.2.1, kept⟩

theorem EpilogueStep.trail {process next : Process} {action : EpilogueAction}
    {terminals : List RunState} {calls : List (List RunJournal)}
    (trail : Trail terminals calls process.run) (taken : process.epilogue action = some next)
    (stepped : EpilogueStep process action next) :
    Trail (terminals ++ process.terminalsRecorded (.epilogue action))
      (calls ++ process.supersedeCalls (.epilogue action)) next.run := by
  cases stepped with
  | conclude phase reported recorded =>
      simp only [Trail, phase] at trail
      simp [Trail, terminalsRecorded, supersedeCalls, phase, reported, recorded, trail,
        Conclusion.build]
  | concludePreview phase reported preview =>
      simp only [Trail, phase] at trail
      exact (trail.2.2 preview).elim
  | @recorded conclusion journal phase recorded =>
      simp only [Trail, phase] at trail
      by_cases completed : conclusion.terminal = .completed <;>
        simp [Trail, terminalsRecorded, supersedeCalls, taken, phase, trail, completed, afterRecord,
          setPhase]
  | @recordFailed conclusion journal landed phase recorded =>
      simp only [Trail, phase] at trail
      by_cases completed : conclusion.terminal = .completed <;>
        simp [Trail, terminalsRecorded, supersedeCalls, taken, phase, trail, completed, afterRecord,
          setPhase]
  | supersede phase =>
      simp only [Trail, phase] at trail
      simpa [Trail, terminalsRecorded, supersedeCalls, phase, setPhase] using trail
  | supersedeFailed phase =>
      simp only [Trail, phase] at trail
      simpa [Trail, terminalsRecorded, supersedeCalls, phase, setPhase] using trail
  | exit phase =>
      simp only [Trail, phase] at trail
      simp [Trail, terminalsRecorded, supersedeCalls, phase, setPhase, trail]

theorem Step.trail {deployment : Deployment} {process next : Process} {action : ProcessAction}
    {terminals : List RunState} {calls : List (List RunJournal)}
    (writes : process.run.plan.mode.writes = true) (trail : Trail terminals calls process.run)
    (stepped : process.step deployment action = some next) :
    Trail (terminals ++ process.terminalsRecorded action)
      (calls ++ process.supersedeCalls action) next.run := by
  cases Step.of_step stepped with
  | prologue taken =>
      simpa [terminalsRecorded, supersedeCalls] using taken.trail writes trail
  | ingest taken => simpa [terminalsRecorded, supersedeCalls] using taken.trail trail
  | epilogue taken => exact taken.trail trail stepped
  | kill => simp [Trail, setPhase]
  | land =>
      simp only [terminalsRecorded, supersedeCalls, List.append_nil]
      exact trail
  | lose =>
      simp only [terminalsRecorded, supersedeCalls, List.append_nil]
      exact trail
  | edit => simpa [terminalsRecorded, supersedeCalls] using trail

def Concluded (run : Run) : Prop :=
  match run.phase with
  | .recording conclusion | .superseding _ conclusion | .exited (some conclusion) _ =>
      ∃ report, run.pipe.report? = some report ∧
        conclusion = Conclusion.build run.plan run.files.length report
  | _ => True

theorem PrologueStep.concluded {process next : Process} {action : PrologueAction}
    (stepped : PrologueStep process action next) : Concluded next.run := by
  cases stepped with
  | @proceed stage => cases stage <;> trivial
  | report =>
      simp only [Process.report]
      split <;> trivial
  | collected =>
      simp only [Process.collected]
      split
      · trivial
      · cases process.run.plan.mode.writes <;> trivial
  | _ => trivial

theorem Step.concluded {deployment : Deployment} {process next : Process}
    {action : ProcessAction} (concluded : Concluded process.run)
    (stepped : Step deployment process action next) : Concluded next.run := by
  cases stepped with
  | prologue taken => exact taken.concluded
  | ingest taken =>
      cases taken with
      | pipeline phase => simp [Concluded, setPipe, phase]
      | worker phase => simp [Concluded, setPipe, phase]
      | commit phase committing recorded moved =>
          obtain ⟨-, -, same, -⟩ := moved.frame
          simp [Concluded, same, phase]
  | epilogue taken =>
      cases taken with
      | conclude phase reported => exact ⟨_, reported, rfl⟩
      | concludePreview phase reported => exact ⟨_, reported, rfl⟩
      | recorded phase =>
          simp only [Concluded, phase] at concluded
          simp only [afterRecord]
          split <;> exact concluded
      | recordFailed phase =>
          simp only [Concluded, phase] at concluded
          simp only [afterRecord]
          split <;> exact concluded
      | supersede phase =>
          simp only [Concluded, phase] at concluded
          exact concluded
      | supersedeFailed phase =>
          simp only [Concluded, phase] at concluded
          exact concluded
      | exit phase =>
          simp only [Concluded, phase] at concluded
          exact concluded
  | kill => trivial
  | land => exact concluded
  | lose => exact concluded
  | edit => exact concluded

/-- The pipeline is told that a commit failed. -/
def CommitFailed (actions : List ProcessAction) : Prop :=
  ∃ error, .ingest (.pipeline (.commitErr error)) ∈ actions

theorem commitFailed_snoc {actions : List ProcessAction} {action : ProcessAction} :
    CommitFailed (actions ++ [action]) ↔
      CommitFailed actions ∨ ∃ error, action = .ingest (.pipeline (.commitErr error)) := by
  simp [CommitFailed, exists_or, eq_comm]

theorem Step.stop_iff {deployment : Deployment} {process next : Process} {action : ProcessAction}
    (fresh : Unrecorded process.run.phase → process.run.Fresh)
    (stepped : Step deployment process action next) :
    next.run.pipe.stop = true ↔ process.run.pipe.stop = true ∨
      ∃ error, action = .ingest (.pipeline (.commitErr error)) := by
  cases stepped with
  | prologue taken =>
      cases taken with
      | @proceed stage => cases stage <;> simp [Process.proceed, setPhase]
      | report => simp [(report_frame process _).2.2]
      | collected phase =>
          have lowered : process.run.pipe.stop = false := by
            rw [(fresh (.inl (by rw [phase]; trivial))).pipe]
            rfl
          simp only [Process.collected]
          split <;> simp [setPhase, lowered, Pipeline.start]
      | _ => simp [setPhase, fail]
  | ingest taken =>
      cases taken with
      | pipeline phase allowed moved =>
          cases Pipeline.Step.of_step moved <;> simp [setPipe]
      | worker => simp [setPipe]
      | commit phase committing recorded moved =>
          obtain ⟨-, -, -, -, changed, pipe⟩ := moved.frame
          simp [pipe]
  | epilogue taken => cases taken <;> simp [setPhase, afterRecord]
  | _ => simp [setPhase]

section Runs

variable {deployment : Deployment} {plan : RunPlan} {world : World}
  {actions : List ProcessAction} {final : Process}

theorem trail_of_exec (writes : plan.mode.writes = true)
    (exec : (machine deployment).exec ⟨world, Run.start plan⟩ actions = some final) :
    Trail ((machine deployment).observe terminalsRecorded ⟨world, Run.start plan⟩ actions)
      ((machine deployment).observe supersedeCalls ⟨world, Run.start plan⟩ actions) final.run := by
  refine (machine deployment).exec_induction (motive := fun actions (process : Process) =>
    Trail ((machine deployment).observe terminalsRecorded ⟨world, Run.start plan⟩ actions)
      ((machine deployment).observe supersedeCalls ⟨world, Run.start plan⟩ actions)
      process.run) ?_ ?_ exec
  · have early : Early (Run.start plan).phase := by
      simp only [Run.start]
      split <;> trivial
    exact (Trail.early early).mpr ⟨rfl, rfl, rfl⟩
  · intro actions middle action next before trail stepped
    rw [(machine deployment).observe_snoc _ before stepped,
      (machine deployment).observe_snoc _ before stepped]
    exact Step.trail (by rw [plan_of_exec before]; exact writes) trail stepped

theorem journal_of_ingesting (writes : plan.mode.writes = true)
    (exec : (machine deployment).exec ⟨world, Run.start plan⟩ actions = some final)
    (ingesting : final.run.phase = .ingesting) : final.run.journal ≠ none := by
  have trail := trail_of_exec writes exec
  simp only [Trail, ingesting] at trail
  exact trail.2.2

theorem concluded_of_exec
    (exec : (machine deployment).exec ⟨world, Run.start plan⟩ actions = some final) :
    Concluded final.run := by
  refine (machine deployment).exec_invariant (fun process => Concluded process.run) ?_
    (fun _ _ _ concluded stepped => (Step.of_step stepped).concluded concluded) exec
  simp only [Run.start]
  split <;> trivial

theorem stop_iff_of_exec
    (exec : (machine deployment).exec ⟨world, Run.start plan⟩ actions = some final) :
    final.run.pipe.stop = true ↔ CommitFailed actions := by
  refine (machine deployment).exec_induction (motive := fun actions (process : Process) =>
    process.run.pipe.stop = true ↔ CommitFailed actions) ?_ ?_ exec
  · simp [CommitFailed, Run.start, Pipeline.start]
  · intro actions middle action next before raised stepped
    rw [(Step.of_step stepped).stop_iff (fresh_of_exec before), raised, commitFailed_snoc]

theorem unfailed_of_exec {result : Except Error Unit}
    (exec : (machine deployment).exec ⟨world, Run.start plan⟩ actions = some final)
    (exited : final.run.phase = .exited none result) :
    ¬ CommitFailed actions ∧ final.run.pipe.errors = [] := by
  have fresh := fresh_of_unstarted exec (.inr ⟨result, exited⟩)
  rw [← stop_iff_of_exec exec, fresh.pipe]
  exact ⟨Bool.false_ne_true, rfl⟩

theorem report_of_exec {report : Pipeline.PipelineReport} (writes : plan.mode.writes = true)
    (exec : (machine deployment).exec ⟨world, Run.start plan⟩ actions = some final)
    (reported : final.run.pipe.report? = some report) :
    (report.commit.batchesFailed = if report.commitFailure.isSome then 1 else 0) ∧
      (report.commitFailure.isSome = true ↔ CommitFailed actions) ∧
      (report.commitFailure = none → report.counts.skipped = 0 ∧
        report.commit.committed = report.counts.observed ∧
        report.counts.observed + report.counts.unchanged + report.errors.length =
          final.run.files.length) := by
  obtain ⟨schedule, reached⟩ := pipelineReached_of_exec exec
  have ended : final.run.pipe.erase.report? = some report := by
    rw [Pipeline.report?_erase, reported]
  have committer : final.run.plan.parts.erase.committer ≠ none := by
    rw [plan_of_exec exec]
    simp [RunPlan.parts, writes, Pipeline.Parts.erase]
  have accounted := Pipeline.accounted_of_exec reached
  have ledger := Pipeline.ledger_of_exec committer reached
  obtain ⟨stop, skipped⟩ := accounted.report_stop ended
  obtain ⟨-, writer, counts, -⟩ := Pipeline.report?_eq_some_iff.mp ended
  have raised : final.run.pipe.stop = report.commitFailure.isSome := by
    have agree := accounted.stop.1
    rw [writer] at agree
    exact agree
  refine ⟨stop, by rw [← raised, stop_iff_of_exec exec], fun accepted => ?_⟩
  have unskipped : report.counts.skipped = 0 := by
    by_contra positive
    simpa [accepted] using skipped (Nat.pos_of_ne_zero positive)
  have unfailed := ledger.unfailed (accepted ▸ writer)
  obtain ⟨-, committed, -⟩ := ledger.complete ended unfailed
  have paths := accounted.report_paths ended
  refine ⟨unskipped, ?_, by omega⟩
  rw [committed, Pipeline.length_observedRows reached, counts]

end Runs

end Process

/-! ## A sample run -/

def RunPhase.exit? : RunPhase → Option (Option Conclusion × Except Error Unit)
  | .exited conclusion result => some (conclusion, result)
  | _ => none

theorem RunPhase.exit?_eq_some_iff {phase : RunPhase}
    {ended : Option Conclusion × Except Error Unit} :
    phase.exit? = some ended ↔ phase = .exited ended.1 ended.2 := by
  cases phase <;> simp [exit?, Prod.ext_iff]

def sampleDeployment : Deployment := ⟨sampleCrypto, "lake", true⟩

def samplePlan (runId : Uuid) : RunPlan where
  runId := runId
  sourceId := "/data"
  root := ⟨[utf8Bytes "data"]⟩
  mode := .ingest
  pipeline := ⟨2, 2, by decide, by decide⟩

def samplePath (name : String) : PathBuf := ⟨[utf8Bytes "data", utf8Bytes name]⟩

/-- Two files with the same content. -/
def sampleFiles : SourceFiles := fun path =>
  if path ∈ [samplePath "a", samplePath "b"] then
    some ⟨utf8Bytes "hello world", helloWorld_length_lt⟩
  else none

def sampleWorld : World := ⟨sampleFiles, fun _ => none, ∅, []⟩

def sampleDetails (now : DateTime) : ScanDetails :=
  ⟨0, "", "(none)", none, .other, none, none, none, now, none, none⟩

def sampleRow (runId : Uuid) (name : String) (now : DateTime) : FileInfo :=
  let context : FileContext :=
    ⟨⟨[utf8Bytes "data"]⟩, true, .ingest, runId, "/data", some fun _ => none⟩
  { (PreparedFile.observe sampleDeployment context
      (FileInfo.scanned (samplePath name) 11 (sampleDetails now)) name
      ⟨sampleCrypto.hexDigest (utf8Bytes "hello world")⟩ now).info with ingestedAt := some now }

/-- The prologue of a run that finds no journal. -/
def prologueSchedule (names : List String) (now : DateTime) : List ProcessAction :=
  [.proceed, .proceed, .proceed, .proceed, .loadState, .list, .report, .reconciled,
    .collect (names.map samplePath), .started now].map .prologue

/-- A worker hashes its file and finds it missing in the store. -/
def hashSchedule (index : Nat) (now : DateTime) : List ProcessAction :=
  [.scan (sampleDetails now), .read hashBufferBytes, .read 1, .observe now, .verify].map
    fun action => .ingest (.worker index action)

def uploadSchedule (index : Nat) (now : DateTime) : List ProcessAction :=
  ([.stat, .open, .openWriter, .read readBufferBytes, .write, .read 1, .close].map
      fun action => .ingest (.worker index (.upload action))) ++
    [.ingest (.worker index (.stamp now))]

def deliverSchedule (row : FileInfo) (blob : BlobState) : List ProcessAction :=
  [.finish 0 (.result (.ok (.observed row blob))), .join 0, .send, .await, .drain, .recv,
    .recvClosed].map fun action => .ingest (.pipeline action)

/-- A run over one file, up to its only commit. -/
def oneFileSchedule (runId : Uuid) (now : DateTime) : List ProcessAction :=
  prologueSchedule ["a"] now ++ [.ingest (.pipeline .spawn), .ingest (.pipeline .await)] ++
    hashSchedule 0 now ++ uploadSchedule 0 now ++
    deliverSchedule (sampleRow runId "a" now) .uploaded

def requestSchedule (now : DateTime) : List ProcessAction :=
  [.enter now, .saved, .request].map fun action => .ingest (.commit action)

def acknowledgeSchedule (now : DateTime) : List ProcessAction :=
  .land :: [.ingest (.commit (.acknowledged now)), .ingest (.commit .saved),
    .ingest (.pipeline .commitOk)]

def concludeSchedule (now : DateTime) : List ProcessAction :=
  [.epilogue (.conclude now), .epilogue .recorded]

/-- Two workers race to store the same content; one batch holds both rows. -/
def raceSchedule (runId : Uuid) (now : DateTime) : List ProcessAction :=
  ([.spawn, .spawn, .await].map fun action => .ingest (.pipeline action)) ++
    hashSchedule 0 now ++ hashSchedule 1 now ++ uploadSchedule 1 now ++ uploadSchedule 0 now ++
    ([.finish 0 (.result (.ok (.observed (sampleRow runId "a" now) .existing))), .join 0, .send,
      .await, .finish 0 (.result (.ok (.observed (sampleRow runId "b" now) .uploaded))), .join 0,
      .send, .await, .drain, .recv, .recv].map fun action => .ingest (.pipeline action)) ++
    requestSchedule now ++ acknowledgeSchedule now ++ [.ingest (.pipeline .recvClosed)] ++
    concludeSchedule now

/-- One worker at a time, and a batch for each row. -/
def turnsPlan (runId : Uuid) : RunPlan :=
  { samplePlan runId with pipeline := ⟨1, 1, by decide, by decide⟩ }

/-- The first file is committed, and the transaction with the second one is sent. -/
def turnsSchedule (runId : Uuid) (now : DateTime) : List ProcessAction :=
  prologueSchedule ["a", "b"] now ++
    ([.spawn, .await].map fun action => .ingest (.pipeline action)) ++
    hashSchedule 0 now ++ uploadSchedule 0 now ++
    ([.finish 0 (.result (.ok (.observed (sampleRow runId "a" now) .uploaded))), .join 0, .send,
      .recv].map fun action => .ingest (.pipeline action)) ++
    requestSchedule now ++ acknowledgeSchedule now ++
    ([.spawn, .await].map fun action => .ingest (.pipeline action)) ++
    hashSchedule 0 now ++ [.ingest (.worker 0 (.stamp now))] ++
    ([.finish 0 (.result (.ok (.observed (sampleRow runId "b" now) .existing))), .join 0, .send,
      .recv].map fun action => .ingest (.pipeline action)) ++
    requestSchedule now

def interruptedWorld : World :=
  { sampleWorld with
    journals := (∅ : JournalStore).insert 1 (RunJournal.new 1 "/data" 1 1000) }

def reconcileSchedule (names : List String) (now : DateTime) : List ProcessAction :=
  [.proceed, .proceed, .proceed, .proceed, .loadState, .list, .load, .report, .count now, .closed,
    .reconciled, .collect (names.map samplePath), .started now].map .prologue

def supersedingSchedule (now : DateTime) : List ProcessAction :=
  reconcileSchedule ["a", "b"] now ++ raceSchedule 2 now ++
    [.epilogue (.supersede now), .epilogue .exit]

open Process in
/-- However an ingest run with candidates went: command result, summary status,
terminal journal entry and superseding agree on whether it succeeded, success
means that every candidate is in the catalog, and a failed commit takes
precedence over failed files. -/
theorem success_is_honest
    {deployment : Deployment} {plan : RunPlan} {world : World} {actions : List ProcessAction}
    {final : Process} {conclusion : Option Conclusion} {result : Except Error Unit}
    (ingesting : plan.mode = .ingest)
    (exec : (machine deployment).exec ⟨world, Run.start plan⟩ actions = some final)
    (exited : final.run.phase = .exited conclusion result)
    (candidates : final.run.files ≠ []) :
    List.TFAE [
        result = .ok (),
        ∃ drawn, conclusion = some drawn ∧ drawn.summary.status = .success,
        (machine deployment).observe terminalsRecorded ⟨world, Run.start plan⟩ actions =
          [.completed],
        (machine deployment).observe supersedeCalls ⟨world, Run.start plan⟩ actions =
          [final.run.openRuns],
        ∃ drawn, conclusion = some drawn ∧ drawn.summary.errors = [] ∧
          ¬ CommitFailed actions] ∧
      (result = .ok () → ∃ drawn, conclusion = some drawn ∧
        drawn.summary.counts.skipped = 0 ∧ drawn.summary.failed = 0 ∧
        drawn.summary.counts.candidates = final.run.files.length ∧
        drawn.summary.counts.observed + drawn.summary.counts.unchanged =
          drawn.summary.counts.candidates ∧
        drawn.summary.commit.committed = drawn.summary.counts.observed ∧
        drawn.summary.commit.batchesFailed = 0) ∧
      (CommitFailed actions → ∃ drawn, conclusion = some drawn ∧
        drawn.summary.status = .commitFailed ∧
          (∃ batch, (machine deployment).observe terminalsRecorded ⟨world, Run.start plan⟩
            actions = [.commitFailed batch]) ∧
          ∃ error, result = .error error) ∧
      (¬ CommitFailed actions → final.run.pipe.errors ≠ [] → ∃ drawn, conclusion = some drawn ∧
        drawn.summary.errors = final.run.pipe.errors ∧ drawn.summary.status = .incomplete ∧
          (machine deployment).observe terminalsRecorded ⟨world, Run.start plan⟩ actions =
            [.incomplete drawn.summary.errors.length] ∧
          ∃ error, result = .error error) ∧
      ∀ drawn, conclusion = some drawn → drawn.summary.errors = final.run.pipe.errors := by
  have writes : plan.mode.writes = true := by rw [ingesting]; rfl
  have trail := trail_of_exec writes exec
  have concluded := concluded_of_exec exec
  cases conclusion with
  | none =>
      simp only [Trail, exited] at trail
      obtain ⟨terminals, calls, error, rfl⟩ := trail.imp_right (And.imp_right
        (Or.resolve_left · candidates))
      obtain ⟨unfailed, clean⟩ := unfailed_of_exec exec exited
      simp [terminals, calls, unfailed, clean]
  | some drawn =>
      simp only [Trail, exited] at trail
      simp only [Concluded, exited] at concluded
      obtain ⟨terminals, rfl, calls⟩ := trail
      obtain ⟨report, reported, rfl⟩ := concluded
      obtain ⟨stop, failed, success⟩ := report_of_exec writes exec reported
      have mode : final.run.plan.mode.writes = true := by rw [plan_of_exec exec]; exact writes
      have accepted : report.commitFailure = none ↔ ¬ CommitFailed actions := by
        rw [← failed, Bool.not_eq_true, Option.isSome_eq_false_iff, Option.isNone_iff_eq_none]
      have status := status_eq_success_iff final.run.plan final.run.files.length stop
      have completed : terminalState report = .completed ↔ _ := terminalState_eq_completed_iff
      have errors : report.errors = final.run.pipe.errors :=
        (Pipeline.report?_eq_some_iff.mp reported).2.2.2.2
      rw [terminals, calls]
      refine ⟨?_, ?_, ?_, ?_, ?_⟩
      · tfae_have 1 ↔ 5 := by
          rw [result_eq_ok_iff, accepted]
          exact ⟨fun both => ⟨_, rfl, both⟩, fun ⟨_, same, both⟩ => by cases same; exact both⟩
        tfae_have 2 ↔ 1 := by
          rw [result_eq_ok_iff, ← status]
          exact ⟨fun ⟨_, same, both⟩ => by cases same; exact both, fun both => ⟨_, rfl, both⟩⟩
        tfae_have 3 ↔ 1 := by
          rw [result_eq_ok_iff, ← completed, List.cons.injEq]
          exact and_iff_left rfl
        tfae_have 4 ↔ 3 := by
          split
          next done => simp [done]
          next other => simp [other]
        tfae_finish
      · intro succeeded
        obtain ⟨clean, unfailed⟩ := (result_eq_ok_iff _ _).mp succeeded
        obtain ⟨unskipped, committed, paths⟩ := success unfailed
        refine ⟨_, rfl, unskipped, ?_, rfl, ?_, committed, ?_⟩
        · simp [Conclusion.build, IngestSummary.build, clean]
        · simpa [Conclusion.build, IngestSummary.build, clean] using paths
        · simpa [Conclusion.build, IngestSummary.build, unfailed] using stop
      · intro happened
        obtain ⟨error, failure⟩ := Option.isSome_iff_exists.mp (failed.mpr happened)
        obtain ⟨status, terminal, result⟩ :=
          conclusion_of_commitFailure final.run.plan final.run.files.length failure stop
        exact ⟨_, rfl, status, ⟨_, by rw [terminal]⟩, _, result⟩
      · intro unfailed files
        rw [← errors] at files
        obtain ⟨status, terminal, result⟩ :=
          conclusion_of_errors final.run.files.length mode (accepted.mpr unfailed) files stop
        exact ⟨_, rfl, errors, status, by rw [terminal]; rfl, _, result⟩
      · rintro drawn same
        cases same
        exact errors

theorem success_is_honest_superseding :
    ∃ final drawn, (Process.machine sampleDeployment).exec
        ⟨interruptedWorld, Run.start (samplePlan 2)⟩ (supersedingSchedule 1000000) = some final ∧
      final.run.phase = .exited (some drawn) (.ok ()) ∧
      (Process.machine sampleDeployment).observe Process.terminalsRecorded
        ⟨interruptedWorld, Run.start (samplePlan 2)⟩ (supersedingSchedule 1000000) =
          [.completed] ∧
      (Process.machine sampleDeployment).observe Process.supersedeCalls
        ⟨interruptedWorld, Run.start (samplePlan 2)⟩ (supersedingSchedule 1000000) =
          [final.run.openRuns] ∧
      final.run.openRuns.map RunJournal.runId = [1] ∧
      drawn.summary.commit.committed = drawn.summary.counts.observed ∧
      drawn.summary.counts.candidates = 2 := by
  obtain ⟨final, run, shown⟩ := Option.map_eq_some_iff.mp (show
    ((Process.machine sampleDeployment).exec ⟨interruptedWorld, Run.start (samplePlan 2)⟩
      (supersedingSchedule 1000000)).map (fun final =>
        (final.run.files, final.run.openRuns.map RunJournal.runId,
          final.run.phase.exit?.map Prod.snd)) =
      some ([samplePath "a", samplePath "b"], [1], some (.ok ())) by decide +kernel)
  simp only [Prod.mk.injEq] at shown
  obtain ⟨files, predecessors, ended⟩ := shown
  obtain ⟨⟨conclusion, result⟩, phase, rfl⟩ := Option.map_eq_some_iff.mp ended
  have exited := RunPhase.exit?_eq_some_iff.mp phase
  obtain ⟨same, success, -⟩ := success_is_honest rfl run exited (by simp [files])
  obtain ⟨drawn, rfl, -, -, number, -, committed, -⟩ := success rfl
  exact ⟨final, drawn, run, exited, (same.out 0 2).mp rfl, (same.out 0 3).mp rfl, predecessors,
    committed, by rw [number, files]; rfl⟩

end AntiEntropator.Ingest
