import AntiEntropator.Ingest.Pipeline.Step

/-!
# Every candidate is accounted for

A file is pending, held by the task set, counted, or skipped; a row is held by
one part of the pipeline or lost after the writer stopped.  The invariants
below say so for every reachable state, whatever the schedule.
-/

namespace AntiEntropator.Ingest.Pipeline

variable {Future Call : Type}

def Producer.rows : Producer → List FileInfo
  | .sending row => [row]
  | _ => []

def Writer.rows : Writer Call → List FileInfo
  | .receiving batch => batch
  | .committing rows _ _ => rows
  | .returned _ => []

def Writer.failure? : Writer Call → Option Error
  | .returned failure => failure
  | _ => none

/-- Paths: each candidate is in exactly one place. -/
def PathsAccounted (total : Nat) (state : State Future Call) : Prop :=
  state.counts.observed + state.counts.unchanged + state.errors.length + state.set.length +
    state.pending.length + state.counts.skipped = total

theorem PathsAccounted.step {cfg : PipelineConfig} {parts : Parts Future Call} {total : Nat}
    {state next : State Future Call} {action : Action}
    (accounted : PathsAccounted total state) (fresh : state.producer ≠ .returned →
      state.counts.skipped = 0)
    (stepped : step cfg parts state action = some next) : PathsAccounted total next := by
  unfold PathsAccounted at accounted ⊢
  cases Step.of_step stepped with
  | spawn filling pending room =>
      simp only [pending, List.length_cons] at accounted
      simp only [List.length_append, List.length_cons, List.length_nil]
      omega
  | await => exact accounted
  | finish found => simpa using accounted
  | joinFailed joining found failed =>
      have held := List.length_eraseIdx_add_one (List.getElem?_eq_some_iff.mp found).1
      simp only [List.length_append, List.length_cons, List.length_nil]
      omega
  | @joinQuiet index path outcome joining found quiet =>
      have held := List.length_eraseIdx_add_one (List.getElem?_eq_some_iff.mp found).1
      have counted := (tally_paths state.counts outcome).2
      simp only [tally_skipped]
      omega
  | @joinRow index path outcome row commit joining found rowCase committer =>
      have held := List.length_eraseIdx_add_one (List.getElem?_eq_some_iff.mp found).1
      have counted := (tally_paths state.counts outcome).2
      simp only [tally_skipped]
      omega
  | drain joining empty =>
      have none := fresh (by simp [joining])
      simp only [List.length_nil]
      omega
  | sendQueued => exact accounted
  | sendDropped => exact accounted
  | recvMore => exact accounted
  | recvFull => exact accounted
  | recvClosedEmpty => exact accounted
  | recvClosedTail => exact accounted
  | commitOk => exact accounted
  | commitErr => exact accounted

/-- Blobs: every counted path is counted once on the blob axis. -/
def BlobsAccounted (state : State Future Call) : Prop :=
  state.counts.uploaded + state.counts.alreadyExists =
    state.counts.observed + state.counts.unchanged

theorem BlobsAccounted.step {cfg : PipelineConfig} {parts : Parts Future Call}
    {state next : State Future Call} {action : Action} (accounted : BlobsAccounted state)
    (stepped : step cfg parts state action = some next) : BlobsAccounted next := by
  unfold BlobsAccounted at accounted ⊢
  have counted : ∀ outcome,
      (tally state.counts outcome).1.uploaded + (tally state.counts outcome).1.alreadyExists =
        (tally state.counts outcome).1.observed + (tally state.counts outcome).1.unchanged := by
    intro outcome
    have paths := (tally_paths state.counts outcome).2
    have blobs := (tally_blobs state.counts outcome).2
    omega
  cases Step.of_step stepped with
  | joinQuiet => exact counted _
  | joinRow => exact counted _
  | _ => exact accounted

/-- Rows: what is committed or still on its way was counted as observed. -/
def RowsAccounted (state : State Future Call) : Prop :=
  state.commit.committed + state.writer.rows.length + state.channel.length +
    state.producer.rows.length ≤ state.counts.observed

theorem RowsAccounted.step {cfg : PipelineConfig} {parts : Parts Future Call}
    {state next : State Future Call} {action : Action} (accounted : RowsAccounted state)
    (stepped : step cfg parts state action = some next) : RowsAccounted next := by
  unfold RowsAccounted at accounted ⊢
  cases Step.of_step stepped with
  | spawn => exact accounted
  | await => exact Nat.le_trans (by simp [Producer.rows]) accounted
  | finish => exact accounted
  | joinFailed => exact Nat.le_trans (by simp [Producer.rows]) accounted
  | @joinQuiet index path outcome joining =>
      have counted := (tally_paths state.counts outcome).1
      simp only [joining, Producer.rows, List.length_nil] at accounted ⊢
      omega
  | @joinRow index path outcome row commit joining found rowCase committer =>
      have counted := (tally_paths state.counts outcome).1
      simp only [rowCase, Option.toList_some, List.length_cons, List.length_nil] at counted
      simp only [joining, Producer.rows, List.length_nil, List.length_cons] at accounted ⊢
      omega
  | drain => exact Nat.le_trans (by simp [Producer.rows]) accounted
  | sendQueued sending =>
      simp only [sending, Producer.rows, List.length_nil, List.length_cons,
        List.length_append] at accounted ⊢
      omega
  | sendDropped => exact Nat.le_trans (by simp [Producer.rows]) accounted
  | recvMore receiving channel =>
      simp only [receiving, channel, Writer.rows, List.length_cons, List.length_append,
        List.length_nil] at accounted ⊢
      omega
  | recvFull receiving channel =>
      simp only [receiving, channel, Writer.rows, List.length_cons, List.length_append,
        List.length_nil] at accounted ⊢
      omega
  | recvClosedEmpty => exact Nat.le_trans (by simp [Writer.rows]) accounted
  | recvClosedTail receiving =>
      simp only [receiving, Writer.rows] at accounted ⊢
      omega
  | @commitOk rows call tail committing =>
      simp only [committing, Writer.rows] at accounted
      cases tail <;> simp [Writer.rows] <;> omega
  | commitErr committing =>
      simp only [committing, Writer.rows, List.length_nil] at accounted ⊢
      omega

/-- The writer raises `stop` exactly when it returns an error, and then one
batch has failed. -/
def StopRecorded (state : State Future Call) : Prop :=
  state.stop = state.writer.failure?.isSome ∧
    state.commit.batchesFailed = if state.stop then 1 else 0

theorem StopRecorded.step {cfg : PipelineConfig} {parts : Parts Future Call}
    {state next : State Future Call} {action : Action} (recorded : StopRecorded state)
    (stepped : step cfg parts state action = some next) : StopRecorded next := by
  unfold StopRecorded at recorded ⊢
  cases Step.of_step stepped with
  | recvMore receiving => simpa [receiving, Writer.failure?] using recorded
  | recvFull receiving => simpa [receiving, Writer.failure?] using recorded
  | recvClosedEmpty receiving => simpa [receiving, Writer.failure?] using recorded
  | recvClosedTail receiving => simpa [receiving, Writer.failure?] using recorded
  | @commitOk rows call tail committing =>
      simp only [committing, Writer.failure?, Option.isSome_none] at recorded
      cases tail <;> simpa [Writer.failure?] using recorded
  | commitErr committing =>
      simp only [committing, Writer.failure?, Option.isSome_none] at recorded
      simp only [Writer.failure?, Option.isSome_some, if_true, true_and]
      rw [recorded.2, recorded.1]
      rfl
  | _ => exact recorded

/-- Files are skipped only by a producer that found `stop` raised: while it
waits for a task, the set is full, or nothing is pending, or the run stopped. -/
def SkipsExplained (cfg : PipelineConfig) (state : State Future Call) : Prop :=
  (state.producer = .joining →
    cfg.concurrency ≤ state.set.length ∨ state.stop = true ∨ state.pending = []) ∧
  (state.producer ≠ .returned → state.counts.skipped = 0) ∧
  (state.producer = .returned → state.set = [] ∧ state.pending = []) ∧
  (0 < state.counts.skipped → state.stop = true)

theorem SkipsExplained.step {cfg : PipelineConfig} {parts : Parts Future Call}
    {state next : State Future Call} {action : Action} (explained : SkipsExplained cfg state)
    (stepped : step cfg parts state action = some next) : SkipsExplained cfg next := by
  obtain ⟨waiting, fresh, ended, stopped⟩ := explained
  have untouched : ∀ {index : Nat} {path : PathBuf} {joined : Joined},
      state.set[index]? = some ⟨path, .finished joined⟩ → state.producer = .joining →
      state.counts.skipped = 0 := fun _ joining => fresh (by simp [joining])
  unfold SkipsExplained
  cases Step.of_step stepped with
  | spawn filling =>
      have none := fresh (by simp [filling])
      simp [filling, none]
  | await filling done =>
      have none := fresh (by simp [filling])
      refine ⟨fun _ => ?_, fun _ => none, by simp, by simp [none]⟩
      simp only [State.mayFill, not_and, not_not] at done
      by_cases full : cfg.concurrency ≤ state.set.length
      · exact .inl full
      · by_cases raised : state.stop = true
        · exact .inr (.inl raised)
        · exact .inr (.inr (done ⟨by omega, by simpa using raised⟩))
  | @finish index joined path future found =>
      refine ⟨fun joining => by simpa using waiting joining, fresh, fun returned => ?_, stopped⟩
      simp [(ended returned).1] at found
  | joinFailed joining found =>
      have none := untouched found joining
      simp [none]
  | joinQuiet joining found =>
      have none := untouched found joining
      simp [none]
  | joinRow joining found =>
      have none := untouched found joining
      simp [none]
  | drain joining empty =>
      refine ⟨by simp, by simp, fun _ => ⟨empty, rfl⟩, fun some => ?_⟩
      rcases waiting joining with full | raised | nothing
      · have positive := cfg.concurrency_pos
        simp only [empty, List.length_nil] at full
        omega
      · exact raised
      · simp [nothing] at some
  | sendQueued sending =>
      have none := fresh (by simp [sending])
      simp [none]
  | sendDropped sending =>
      have none := fresh (by simp [sending])
      simp [none]
  | commitErr =>
      refine ⟨fun joining => ?_, fresh, ended, fun _ => rfl⟩
      rcases waiting joining with full | raised | nothing
      · exact .inl full
      · exact .inr (.inl rfl)
      · exact .inr (.inr nothing)
  | _ => exact ⟨waiting, fresh, ended, stopped⟩

/-- Without a committer there is no channel and nothing is committed. -/
def PreviewIdle (parts : Parts Future Call) (state : State Future Call) : Prop :=
  parts.committer = none → state.writer = .returned none ∧ state.commit = {}

theorem PreviewIdle.step {cfg : PipelineConfig} {parts : Parts Future Call}
    {state next : State Future Call} {action : Action} (idle : PreviewIdle parts state)
    (stepped : step cfg parts state action = some next) : PreviewIdle parts next := by
  intro absent
  obtain ⟨returned, counts⟩ := idle absent
  cases Step.of_step stepped with
  | recvMore receiving => simp [returned] at receiving
  | recvFull receiving => simp [returned] at receiving
  | recvClosedEmpty receiving => simp [returned] at receiving
  | recvClosedTail receiving => simp [returned] at receiving
  | commitOk committing => simp [returned] at committing
  | commitErr committing => simp [returned] at committing
  | _ => exact ⟨returned, counts⟩

structure Accounted (cfg : PipelineConfig) (parts : Parts Future Call) (total : Nat)
    (state : State Future Call) : Prop where
  paths : PathsAccounted total state
  blobs : BlobsAccounted state
  rows : RowsAccounted state
  stop : StopRecorded state
  skips : SkipsExplained cfg state
  idle : PreviewIdle parts state

theorem Accounted.initial (cfg : PipelineConfig) (parts : Parts Future Call)
    (files : List PathBuf) : Accounted cfg parts files.length (start parts files) where
  paths := by simp [PathsAccounted, start]
  blobs := by simp [BlobsAccounted, start]
  rows := by cases committer : parts.committer <;>
    simp [RowsAccounted, start, committer, Writer.rows, Producer.rows]
  stop := by cases committer : parts.committer <;>
    simp [StopRecorded, start, committer, Writer.failure?]
  skips := by simp [SkipsExplained, start]
  idle := by simp +contextual [PreviewIdle, start]

theorem Accounted.step {cfg : PipelineConfig} {parts : Parts Future Call} {total : Nat}
    {state next : State Future Call} {action : Action}
    (accounted : Accounted cfg parts total state)
    (stepped : (machine cfg parts).step state action = some next) :
    Accounted cfg parts total next where
  paths := accounted.paths.step accounted.skips.2.1 stepped
  blobs := accounted.blobs.step stepped
  rows := accounted.rows.step stepped
  stop := accounted.stop.step stepped
  skips := accounted.skips.step stepped
  idle := accounted.idle.step stepped

theorem accounted_of_exec {cfg : PipelineConfig} {parts : Parts Future Call}
    {files : List PathBuf} {actions : List Action} {state : State Future Call}
    (run : (machine cfg parts).exec (start parts files) actions = some state) :
    Accounted cfg parts files.length state :=
  (machine cfg parts).exec_invariant (Accounted cfg parts files.length)
    (Accounted.initial cfg parts files) (fun _ _ _ accounted stepped => accounted.step stepped) run

theorem report?_eq_some_iff {state : State Future Call} {report : PipelineReport} :
    state.report? = some report ↔
      state.producer = .returned ∧ state.writer = .returned report.commitFailure ∧
        report.counts = state.counts ∧ report.commit = state.commit ∧
        report.errors = state.errors := by
  unfold State.report?
  split
  next failure returned writer =>
    rcases report with ⟨counts, commit, errors, commitFailure⟩
    simp only [Option.some.injEq, PipelineReport.mk.injEq, returned, writer, Writer.returned.injEq]
    constructor
    · rintro ⟨rfl, rfl, rfl, rfl⟩
      exact ⟨trivial, rfl, rfl, rfl, rfl⟩
    · rintro ⟨-, rfl, rfl, rfl, rfl⟩
      exact ⟨rfl, rfl, rfl, rfl⟩
  next other =>
    simp only [reduceCtorEq, false_iff, not_and]
    exact fun returned writer => (other _ returned writer).elim

theorem Accounted.report_paths {cfg : PipelineConfig} {parts : Parts Future Call} {total : Nat}
    {state : State Future Call} {report : PipelineReport}
    (accounted : Accounted cfg parts total state) (ended : state.report? = some report) :
    report.counts.observed + report.counts.unchanged + report.errors.length +
      report.counts.skipped = total := by
  obtain ⟨returned, -, counts, -, errors⟩ := report?_eq_some_iff.mp ended
  obtain ⟨-, -, drained, -⟩ := accounted.skips
  have paths := accounted.paths
  simp only [PathsAccounted, (drained returned).1, (drained returned).2, List.length_nil] at paths
  rw [counts, errors]
  omega

theorem Accounted.report_stop {cfg : PipelineConfig} {parts : Parts Future Call} {total : Nat}
    {state : State Future Call} {report : PipelineReport}
    (accounted : Accounted cfg parts total state) (ended : state.report? = some report) :
    report.commit.batchesFailed = (if report.commitFailure.isSome then 1 else 0) ∧
      (0 < report.counts.skipped → report.commitFailure.isSome = true) := by
  obtain ⟨-, writer, counts, commit, -⟩ := report?_eq_some_iff.mp ended
  have stop : state.stop = report.commitFailure.isSome := by
    simpa [writer, Writer.failure?] using accounted.stop.1
  obtain ⟨-, -, -, skipped⟩ := accounted.skips
  rw [counts, commit, ← stop]
  exact ⟨accounted.stop.2, skipped⟩

def sampleInfo (name : List UInt8) (sizeBytes : Nat) : FileInfo where
  id := 0
  sourcePath := ⟨[name]⟩
  filename := ""
  extension := "(none)"
  mimeType := none
  category := .other
  sizeBytes := sizeBytes
  contentHash := none
  partialHash := none
  createdAt := none
  modifiedAt := none
  scannedAt := 0
  objectUri := none
  ingestedAt := none
  suggestedName := none
  nameReason := none
  isDuplicate := false
  duplicateOf := none
  parentDir := ""
  groupId := none
  sourceId := none
  relativePath := none
  runId := none
  observationStatus := none
  observedAt := none

def idleParts : Parts Unit Unit := ⟨fun _ => (), some fun _ => ()⟩

/-- Four files with a batch of one: the second file fails, the first batch does,
and the last file is never started. -/
def stoppedSchedule : List Action :=
  [.spawn, .spawn, .await, .finish 1 (.result (.error (.msg "permission denied"))), .join 1,
    .spawn, .await, .finish 0 (.result (.ok (.observed (sampleInfo [97] 10) .uploaded))),
    .join 0, .send, .recv, .commitErr (.msg "catalog unavailable"), .await,
    .finish 0 (.result (.ok (.unchanged .existing))), .join 0, .await, .drain]

/-- Every candidate is accounted for exactly once in the report, on both axes,
and the commit counts and the skipped files tell whether a commit failed. -/
theorem report_accounts_for_every_candidate
    {cfg : PipelineConfig} {parts : Parts Future Call} {files : List PathBuf}
    {actions : List Action} {state : State Future Call} {report : PipelineReport}
    (run : (machine cfg parts).exec (start parts files) actions = some state)
    (ended : state.report? = some report) :
    report.counts.observed + report.counts.unchanged + report.errors.length +
        report.counts.skipped = files.length ∧
      report.counts.uploaded + report.counts.alreadyExists =
        report.counts.observed + report.counts.unchanged ∧
      report.commit.committed ≤ report.counts.observed ∧
      report.commit.batchesFailed ≤ 1 ∧
      (report.commit.batchesFailed = 1 ↔ report.commitFailure.isSome = true) ∧
      (0 < report.counts.skipped → report.commitFailure.isSome = true) ∧
      (parts.committer = none → report.commit = {} ∧ report.counts.skipped = 0) := by
  obtain ⟨returned, writer, counts, commit, errors⟩ := report?_eq_some_iff.mp ended
  have accounted := accounted_of_exec run
  obtain ⟨failed, skipped⟩ := accounted.report_stop ended
  refine ⟨accounted.report_paths ended, ?_, ?_, ?_, ?_, skipped, ?_⟩
  · rw [counts]
    exact accounted.blobs
  · rw [counts, commit]
    exact Nat.le_trans (by omega) accounted.rows
  · rw [failed]
    split <;> omega
  · rw [failed]
    split <;> simp_all
  · intro absent
    have idle := accounted.idle absent
    refine ⟨commit.trans idle.2, ?_⟩
    rw [idle.1, Writer.returned.injEq] at writer
    by_contra positive
    simp [← writer] at skipped
    exact positive skipped

theorem report_accounts_for_every_candidate_stopped :
    ∃ state report,
      (machine ⟨2, 1, by decide, by decide⟩ idleParts).exec
        (start idleParts [⟨[[97]]⟩, ⟨[[98]]⟩, ⟨[[99]]⟩, ⟨[[100]]⟩]) stoppedSchedule = some state ∧
      state.report? = some report ∧ report.counts.skipped = 1 ∧
      report.counts.observed + report.counts.unchanged + report.errors.length +
        report.counts.skipped = 4 := by
  obtain ⟨state, report, run, ended, skipped⟩ : ∃ state report,
      (machine ⟨2, 1, by decide, by decide⟩ idleParts).exec
        (start idleParts [⟨[[97]]⟩, ⟨[[98]]⟩, ⟨[[99]]⟩, ⟨[[100]]⟩]) stoppedSchedule = some state ∧
      state.report? = some report ∧ report.counts.skipped = 1 := ⟨_, _, rfl, rfl, rfl⟩
  exact ⟨state, report, run, ended, skipped, (report_accounts_for_every_candidate run ended).1⟩

end AntiEntropator.Ingest.Pipeline
