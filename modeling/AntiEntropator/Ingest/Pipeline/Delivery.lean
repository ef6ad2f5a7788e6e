import AntiEntropator.Batching
import AntiEntropator.GuardedMachine.Basic
import AntiEntropator.Ingest.Pipeline.Accounting

/-!
# Exactly-once delivery to the committer

What a schedule shows at the commit boundary: the rows the producer counts as
observed, and the attempts and results of commits.  The ledger invariant says
where the rows between the two are.
-/

namespace AntiEntropator.Ingest.Pipeline

open Batching

variable {Future Call : Type}

inductive CommitEvent where
  | offered : List FileInfo → CommitEvent
  | acknowledged
  | failed
  deriving DecidableEq

def tallied (state : State Future Call) : Action → List FileInfo
  | .join index =>
      match state.set[index]? with
      | some ⟨_, .finished (.result (.ok outcome))⟩ => (outcomeRow? outcome).toList
      | _ => []
  | _ => []

/-- The batch handed to `commit`: the writer leaves `recv` for a commit. -/
def handedOver (cfg : PipelineConfig) (parts : Parts Future Call) (state : State Future Call)
    (action : Action) : List (List FileInfo) :=
  match state.writer, (step cfg parts state action).map State.writer with
  | .receiving _, some (.committing rows _ _) => [rows]
  | _, _ => []

def commitEvents (cfg : PipelineConfig) (parts : Parts Future Call) (state : State Future Call)
    (action : Action) : List CommitEvent :=
  (handedOver cfg parts state action).map .offered ++
    match action with
    | .commitOk => [.acknowledged]
    | .commitErr _ => [.failed]
    | _ => []

def offeredBatches (events : List CommitEvent) : List (List FileInfo) :=
  events.filterMap fun
    | .offered rows => some rows
    | _ => none

/-- Batches offered and acknowledged one after another. -/
def acknowledgedEvents (batches : List (List FileInfo)) : List CommitEvent :=
  batches.flatMap fun rows => [.offered rows, .acknowledged]

@[simp]
theorem offeredBatches_append (first second : List CommitEvent) :
    offeredBatches (first ++ second) = offeredBatches first ++ offeredBatches second := by
  simp [offeredBatches]

@[simp]
theorem offeredBatches_acknowledgedEvents (batches : List (List FileInfo)) :
    offeredBatches (acknowledgedEvents batches) = batches := by
  induction batches with
  | nil => rfl
  | cons rows rest inductionHypothesis =>
      simpa [offeredBatches, acknowledgedEvents] using inductionHypothesis

theorem acknowledgedEvents_snoc (batches : List (List FileInfo)) (rows : List FileInfo) :
    acknowledgedEvents (batches ++ [rows]) =
      acknowledgedEvents batches ++ [.offered rows, .acknowledged] := by
  simp [acknowledgedEvents]

/-- The commit counts are those of the acknowledged batches. -/
def Acknowledged (commit : CommitCounts) (batches : List (List FileInfo)) : Prop :=
  commit.batchesCommitted = batches.length ∧ commit.committed = batches.flatten.length

theorem Acknowledged.snoc {commit : CommitCounts} {batches : List (List FileInfo)}
    (acknowledged : Acknowledged commit batches) (rows : List FileInfo) :
    Acknowledged { commit with
      committed := commit.committed + rows.length
      batchesCommitted := commit.batchesCommitted + 1 } (batches ++ [rows]) := by
  simp [Acknowledged, acknowledged.1, acknowledged.2]

/-- Rows counted but not yet received by the writer. -/
def State.inTransit (state : State Future Call) : List FileInfo :=
  state.channel ++ state.producer.rows

/-- Where the observed rows are, for each phase of the writer: in the batches
`done`, which are acknowledged, in the current batch, or in transit. -/
inductive Ledger (cfg : PipelineConfig) (rows : List FileInfo) (events : List CommitEvent)
    (state : State Future Call) : Prop where
  | receiving {batch done} :
      state.writer = .receiving batch → events = acknowledgedEvents done →
      Full cfg.batchSize done → Acknowledged state.commit done →
      batch.length < cfg.batchSize →
      done.flatten ++ batch ++ state.inTransit = rows → Ledger cfg rows events state
  | committing {batch call tail done} :
      state.writer = .committing batch call tail →
      events = acknowledgedEvents done ++ [.offered batch] →
      Full cfg.batchSize done → Acknowledged state.commit done →
      batch ≠ [] → batch.length ≤ cfg.batchSize →
      (tail = false → batch.length = cfg.batchSize) →
      (tail = true → state.producer = .returned ∧ state.channel = []) →
      done.flatten ++ batch ++ state.inTransit = rows → Ledger cfg rows events state
  | finished {done} :
      state.writer = .returned none → events = acknowledgedEvents done →
      Batched cfg.batchSize done → Acknowledged state.commit done →
      state.producer = .returned → done.flatten = rows → Ledger cfg rows events state
  | failed {error batch done} :
      state.writer = .returned (some error) →
      events = acknowledgedEvents done ++ [.offered batch, .failed] →
      Full cfg.batchSize done → Acknowledged state.commit done →
      batch ≠ [] → batch.length ≤ cfg.batchSize →
      done.flatten ++ batch <+: rows → Ledger cfg rows events state

/-- A step of the producer or of a task: the writer is not involved, and the
new rows go into transit or, after a failure, may be lost. -/
theorem Ledger.advance {cfg : PipelineConfig} {rows added : List FileInfo}
    {events : List CommitEvent} {state next : State Future Call}
    (ledger : Ledger cfg rows events state)
    (writer : next.writer = state.writer) (commit : next.commit = state.commit)
    (ended : state.producer = .returned →
      next.producer = .returned ∧ next.channel = state.channel ∧ added = [])
    (transit : next.inTransit = state.inTransit ++ added ∨
      ∃ error, state.writer = .returned (some error)) :
    Ledger cfg (rows ++ added) events next := by
  cases ledger with
  | receiving phase shown full counts short placed =>
      refine .receiving (writer.trans phase) shown full (commit ▸ counts) short ?_
      rcases transit with moved | ⟨error, stopped⟩
      · simp only [moved, ← placed, List.append_assoc]
      · rw [phase] at stopped
        cases stopped
  | committing phase shown full counts nonempty bounded whole closed placed =>
      refine .committing (writer.trans phase) shown full (commit ▸ counts) nonempty bounded whole
        ?_ ?_
      · intro tail
        obtain ⟨returned, empty⟩ := closed tail
        exact ⟨(ended returned).1, (ended returned).2.1.trans empty⟩
      · rcases transit with moved | ⟨error, stopped⟩
        · simp only [moved, ← placed, List.append_assoc]
        · rw [phase] at stopped
          cases stopped
  | finished phase shown batched counts returned placed =>
      refine .finished (writer.trans phase) shown batched (commit ▸ counts) (ended returned).1 ?_
      rw [(ended returned).2.2, List.append_nil, placed]
  | failed phase shown full counts nonempty bounded placed =>
      exact .failed (writer.trans phase) shown full (commit ▸ counts) nonempty bounded
        (placed.trans (List.prefix_append rows added))

theorem Ledger.move {cfg : PipelineConfig} {rows : List FileInfo} {events : List CommitEvent}
    {state next : State Future Call} (ledger : Ledger cfg rows events state)
    (writer : next.writer = state.writer) (commit : next.commit = state.commit)
    (ended : state.producer = .returned →
      next.producer = .returned ∧ next.channel = state.channel)
    (transit : next.inTransit = state.inTransit ∨
      ∃ error, state.writer = .returned (some error)) :
    Ledger cfg rows events next := by
  have moved : Ledger cfg (rows ++ []) events next := by
    refine ledger.advance writer commit (fun returned => ?_) (transit.imp_left ?_)
    · exact ⟨(ended returned).1, (ended returned).2, rfl⟩
    · intro same
      rw [same, List.append_nil]
  rwa [List.append_nil] at moved

theorem Ledger.whileReceiving {cfg : PipelineConfig} {rows batch : List FileInfo}
    {events : List CommitEvent} {state : State Future Call} (ledger : Ledger cfg rows events state)
    (receiving : state.writer = .receiving batch) :
    ∃ done, events = acknowledgedEvents done ∧ Full cfg.batchSize done ∧
      Acknowledged state.commit done ∧ batch.length < cfg.batchSize ∧
      done.flatten ++ batch ++ state.inTransit = rows := by
  cases ledger with
  | receiving phase shown full counts bound placed =>
      rw [receiving, Writer.receiving.injEq] at phase
      subst phase
      exact ⟨_, shown, full, counts, bound, placed⟩
  | committing phase => simp [receiving] at phase
  | finished phase => simp [receiving] at phase
  | failed phase => simp [receiving] at phase

theorem Ledger.whileCommitting {cfg : PipelineConfig} {rows batch : List FileInfo} {call : Call}
    {tail : Bool} {events : List CommitEvent} {state : State Future Call}
    (ledger : Ledger cfg rows events state)
    (committing : state.writer = .committing batch call tail) :
    ∃ done, events = acknowledgedEvents done ++ [.offered batch] ∧ Full cfg.batchSize done ∧
      Acknowledged state.commit done ∧ batch ≠ [] ∧ batch.length ≤ cfg.batchSize ∧
      (tail = false → batch.length = cfg.batchSize) ∧
      (tail = true → state.producer = .returned ∧ state.channel = []) ∧
      done.flatten ++ batch ++ state.inTransit = rows := by
  cases ledger with
  | receiving phase => simp [committing] at phase
  | committing phase shown full counts nonempty bounded whole closed placed =>
      rw [committing, Writer.committing.injEq] at phase
      obtain ⟨rfl, -, rfl⟩ := phase
      exact ⟨_, shown, full, counts, nonempty, bounded, whole, closed, placed⟩
  | finished phase => simp [committing] at phase
  | failed phase => simp [committing] at phase

theorem handedOver_eq_nil {cfg : PipelineConfig} {parts : Parts Future Call}
    {state next : State Future Call} {action : Action}
    (stepped : step cfg parts state action = some next) (same : next.writer = state.writer) :
    handedOver cfg parts state action = [] := by
  unfold handedOver
  rw [stepped, Option.map_some, same]
  cases state.writer <;> rfl

theorem commitEvents_eq_nil {cfg : PipelineConfig} {parts : Parts Future Call}
    {state next : State Future Call} {action : Action}
    (stepped : step cfg parts state action = some next) (same : next.writer = state.writer) :
    commitEvents cfg parts state action = [] := by
  have none := handedOver_eq_nil stepped same
  unfold commitEvents
  rw [none]
  cases Step.of_step stepped with
  | commitOk committing =>
      rw [committing] at same
      split at same <;> cases same
  | commitErr committing =>
      rw [committing] at same
      cases same
  | _ => rfl

theorem Ledger.quiet {cfg : PipelineConfig} {parts : Parts Future Call} {rows : List FileInfo}
    {events : List CommitEvent} {state next : State Future Call} {action : Action}
    (ledger : Ledger cfg rows events state) (stepped : step cfg parts state action = some next)
    (none : tallied state action = []) (writer : next.writer = state.writer)
    (commit : next.commit = state.commit)
    (ended : state.producer = .returned →
      next.producer = .returned ∧ next.channel = state.channel)
    (transit : next.inTransit = state.inTransit ∨
      ∃ error, state.writer = .returned (some error)) :
    Ledger cfg (rows ++ tallied state action) (events ++ commitEvents cfg parts state action)
      next := by
  rw [none, commitEvents_eq_nil stepped writer, List.append_nil, List.append_nil]
  exact ledger.move writer commit ended transit

theorem Ledger.step {cfg : PipelineConfig} {parts : Parts Future Call} {rows : List FileInfo}
    {events : List CommitEvent} {state next : State Future Call} {action : Action}
    (writes : parts.committer ≠ none) (ledger : Ledger cfg rows events state)
    (stepped : step cfg parts state action = some next) :
    Ledger cfg (rows ++ tallied state action) (events ++ commitEvents cfg parts state action)
      next := by
  cases Step.of_step stepped with
  | spawn filling =>
      exact ledger.quiet stepped rfl rfl rfl (by simp [filling]) (.inl rfl)
  | await filling =>
      exact ledger.quiet stepped rfl rfl rfl (by simp [filling])
        (.inl (by simp [State.inTransit, filling, Producer.rows]))
  | finish found =>
      exact ledger.quiet stepped rfl rfl rfl (fun returned => ⟨returned, rfl⟩) (.inl rfl)
  | @joinFailed index path joined text joining found failed =>
      have none : tallied state (.join index) = [] := by
        rcases joined with ⟨error | outcome⟩ | text
        · simp [tallied, found]
        · cases failed
        · simp [tallied, found]
      exact ledger.quiet stepped none rfl rfl (by simp [joining])
        (.inl (by simp [State.inTransit, joining, Producer.rows]))
  | @joinQuiet index path outcome joining found quiet =>
      have noRow := quiet.resolve_right writes
      exact ledger.quiet stepped (by simp [tallied, found, noRow]) rfl rfl (by simp [joining])
        (.inl (by simp [State.inTransit, joining, Producer.rows]))
  | @joinRow index path outcome row commit joining found rowCase committer =>
      have counted : tallied state (.join index) = [row] := by simp [tallied, found, rowCase]
      rw [counted, commitEvents_eq_nil stepped rfl, List.append_nil]
      exact ledger.advance rfl rfl (by simp [joining])
        (.inl (by simp [State.inTransit, joining, Producer.rows]))
  | drain joining empty =>
      exact ledger.quiet stepped rfl rfl rfl (by simp [joining])
        (.inl (by simp [State.inTransit, joining, Producer.rows]))
  | sendQueued sending =>
      exact ledger.quiet stepped rfl rfl rfl (by simp [sending])
        (.inl (by simp [State.inTransit, sending, Producer.rows]))
  | sendDropped sending gone =>
      refine ledger.quiet stepped rfl rfl rfl (by simp [sending]) (.inr ?_)
      cases ledger with
      | receiving phase => simp [State.receiverOpen, phase] at gone
      | committing phase => simp [State.receiverOpen, phase] at gone
      | finished phase shown batched counts returned => simp [sending] at returned
      | failed phase => exact ⟨_, phase⟩
  | recvMore receiving channel short =>
      have none : handedOver cfg parts state .recv = [] := by
        simp [handedOver, stepped, receiving]
      simp only [commitEvents, none, tallied, List.map_nil, List.append_nil]
      obtain ⟨done, shown, full, counts, bound, placed⟩ := ledger.whileReceiving receiving
      refine .receiving rfl shown full counts (by simpa using short) ?_
      simpa [State.inTransit, channel] using placed
  | @recvFull batch row rest commit receiving channel whole committer =>
      have handed : handedOver cfg parts state .recv = [batch ++ [row]] := by
        simp [handedOver, stepped, receiving]
      simp only [commitEvents, handed, tallied, List.map_cons, List.map_nil, List.append_nil]
      obtain ⟨done, shown, full, counts, bound, placed⟩ := ledger.whileReceiving receiving
      have length : (batch ++ [row]).length = cfg.batchSize := by
        simp only [List.length_append, List.length_cons, List.length_nil]
        omega
      refine .committing rfl (by rw [shown]) full counts (by simp) (Nat.le_of_eq length)
        (fun _ => length) (by simp) ?_
      simpa [State.inTransit, channel] using placed
  | recvClosedEmpty receiving channel returned =>
      have none : handedOver cfg parts state .recvClosed = [] := by
        simp [handedOver, stepped, receiving]
      simp only [commitEvents, none, tallied, List.map_nil, List.append_nil]
      obtain ⟨done, shown, full, counts, bound, placed⟩ := ledger.whileReceiving receiving
      refine .finished rfl shown (full.batched cfg.batchSize_pos) counts returned ?_
      simpa [State.inTransit, channel, returned, Producer.rows] using placed
  | @recvClosedTail batch commit receiving channel returned nonempty committer =>
      have handed : handedOver cfg parts state .recvClosed = [batch] := by
        simp [handedOver, stepped, receiving]
      simp only [commitEvents, handed, tallied, List.map_cons, List.map_nil, List.append_nil]
      obtain ⟨done, shown, full, counts, bound, placed⟩ := ledger.whileReceiving receiving
      exact .committing rfl (by rw [shown]) full counts nonempty (Nat.le_of_lt bound)
        (by simp) (fun _ => ⟨returned, channel⟩) placed
  | @commitOk batch call tail committing =>
      have none : handedOver cfg parts state .commitOk = [] := by
        simp [handedOver, committing]
      simp only [commitEvents, none, tallied, List.map_nil, List.nil_append, List.append_nil]
      obtain ⟨done, shown, full, counts, nonempty, bounded, whole, closed, placed⟩ :=
        ledger.whileCommitting committing
      have events : events ++ [CommitEvent.acknowledged] =
          acknowledgedEvents (done ++ [batch]) := by
        rw [shown, acknowledgedEvents_snoc, List.append_assoc]
        rfl
      cases tail with
      | false =>
          refine .receiving rfl events (full.snoc (whole rfl)) (counts.snoc batch)
            cfg.batchSize_pos ?_
          simpa [State.inTransit] using placed
      | true =>
          obtain ⟨returned, empty⟩ := closed rfl
          refine .finished rfl events
            (full.batched_snoc cfg.batchSize_pos nonempty bounded) (counts.snoc batch)
            returned ?_
          simpa [State.inTransit, returned, empty, Producer.rows] using placed
  | @commitErr batch call tail error committing =>
      have none : handedOver cfg parts state (.commitErr error) = [] := by
        simp [handedOver, committing]
      simp only [commitEvents, none, tallied, List.map_nil, List.nil_append, List.append_nil]
      obtain ⟨done, shown, full, counts, nonempty, bounded, whole, closed, placed⟩ :=
        ledger.whileCommitting committing
      refine .failed rfl (by rw [shown, List.append_assoc]; rfl) full counts nonempty bounded ?_
      rw [← placed]
      exact List.prefix_append _ _

/-- The rows counted as observed along a schedule, in completion order. -/
def observedRows (cfg : PipelineConfig) (parts : Parts Future Call) (files : List PathBuf)
    (actions : List Action) : List FileInfo :=
  (machine cfg parts).observe tallied (start parts files) actions

/-- What a schedule shows at the committer. -/
def commitHistory (cfg : PipelineConfig) (parts : Parts Future Call) (files : List PathBuf)
    (actions : List Action) : List CommitEvent :=
  (machine cfg parts).observe (commitEvents cfg parts) (start parts files) actions

theorem Ledger.initial (cfg : PipelineConfig) {parts : Parts Future Call} (files : List PathBuf)
    (writes : parts.committer ≠ none) : Ledger cfg [] [] (start parts files) := by
  have receiving : (start parts files).writer = .receiving [] := by
    simp [start, Option.isSome_iff_ne_none, writes]
  have nothing : [] = acknowledgedEvents [] := rfl
  exact .receiving receiving nothing (full_nil _) ⟨rfl, rfl⟩ cfg.batchSize_pos rfl

theorem ledger_of_exec {cfg : PipelineConfig} {parts : Parts Future Call} {files : List PathBuf}
    {actions : List Action} {state : State Future Call} (writes : parts.committer ≠ none)
    (run : (machine cfg parts).exec (start parts files) actions = some state) :
    Ledger cfg (observedRows cfg parts files actions) (commitHistory cfg parts files actions)
      state := by
  refine (machine cfg parts).exec_induction (motive := fun actions state =>
    Ledger cfg (observedRows cfg parts files actions) (commitHistory cfg parts files actions) state)
    (Ledger.initial cfg files writes) ?_ run
  intro actions middle action final before ledger stepped
  unfold observedRows commitHistory at ledger ⊢
  rw [(machine cfg parts).observe_snoc tallied before stepped,
    (machine cfg parts).observe_snoc _ before stepped]
  exact ledger.step writes stepped

theorem observed_step {cfg : PipelineConfig} {parts : Parts Future Call}
    {state next : State Future Call} {action : Action}
    (stepped : step cfg parts state action = some next) :
    next.counts.observed = state.counts.observed + (tallied state action).length := by
  cases Step.of_step stepped with
  | @joinFailed index path joined text joining found failed =>
      rcases joined with ⟨error | outcome⟩ | text
      · simp [tallied, found]
      · cases failed
      · simp [tallied, found]
  | @joinQuiet index path outcome joining found quiet =>
      simpa [tallied, found] using (tally_paths state.counts outcome).1
  | @joinRow index path outcome row commit joining found =>
      simpa [tallied, found] using (tally_paths state.counts outcome).1
  | _ => simp [tallied]

theorem length_observedRows {cfg : PipelineConfig} {parts : Parts Future Call}
    {files : List PathBuf} {actions : List Action} {state : State Future Call}
    (run : (machine cfg parts).exec (start parts files) actions = some state) :
    (observedRows cfg parts files actions).length = state.counts.observed := by
  refine (machine cfg parts).exec_induction (motive := fun actions state =>
    (observedRows cfg parts files actions).length = state.counts.observed) rfl ?_ run
  intro actions middle action final before inductionHypothesis stepped
  unfold observedRows at inductionHypothesis ⊢
  rw [(machine cfg parts).observe_snoc tallied before stepped, List.length_append,
    inductionHypothesis, observed_step stepped]

theorem stop_step {cfg : PipelineConfig} {parts : Parts Future Call}
    {state next : State Future Call} {action : Action} (stopped : state.stop = true)
    (stepped : step cfg parts state action = some next) : next.stop = true := by
  cases Step.of_step stepped with
  | commitErr => rfl
  | _ => exact stopped

theorem spawn_not_mem_of_stop {cfg : PipelineConfig} {parts : Parts Future Call}
    {actions : List Action} {state final : State Future Call} (stopped : state.stop = true)
    (run : (machine cfg parts).exec state actions = some final) : Action.spawn ∉ actions := by
  induction actions generalizing state with
  | nil => simp
  | cons action rest inductionHypothesis =>
      obtain ⟨next, stepped, remaining⟩ := (machine cfg parts).exec_cons_eq_some_iff.mp run
      have later := inductionHypothesis (stop_step stopped stepped) remaining
      have here : action ≠ .spawn := by
        rintro rfl
        cases Step.of_step (show step cfg parts state .spawn = some next from stepped) with
        | spawn filling pending room => simp [State.mayFill, stopped] at room
      simpa [here.symm] using later

theorem Ledger.batched {cfg : PipelineConfig} {rows : List FileInfo} {events : List CommitEvent}
    {state : State Future Call} (ledger : Ledger cfg rows events state) :
    Batched cfg.batchSize (offeredBatches events) := by
  have tail : ∀ {batch : List FileInfo} {done : List (List FileInfo)},
      Full cfg.batchSize done → batch ≠ [] →
      batch.length ≤ cfg.batchSize → Batched cfg.batchSize (done ++ [batch]) :=
    fun full nonempty bounded => full.batched_snoc cfg.batchSize_pos nonempty bounded
  cases ledger with
  | receiving phase shown full =>
      rw [shown, offeredBatches_acknowledgedEvents]
      exact full.batched cfg.batchSize_pos
  | committing phase shown full counts nonempty bounded =>
      rw [shown, offeredBatches_append, offeredBatches_acknowledgedEvents]
      exact tail full nonempty bounded
  | finished phase shown batched =>
      rwa [shown, offeredBatches_acknowledgedEvents]
  | failed phase shown full counts nonempty bounded =>
      rw [shown, offeredBatches_append, offeredBatches_acknowledgedEvents]
      exact tail full nonempty bounded

theorem Ledger.offered_prefix {cfg : PipelineConfig} {rows : List FileInfo}
    {events : List CommitEvent} {state : State Future Call}
    (ledger : Ledger cfg rows events state) :
    (offeredBatches events).flatten <+: rows := by
  cases ledger with
  | receiving phase shown full counts short placed =>
      rw [shown, offeredBatches_acknowledgedEvents, ← placed, List.append_assoc]
      exact List.prefix_append _ _
  | committing phase shown full counts nonempty bounded whole closed placed =>
      rw [shown, offeredBatches_append, offeredBatches_acknowledgedEvents, ← placed]
      simp [offeredBatches]
  | finished phase shown batched counts returned placed =>
      rw [shown, offeredBatches_acknowledgedEvents, placed]
  | failed phase shown full counts nonempty bounded placed =>
      rw [shown, offeredBatches_append, offeredBatches_acknowledgedEvents]
      simpa [offeredBatches] using placed

theorem Ledger.sequential {cfg : PipelineConfig} {rows : List FileInfo}
    {events : List CommitEvent} {state : State Future Call}
    (ledger : Ledger cfg rows events state) :
    ∃ done, events = acknowledgedEvents done ∨
      ∃ batch, events = acknowledgedEvents done ++ [.offered batch] ∨
        events = acknowledgedEvents done ++ [.offered batch, .failed] := by
  cases ledger with
  | receiving phase shown => exact ⟨_, .inl shown⟩
  | committing phase shown => exact ⟨_, .inr ⟨_, .inl shown⟩⟩
  | finished phase shown => exact ⟨_, .inl shown⟩
  | failed phase shown => exact ⟨_, .inr ⟨_, .inr shown⟩⟩

@[simp]
theorem failed_not_mem_acknowledgedEvents (batches : List (List FileInfo)) :
    CommitEvent.failed ∉ acknowledgedEvents batches := by
  simp [acknowledgedEvents]

/-- A batch that is not full is handed over only when every worker is done. -/
theorem short_batch_is_last {cfg : PipelineConfig} {parts : Parts Future Call}
    {files : List PathBuf} {actions : List Action} {state next : State Future Call}
    {action : Action} {batch : List FileInfo}
    (run : (machine cfg parts).exec (start parts files) actions = some state)
    (stepped : step cfg parts state action = some next)
    (handed : batch ∈ handedOver cfg parts state action) (short : batch.length < cfg.batchSize) :
    state.set = [] ∧ state.pending = [] ∧ state.counts.skipped = 0 ∧ state.channel = [] ∧
      state.producer = .returned := by
  have accounted := accounted_of_exec run
  cases Step.of_step stepped with
  | recvFull receiving channel full =>
      simp only [handedOver, stepped, receiving, Option.map_some, List.mem_singleton] at handed
      rw [handed] at short
      simp only [List.length_append, List.length_cons, List.length_nil] at short
      omega
  | recvClosedTail receiving channel returned =>
      obtain ⟨-, -, drained, stopped⟩ := accounted.skips
      obtain ⟨set, pending⟩ := drained returned
      refine ⟨set, pending, ?_, channel, returned⟩
      have running := accounted.stop.1
      simp only [receiving, Writer.failure?, Option.isSome_none] at running
      by_contra skipped
      simp [stopped (Nat.pos_of_ne_zero skipped)] at running
  | recvMore receiving => simp [handedOver, stepped, receiving] at handed
  | recvClosedEmpty receiving => simp [handedOver, stepped, receiving] at handed
  | commitOk committing => simp [handedOver, committing] at handed
  | commitErr committing => simp [handedOver, committing] at handed
  | _ =>
      rw [handedOver_eq_nil stepped rfl] at handed
      cases handed

theorem Ledger.unfailed {cfg : PipelineConfig} {rows : List FileInfo}
    {events : List CommitEvent} {state : State Future Call}
    (ledger : Ledger cfg rows events state) (writer : state.writer = .returned none) :
    CommitEvent.failed ∉ events := by
  cases ledger with
  | receiving phase shown => simp [writer] at phase
  | committing phase shown => simp [writer] at phase
  | finished phase shown => simp [shown]
  | failed phase shown => simp [writer] at phase

theorem Ledger.complete {cfg : PipelineConfig} {rows : List FileInfo}
    {events : List CommitEvent} {state : State Future Call} {report : PipelineReport}
    (ledger : Ledger cfg rows events state) (ended : state.report? = some report)
    (accepted : CommitEvent.failed ∉ events) :
    (offeredBatches events).flatten = rows ∧ report.commit.committed = rows.length ∧
      report.commit.batchesCommitted = (offeredBatches events).length ∧
      report.commitFailure = none := by
  obtain ⟨-, writer, -, commit, -⟩ := report?_eq_some_iff.mp ended
  cases ledger with
  | receiving phase => simp [writer] at phase
  | committing phase => simp [writer] at phase
  | finished phase shown batched counts returned placed =>
      rw [writer, Writer.returned.injEq] at phase
      rw [shown, offeredBatches_acknowledgedEvents, commit, ← placed]
      exact ⟨rfl, counts.2, counts.1, phase⟩
  | failed phase shown => simp [shown] at accepted

/-- A failed commit is the last one attempted; those before it are the ones
that count. -/
theorem Ledger.stopped {cfg : PipelineConfig} {rows : List FileInfo}
    {events attempts rest : List CommitEvent} {state : State Future Call}
    (ledger : Ledger cfg rows events state) (failed : events = attempts ++ .failed :: rest) :
    rest = [] ∧ offeredBatches events = offeredBatches attempts ∧
      Acknowledged state.commit (offeredBatches attempts).dropLast ∧
      state.commit.batchesCommitted + 1 = (offeredBatches attempts).length ∧
      state.writer.failure?.isSome = true := by
  have shown : CommitEvent.failed ∈ events := by simp [failed]
  cases ledger with
  | receiving phase events => simp [events] at shown
  | committing phase events => simp [events] at shown
  | finished phase events => simp [events] at shown
  | @failed error batch done phase events full counts =>
      have split : (acknowledgedEvents done ++ [.offered batch]) ++ .failed :: [] =
          attempts ++ .failed :: rest := by
        rw [← failed, events]
        simp
      have unique : attempts = acknowledgedEvents done ++ [.offered batch] ∧ rest = [] := by
        have cut := (List.append_cons_inj_of_notMem (by simp) (by simp)).mp split
        exact ⟨cut.1.symm, cut.2.2.symm⟩
      obtain ⟨rfl, rfl⟩ := unique
      have offered : offeredBatches (acknowledgedEvents done ++ [.offered batch]) =
          done ++ [batch] := by
        rw [offeredBatches_append, offeredBatches_acknowledgedEvents]
        rfl
      refine ⟨rfl, ?_, ?_, ?_, by simp [phase, Writer.failure?]⟩
      · rw [failed, offeredBatches_append]
        simp [offeredBatches]
      · rw [offered, List.dropLast_concat]
        exact counts
      · rw [offered, counts.1, List.length_append]
        rfl

def deliverySchedule : List Action :=
  [.spawn, .spawn, .await, .finish 1 (.result (.ok (.observed (sampleInfo [98] 20) .existing))),
    .join 1, .send, .spawn, .recv, .await,
    .finish 1 (.result (.ok (.observed (sampleInfo [99] 30) .uploaded))),
    .finish 0 (.result (.ok (.observed (sampleInfo [97] 10) .uploaded))), .join 0, .send,
    .await, .recv, .join 0, .send, .await, .drain, .commitOk, .recv, .recvClosed, .commitOk]

/-- Along every schedule of a pipeline with a committer, the committer is handed
exactly the observed rows, in order and in full batches, up to the first commit
that fails, after which nothing is committed or started. -/
theorem rows_are_delivered_exactly_once
    {cfg : PipelineConfig} {parts : Parts Future Call} {files : List PathBuf}
    {actions : List Action} {state : State Future Call} (writes : parts.committer ≠ none)
    (run : (machine cfg parts).exec (start parts files) actions = some state) :
    (offeredBatches (commitHistory cfg parts files actions)).flatten <+:
        observedRows cfg parts files actions ∧
      (observedRows cfg parts files actions).length = state.counts.observed ∧
      Batched cfg.batchSize (offeredBatches (commitHistory cfg parts files actions)) ∧
      (∀ before middle action after batch, actions = before ++ action :: after →
        (machine cfg parts).exec (start parts files) before = some middle →
        batch ∈ handedOver cfg parts middle action → batch.length < cfg.batchSize →
        middle.set = [] ∧ middle.pending = [] ∧ middle.counts.skipped = 0 ∧
          middle.channel = [] ∧ middle.producer = .returned) ∧
      (∃ done, commitHistory cfg parts files actions = acknowledgedEvents done ∨
        ∃ batch,
          commitHistory cfg parts files actions = acknowledgedEvents done ++ [.offered batch] ∨
          commitHistory cfg parts files actions =
            acknowledgedEvents done ++ [.offered batch, .failed]) ∧
      (∀ before error after, actions = before ++ .commitErr error :: after → .spawn ∉ after) ∧
      (∀ report, state.report? = some report →
        .failed ∉ commitHistory cfg parts files actions →
        (offeredBatches (commitHistory cfg parts files actions)).flatten =
            observedRows cfg parts files actions ∧
          (offeredBatches (commitHistory cfg parts files actions)).length =
            (report.counts.observed + (cfg.batchSize - 1)) / cfg.batchSize ∧
          report.commit.committed = report.counts.observed ∧
          report.commit.batchesCommitted =
            (offeredBatches (commitHistory cfg parts files actions)).length ∧
          report.commit.batchesFailed = 0) ∧
      (∀ report attempts rest, state.report? = some report →
        commitHistory cfg parts files actions = attempts ++ .failed :: rest →
        rest = [] ∧
          offeredBatches (commitHistory cfg parts files actions) = offeredBatches attempts ∧
          report.commit.batchesCommitted + 1 = (offeredBatches attempts).length ∧
          report.commit.batchesFailed = 1 ∧
          report.commit.committed = (offeredBatches attempts).dropLast.flatten.length) := by
  have ledger := ledger_of_exec writes run
  have observed := length_observedRows run
  refine ⟨ledger.offered_prefix, observed, ledger.batched, ?_, ledger.sequential, ?_, ?_, ?_⟩
  · rintro before middle action after batch rfl reached handed short
    obtain ⟨again, there, remaining⟩ := (machine cfg parts).exec_append_eq_some_iff.mp run
    rw [reached, Option.some.injEq] at there
    subst again
    obtain ⟨next, stepped, -⟩ := (machine cfg parts).exec_cons_eq_some_iff.mp remaining
    exact short_batch_is_last reached stepped handed short
  · rintro before error after rfl
    obtain ⟨middle, -, remaining⟩ := (machine cfg parts).exec_append_eq_some_iff.mp run
    obtain ⟨next, stepped, later⟩ := (machine cfg parts).exec_cons_eq_some_iff.mp remaining
    refine spawn_not_mem_of_stop ?_ later
    cases Step.of_step (show step cfg parts middle (.commitErr error) = some next from stepped) with
    | commitErr => rfl
  · intro report ended accepted
    obtain ⟨returned, writer, counts, commit, -⟩ := report?_eq_some_iff.mp ended
    obtain ⟨all, committed, batches, failure⟩ := ledger.complete ended accepted
    have number := ledger.batched.length_eq cfg.batchSize_pos
    have stop := (accounted_of_exec run).stop
    refine ⟨all, ?_, ?_, batches, ?_⟩
    · rw [number, all, observed, counts]
    · rw [committed, observed, counts]
    · rw [commit, stop.2, stop.1, writer, failure]
      rfl
  · intro report attempts rest ended failed
    obtain ⟨returned, writer, counts, commit, -⟩ := report?_eq_some_iff.mp ended
    obtain ⟨last, same, acknowledged, number, failure⟩ := ledger.stopped failed
    have stop := (accounted_of_exec run).stop
    refine ⟨last, same, by rw [commit, number], ?_, by rw [commit, acknowledged.2]⟩
    rw [commit, stop.2, stop.1, failure]
    rfl

theorem rows_are_delivered_exactly_once_tail :
    ∃ state report,
      (machine ⟨2, 2, by decide, by decide⟩ idleParts).exec
        (start idleParts [⟨[[97]]⟩, ⟨[[98]]⟩, ⟨[[99]]⟩]) deliverySchedule = some state ∧
      state.report? = some report ∧ report.counts.observed = 3 ∧
      (offeredBatches (commitHistory ⟨2, 2, by decide, by decide⟩ idleParts
        [⟨[[97]]⟩, ⟨[[98]]⟩, ⟨[[99]]⟩] deliverySchedule)).flatten =
        [sampleInfo [98] 20, sampleInfo [97] 10, sampleInfo [99] 30] := by
  obtain ⟨state, report, run, ended, observed, shown, accepted⟩ : ∃ state report,
      (machine ⟨2, 2, by decide, by decide⟩ idleParts).exec
        (start idleParts [⟨[[97]]⟩, ⟨[[98]]⟩, ⟨[[99]]⟩]) deliverySchedule = some state ∧
      state.report? = some report ∧ report.counts.observed = 3 ∧
      observedRows ⟨2, 2, by decide, by decide⟩ idleParts
        [⟨[[97]]⟩, ⟨[[98]]⟩, ⟨[[99]]⟩] deliverySchedule =
        [sampleInfo [98] 20, sampleInfo [97] 10, sampleInfo [99] 30] ∧
      CommitEvent.failed ∉ commitHistory ⟨2, 2, by decide, by decide⟩ idleParts
        [⟨[[97]]⟩, ⟨[[98]]⟩, ⟨[[99]]⟩] deliverySchedule :=
    ⟨_, _, rfl, rfl, rfl, rfl, by decide⟩
  obtain ⟨-, -, -, -, -, -, complete, -⟩ :=
    rows_are_delivered_exactly_once (by simp [idleParts]) run
  exact ⟨state, report, run, ended, observed, (complete report ended accepted).1.trans shown⟩

end AntiEntropator.Ingest.Pipeline
