import AntiEntropator.GuardedMachine.Progress
import AntiEntropator.Ingest.Pipeline.Accounting

/-!
# Bounds and progress

The pipeline stays within its bounds, never waits for itself, and ends: every
step lowers one measure, in which a file weighs less the further it has got.
-/

namespace AntiEntropator.Ingest.Pipeline

open GuardedMachine

variable {Future Call : Type}

/-- What the parts may hold at a time. -/
def Bounded (cfg : PipelineConfig) (state : State Future Call) : Prop :=
  state.set.length ≤ cfg.concurrency ∧ state.channel.length ≤ cfg.batchSize ∧
    state.writer.rows.length ≤ cfg.batchSize ∧
    (∀ batch, state.writer = .receiving batch → batch.length < cfg.batchSize)

theorem Bounded.initial (cfg : PipelineConfig) (parts : Parts Future Call)
    (files : List PathBuf) : Bounded cfg (start parts files) := by
  have positive := cfg.batchSize_pos
  cases committer : parts.committer <;>
    simp [Bounded, start, committer, Writer.rows, positive]

theorem Bounded.step {cfg : PipelineConfig} {parts : Parts Future Call}
    {state next : State Future Call} {action : Action} (bounded : Bounded cfg state)
    (stepped : (machine cfg parts).step state action = some next) : Bounded cfg next := by
  obtain ⟨set, channel, rows, short⟩ := bounded
  unfold Bounded
  cases Step.of_step stepped with
  | spawn filling pending room =>
      refine ⟨?_, channel, rows, short⟩
      have free := room.1
      simp only [List.length_append, List.length_cons, List.length_nil]
      omega
  | finish found => exact ⟨by simpa using set, channel, rows, short⟩
  | joinFailed =>
      exact ⟨Nat.le_trans (List.length_eraseIdx_le _ _) set, channel, rows, short⟩
  | joinQuiet =>
      exact ⟨Nat.le_trans (List.length_eraseIdx_le _ _) set, channel, rows, short⟩
  | joinRow =>
      exact ⟨Nat.le_trans (List.length_eraseIdx_le _ _) set, channel, rows, short⟩
  | sendQueued sending receiverAlive room =>
      refine ⟨set, ?_, rows, short⟩
      simp only [List.length_append, List.length_cons, List.length_nil]
      omega
  | recvMore receiving channelCase room =>
      simp only [channelCase, List.length_cons] at channel
      refine ⟨set, Nat.le_of_succ_le channel, ?_, ?_⟩
      · simp only [Writer.rows, List.length_append, List.length_cons, List.length_nil]
        omega
      · rintro batch ⟨rfl⟩
        simpa using room
  | recvFull receiving channelCase full =>
      have room := short _ receiving
      simp only [channelCase, List.length_cons] at channel
      refine ⟨set, Nat.le_of_succ_le channel, ?_, by simp⟩
      simp only [Writer.rows, List.length_append, List.length_cons, List.length_nil]
      omega
  | recvClosedEmpty => exact ⟨set, channel, by simp [Writer.rows], by simp⟩
  | recvClosedTail receiving =>
      simp only [receiving, Writer.rows] at rows
      exact ⟨set, channel, rows, by simp⟩
  | @commitOk batch call tail committing =>
      have positive := cfg.batchSize_pos
      cases tail <;> exact ⟨set, channel, by simp [Writer.rows], by simp [positive]⟩
  | commitErr => exact ⟨set, by simp, by simp [Writer.rows], by simp⟩
  | _ => exact ⟨set, channel, rows, short⟩

theorem bounded_of_exec {cfg : PipelineConfig} {parts : Parts Future Call}
    {files : List PathBuf} {actions : List Action} {state : State Future Call}
    (run : (machine cfg parts).exec (start parts files) actions = some state) :
    Bounded cfg state :=
  (machine cfg parts).exec_invariant (Bounded cfg) (Bounded.initial cfg parts files)
    (fun _ _ _ bounded stepped => bounded.step stepped) run

/-! ## Progress -/

theorem Step.live {cfg : PipelineConfig} {parts : Parts Future Call}
    {state next : State Future Call} {action : Action}
    (stepped : Step cfg parts state action next) :
    (machine cfg parts).Live state := ⟨action, next, stepped.step_eq⟩

def WriterLive (cfg : PipelineConfig) (parts : Parts Future Call)
    (state : State Future Call) : Prop :=
  (∃ next, step cfg parts state .recv = some next) ∨
    (∃ next, step cfg parts state .commitOk = some next) ∧
      ∀ error, ∃ next, step cfg parts state (.commitErr error) = some next

theorem WriterLive.live {cfg : PipelineConfig} {parts : Parts Future Call}
    {state : State Future Call} (writer : WriterLive cfg parts state) :
    (machine cfg parts).Live state := by
  rcases writer with ⟨next, stepped⟩ | ⟨⟨next, stepped⟩, -⟩
  · exact ⟨.recv, next, stepped⟩
  · exact ⟨.commitOk, next, stepped⟩

theorem writerLive_of_committing {cfg : PipelineConfig} {parts : Parts Future Call}
    {state : State Future Call} {rows : List FileInfo} {call : Call} {tail : Bool}
    (committing : state.writer = .committing rows call tail) : WriterLive cfg parts state :=
  .inr ⟨⟨_, (Step.commitOk committing).step_eq⟩, fun _ => ⟨_, (Step.commitErr committing).step_eq⟩⟩

theorem writerLive_of_receiving {cfg : PipelineConfig} {parts : Parts Future Call}
    {state : State Future Call} {batch : List FileInfo} (writes : parts.committer ≠ none)
    (receiving : state.writer = .receiving batch) (nonempty : state.channel ≠ []) :
    WriterLive cfg parts state := by
  obtain ⟨row, rest, channel⟩ := List.exists_cons_of_ne_nil nonempty
  obtain ⟨commit, committer⟩ := Option.ne_none_iff_exists'.mp writes
  by_cases full : cfg.batchSize ≤ batch.length + 1
  · exact .inl ⟨_, (Step.recvFull receiving channel full committer).step_eq⟩
  · exact .inl ⟨_, (Step.recvMore receiving channel (by omega)).step_eq⟩

/-- A send that cannot complete waits for a writer that can move. -/
theorem send_or_writerLive {cfg : PipelineConfig} {parts : Parts Future Call}
    {state : State Future Call} {row : FileInfo} (idle : PreviewIdle parts state)
    (sending : state.producer = .sending row) :
    (∃ next, step cfg parts state .send = some next) ∨ WriterLive cfg parts state := by
  cases writer : state.writer with
  | returned failure =>
      exact .inl ⟨_, (Step.sendDropped sending (by simp [State.receiverOpen, writer])).step_eq⟩
  | committing rows call tail => exact .inr (writerLive_of_committing writer)
  | receiving batch =>
      by_cases room : state.channel.length < cfg.batchSize
      · have receiverAlive : state.receiverOpen = true := by simp [State.receiverOpen, writer]
        exact .inl ⟨_, (Step.sendQueued sending receiverAlive room).step_eq⟩
      · have positive := cfg.batchSize_pos
        refine .inr (writerLive_of_receiving (fun absent => ?_) writer ?_)
        · simp [(idle absent).1] at writer
        · exact List.ne_nil_of_length_pos (by omega)

theorem live_of_not_ended {cfg : PipelineConfig} {parts : Parts Future Call}
    {state : State Future Call} (idle : PreviewIdle parts state)
    (running : state.report? = none) : (machine cfg parts).Live state := by
  cases producer : state.producer with
  | filling =>
      by_cases more : state.mayFill cfg ∧ state.pending ≠ []
      · obtain ⟨path, rest, pending⟩ := List.exists_cons_of_ne_nil more.2
        exact (Step.spawn producer pending more.1).live
      · exact (Step.await producer more).live
  | joining =>
      cases set : state.set with
      | nil => exact (Step.drain producer set).live
      | cons task rest =>
          obtain ⟨path, taskState⟩ := task
          cases taskState with
          | running future =>
              have found : state.set[0]? = some ⟨path, .running future⟩ := by simp [set]
              have panicked : Step cfg parts state (.finish 0 (.panicked "")) _ := .finish found
              exact panicked.live
          | finished joined =>
              have found : state.set[0]? = some ⟨path, .finished joined⟩ := by simp [set]
              have stepped : step cfg parts state (.join 0) =
                  some ({ state with set := state.set.eraseIdx 0 }.absorb parts path joined) := by
                simp [step, producer, found]
              exact ⟨.join 0, _, stepped⟩
  | sending row =>
      rcases send_or_writerLive idle producer with ⟨next, stepped⟩ | writer
      · exact ⟨.send, next, stepped⟩
      · exact writer.live
  | returned =>
      cases writer : state.writer with
      | returned failure => simp [State.report?, producer, writer] at running
      | committing rows call tail => exact (writerLive_of_committing writer).live
      | receiving batch =>
          have writes : parts.committer ≠ none := fun absent => by
            simp [(idle absent).1] at writer
          by_cases empty : state.channel = []
          · obtain ⟨commit, committer⟩ := Option.ne_none_iff_exists'.mp writes
            by_cases nonempty : batch = []
            · subst batch
              exact (Step.recvClosedEmpty writer empty producer).live
            · exact (Step.recvClosedTail writer empty producer nonempty committer).live
          · exact (writerLive_of_receiving writes writer empty).live

/-! ## Termination -/

def TaskState.weight : TaskState Future → Nat
  | .running _ => 7
  | .finished _ => 6

def Producer.weight : Producer → Nat
  | .filling => 2
  | .joining => 1
  | .sending _ => 6
  | .returned => 0

def Writer.weight : Writer Call → Nat
  | .receiving batch => 1 + batch.length
  | .committing _ _ tail => if tail then 1 else 2
  | .returned _ => 0

def setWeight (set : List (Task Future)) : Nat := (set.map fun task => task.state.weight).sum

/-- The measure that every step lowers. -/
def State.weight (state : State Future Call) : Nat :=
  8 * state.pending.length + setWeight state.set + state.producer.weight +
    3 * state.channel.length + state.writer.weight

theorem setWeight_eraseIdx {set : List (Task Future)} {index : Nat} {task : Task Future}
    (found : set[index]? = some task) :
    setWeight (set.eraseIdx index) + task.state.weight = setWeight set := by
  obtain ⟨inside, rfl⟩ := List.getElem?_eq_some_iff.mp found
  have same := (List.getElem_cons_eraseIdx_perm inside).map fun task => task.state.weight
  have total := same.sum_nat
  simp only [List.map_cons, List.sum_cons] at total
  unfold setWeight
  omega

theorem setWeight_set {set : List (Task Future)} {index : Nat} {task : Task Future}
    (found : set[index]? = some task) (changed : Task Future) :
    setWeight (set.set index changed) + task.state.weight =
      setWeight set + changed.state.weight := by
  induction set generalizing index with
  | nil => simp at found
  | cons head rest inductionHypothesis =>
      cases index with
      | zero =>
          simp only [List.getElem?_cons_zero, Option.some.injEq] at found
          subst head
          simp only [List.set_cons_zero, setWeight, List.map_cons, List.sum_cons]
          omega
      | succ index =>
          have tail := inductionHypothesis (by simpa using found : rest[index]? = some task)
          simp only [List.set_cons_succ, setWeight, List.map_cons, List.sum_cons] at tail ⊢
          omega

theorem weight_step {cfg : PipelineConfig} {parts : Parts Future Call}
    (state : State Future Call) (action : Action) (next : State Future Call)
    (stepped : (machine cfg parts).step state action = some next) : next.weight < state.weight := by
  unfold State.weight
  cases Step.of_step stepped with
  | spawn filling pending room =>
      simp only [pending, setWeight, List.map_append, List.map_cons, List.map_nil,
        List.sum_append_nat, List.sum_cons, List.sum_nil, TaskState.weight, List.length_cons]
      omega
  | await filling =>
      simp only [filling, Producer.weight]
      omega
  | @finish index joined path future found =>
      have moved := setWeight_set found ⟨path, .finished joined⟩
      simp only [TaskState.weight] at moved
      simp only
      omega
  | joinFailed joining found =>
      have removed := setWeight_eraseIdx found
      simp only [TaskState.weight] at removed
      simp only [joining, Producer.weight]
      omega
  | joinQuiet joining found =>
      have removed := setWeight_eraseIdx found
      simp only [TaskState.weight] at removed
      simp only [joining, Producer.weight]
      omega
  | joinRow joining found =>
      have removed := setWeight_eraseIdx found
      simp only [TaskState.weight] at removed
      simp only [joining, Producer.weight]
      omega
  | drain joining empty =>
      simp only [joining, Producer.weight, List.length_nil]
      omega
  | sendQueued sending =>
      simp only [sending, Producer.weight, List.length_append, List.length_cons, List.length_nil]
      omega
  | sendDropped sending =>
      simp only [sending, Producer.weight]
      omega
  | recvMore receiving channel =>
      simp only [receiving, channel, Writer.weight, List.length_append, List.length_cons,
        List.length_nil]
      omega
  | recvFull receiving channel =>
      simp only [receiving, channel, Writer.weight, List.length_cons, Bool.false_eq_true, if_false]
      omega
  | recvClosedEmpty receiving =>
      simp only [receiving, Writer.weight, List.length_nil]
      omega
  | recvClosedTail receiving channel returned nonempty =>
      have positive := List.length_pos_iff.mpr nonempty
      simp only [receiving, Writer.weight, if_true]
      omega
  | @commitOk rows call tail committing =>
      cases tail <;> simp [committing, Writer.weight]
  | @commitErr rows call tail error committing =>
      cases tail with
      | false =>
          simp only [committing, Writer.weight, List.length_nil, Bool.false_eq_true, if_false]
          omega
      | true =>
          simp only [committing, Writer.weight, List.length_nil, if_true]
          omega

theorem weight_start (parts : Parts Future Call) (files : List PathBuf) :
    (start parts files).weight ≤ 8 * files.length + 3 := by
  cases committer : parts.committer <;>
    simp [State.weight, start, setWeight, Producer.weight, Writer.weight, committer]

/-- In every state any schedule reaches, the parts hold no more than their
bounds, some step is enabled until both halves have returned, a blocked send is
released by the writer or by its end, and every schedule ends. -/
theorem pipeline_stays_bounded_and_ends
    {cfg : PipelineConfig} {parts : Parts Future Call} {files : List PathBuf}
    {actions : List Action} {state : State Future Call}
    (run : (machine cfg parts).exec (start parts files) actions = some state) :
    (state.set.length ≤ cfg.concurrency ∧ state.channel.length ≤ cfg.batchSize ∧
        state.writer.rows.length ≤ cfg.batchSize) ∧
      (state.report? = none → (machine cfg parts).Live state) ∧
      (∀ row, state.producer = .sending row →
        (∃ next, step cfg parts state .send = some next) ∨ WriterLive cfg parts state) ∧
      (∀ row failure, state.producer = .sending row → state.writer = .returned failure →
        ∃ next, step cfg parts state .send = some next) ∧
      (∀ action next, step cfg parts state action = some next → next.weight < state.weight) ∧
      (WellFounded fun (next state : State Future Call) =>
        ∃ action, (machine cfg parts).step state action = some next) ∧
      actions.length ≤ 8 * files.length + 3 ∧
      ∃ rest final report,
        (machine cfg parts).exec (start parts files) (actions ++ rest) = some final ∧
          final.report? = some report := by
  obtain ⟨set, channel, rows, -⟩ := bounded_of_exec run
  have idle := (accounted_of_exec run).idle
  refine ⟨⟨set, channel, rows⟩, live_of_not_ended idle, ?_, ?_, weight_step state,
    (machine cfg parts).wellFounded_of_measure State.weight weight_step, ?_, ?_⟩
  · exact fun row sending => send_or_writerLive idle sending
  · intro row failure sending writer
    exact ⟨_, (Step.sendDropped sending (by simp [State.receiverOpen, writer])).step_eq⟩
  · have bound := (machine cfg parts).exec_length_le State.weight weight_step run
    have initial := weight_start parts files
    omega
  · obtain ⟨rest, final, completed, ended⟩ := (machine cfg parts).exists_completion State.weight
      (fun state => state.report? ≠ none) weight_step (fun actions state reached running =>
        live_of_not_ended (accounted_of_exec reached).idle (by simpa using running)) run
    obtain ⟨report, reported⟩ := Option.ne_none_iff_exists'.mp ended
    exact ⟨rest, final, report, completed, reported⟩

/-- A full channel behind a failing commit: the send is blocked, then freed. -/
theorem pipeline_stays_bounded_and_ends_blocked :
    ∃ state row,
      (machine ⟨3, 1, by decide, by decide⟩ idleParts).exec
        (start idleParts [⟨[[97]]⟩, ⟨[[98]]⟩, ⟨[[99]]⟩]) [.spawn, .spawn, .spawn, .await,
          .finish 0 (.result (.ok (.observed (sampleInfo [97] 10) .uploaded))), .join 0, .send,
          .recv, .await,
          .finish 0 (.result (.ok (.observed (sampleInfo [98] 20) .uploaded))), .join 0, .send,
          .await,
          .finish 0 (.result (.ok (.observed (sampleInfo [99] 30) .uploaded))), .join 0] =
        some state ∧
      state.producer = .sending row ∧
      step ⟨3, 1, by decide, by decide⟩ idleParts state .send = none ∧
      WriterLive ⟨3, 1, by decide, by decide⟩ idleParts state := by
  obtain ⟨state, row, run, sending, blocked⟩ : ∃ state row,
      (machine ⟨3, 1, by decide, by decide⟩ idleParts).exec
        (start idleParts [⟨[[97]]⟩, ⟨[[98]]⟩, ⟨[[99]]⟩]) [.spawn, .spawn, .spawn, .await,
          .finish 0 (.result (.ok (.observed (sampleInfo [97] 10) .uploaded))), .join 0, .send,
          .recv, .await,
          .finish 0 (.result (.ok (.observed (sampleInfo [98] 20) .uploaded))), .join 0, .send,
          .await,
          .finish 0 (.result (.ok (.observed (sampleInfo [99] 30) .uploaded))), .join 0] =
        some state ∧
      state.producer = .sending row ∧
      step ⟨3, 1, by decide, by decide⟩ idleParts state .send = none := ⟨_, _, rfl, rfl, rfl⟩
  obtain ⟨-, -, released, -⟩ := pipeline_stays_bounded_and_ends run
  have freed := (released row sending).resolve_left (by simp [blocked])
  exact ⟨state, row, run, sending, blocked, freed⟩

end AntiEntropator.Ingest.Pipeline
