import AntiEntropator.Ingest.Pipeline.Accounting
import AntiEntropator.Ingest.Pipeline.Delivery

/-!
# What the pipeline carries

A property of running tasks that their outcomes inherit holds of every finished
task; the rows the pipeline holds, in a send, in the channel or with the writer,
are those of tasks that have been joined.
-/

namespace AntiEntropator.Ingest.Pipeline

variable {Future Call : Type}

/-- The rows that have left their task and are not with the catalog yet. -/
def State.held (state : State Future Call) : List FileInfo :=
  state.inTransit ++ state.writer.rows

/-- Running tasks satisfy `Running` and the outcomes of finished ones `Right`,
each for its path. -/
structure Judged (Running : PathBuf → Future → Prop) (Right : PathBuf → IngestOutcome → Prop)
    (state : State Future Call) : Prop where
  running : ∀ path future, ⟨path, .running future⟩ ∈ state.set → Running path future
  finished : ∀ path outcome,
    ⟨path, .finished (.result (.ok outcome))⟩ ∈ state.set → Right path outcome

/-- An outcome whose row, if it has one, satisfies `Row`. -/
def Inherits (Row : PathBuf → FileInfo → Prop) (path : PathBuf) (outcome : IngestOutcome) : Prop :=
  ∀ info, outcomeRow? outcome = some info → Row path info

section Judged

variable {Running Running' : PathBuf → Future → Prop}
  {Right Right' : PathBuf → IngestOutcome → Prop}
  {cfg : PipelineConfig} {parts : Parts Future Call} {state next : State Future Call}
  {action : Action}

theorem Judged.mono (judged : Judged Running Right state)
    (running : ∀ path future, Running path future → Running' path future)
    (right : ∀ path outcome, Right path outcome → Right' path outcome) :
    Judged Running' Right' state where
  running path future member := running path future (judged.running path future member)
  finished path outcome member := right path outcome (judged.finished path outcome member)

theorem judged_start (parts : Parts Future Call) (files : List PathBuf) :
    Judged Running Right (start parts files) := ⟨by simp [start], by simp [start]⟩

theorem Judged.subset (judged : Judged Running Right state)
    (fewer : ∀ task ∈ next.set, task ∈ state.set) : Judged Running Right next where
  running path future member := judged.running path future (fewer _ member)
  finished path outcome member := judged.finished path outcome (fewer _ member)

theorem Judged.step (judged : Judged Running Right state)
    (spawned : ∀ path ∈ state.pending, Running path (parts.worker path))
    (ends : ∀ index path future outcome, action = .finish index (.result (.ok outcome)) →
      state.set[index]? = some ⟨path, .running future⟩ → Running path future →
      Right path outcome)
    (stepped : Pipeline.step cfg parts state action = some next) : Judged Running Right next := by
  cases Step.of_step stepped with
  | @spawn path rest filling pending room =>
      refine ⟨?_, ?_⟩
      · intro other future member
        rcases List.mem_append.mp member with old | new
        · exact judged.running other future old
        · simp only [List.mem_singleton, Task.mk.injEq, TaskState.running.injEq] at new
          obtain ⟨rfl, rfl⟩ := new
          apply spawned
          rw [pending]
          exact List.mem_cons_self
      · intro other outcome member
        rcases List.mem_append.mp member with old | new
        · exact judged.finished other outcome old
        · simp at new
  | @finish index joined path future found =>
      refine ⟨?_, ?_⟩
      · intro other running member
        rcases List.mem_or_eq_of_mem_set member with old | new
        · exact judged.running other running old
        · cases new
      · intro other outcome member
        rcases List.mem_or_eq_of_mem_set member with old | new
        · exact judged.finished other outcome old
        · cases new
          exact ends index path future outcome rfl found
            (judged.running path future (List.mem_of_getElem? found))
  | joinFailed => exact judged.subset fun _ => List.mem_of_mem_eraseIdx
  | joinQuiet => exact judged.subset fun _ => List.mem_of_mem_eraseIdx
  | joinRow => exact judged.subset fun _ => List.mem_of_mem_eraseIdx
  | _ => exact judged.subset fun _ member => member

theorem Judged.setRunning {index : Nat} {path : PathBuf} {future changed : Future}
    (judged : Judged Running Right state)
    (running : ∀ path future, Running path future → Running' path future)
    (right : ∀ path outcome, Right path outcome → Right' path outcome)
    (found : state.set[index]? = some ⟨path, .running future⟩)
    (moved : Running path future → Running' path changed) :
    Judged Running' Right'
      { state with set := state.set.set index ⟨path, .running changed⟩ } := by
  have later := judged.mono running right
  refine ⟨?_, ?_⟩
  · intro other future member
    rcases List.mem_or_eq_of_mem_set member with old | new
    · exact later.running other future old
    · cases new
      exact moved (judged.running path _ (List.mem_of_getElem? found))
  · intro other outcome member
    rcases List.mem_or_eq_of_mem_set member with old | new
    · exact later.finished other outcome old
    · cases new

end Judged

theorem Inherits.mono {Row Row' : PathBuf → FileInfo → Prop} {path : PathBuf}
    {outcome : IngestOutcome} (inherits : Inherits Row path outcome)
    (row : ∀ path info, Row path info → Row' path info) : Inherits Row' path outcome :=
  fun info shown => row path info (inherits info shown)

section Held

variable {cfg : PipelineConfig} {parts : Parts Future Call} {state next : State Future Call}
  {action : Action}

theorem held_start (parts : Parts Future Call) (files : List PathBuf) :
    (start parts files).held = [] := by
  cases committer : parts.committer <;>
    simp [State.held, State.inTransit, start, committer, Producer.rows, Writer.rows]

theorem pending_step (stepped : Pipeline.step cfg parts state action = some next) :
    next.pending ⊆ state.pending := by
  cases Step.of_step stepped with
  | spawn filling pending room =>
      rw [pending]
      exact List.subset_cons_self _ _
  | drain => exact List.nil_subset _
  | _ => exact List.Subset.refl _

/-- A step hands on what is held, and at most one row of a finished task. -/
theorem held_step (stepped : Pipeline.step cfg parts state action = some next) :
    ∀ info ∈ next.held, info ∈ state.held ∨ ∃ index path outcome,
      action = .join index ∧
        state.set[index]? = some ⟨path, .finished (.result (.ok outcome))⟩ ∧
        outcomeRow? outcome = some info := by
  intro info member
  cases Step.of_step stepped with
  | spawn => exact .inl member
  | await filling =>
      apply Or.inl
      simpa [State.held, State.inTransit, filling, Producer.rows] using member
  | finish => exact .inl member
  | joinFailed joining =>
      apply Or.inl
      simpa [State.held, State.inTransit, joining, Producer.rows] using member
  | joinQuiet joining =>
      apply Or.inl
      simpa [State.held, State.inTransit, joining, Producer.rows] using member
  | @joinRow index path outcome row commit joining found rowCase =>
      have cases : info = row ∨ info ∈ state.held := by
        simp only [State.held, State.inTransit, joining, Producer.rows, List.append_nil,
          List.mem_append, List.mem_singleton] at member ⊢
        tauto
      rcases cases with rfl | old
      · exact .inr ⟨index, path, outcome, rfl, found, rowCase⟩
      · exact .inl old
  | drain joining =>
      apply Or.inl
      simpa [State.held, State.inTransit, joining, Producer.rows] using member
  | sendQueued sending =>
      apply Or.inl
      simpa [State.held, State.inTransit, sending, Producer.rows] using member
  | sendDropped sending =>
      apply Or.inl
      simp only [State.held, State.inTransit, Producer.rows, List.append_nil, List.mem_append]
        at member ⊢
      tauto
  | recvMore receiving channel =>
      apply Or.inl
      simp only [State.held, State.inTransit, receiving, channel, Writer.rows, List.mem_append,
        List.mem_cons] at member ⊢
      tauto
  | recvFull receiving channel =>
      apply Or.inl
      simp only [State.held, State.inTransit, receiving, channel, Writer.rows, List.mem_append,
        List.mem_cons] at member ⊢
      tauto
  | recvClosedEmpty receiving =>
      apply Or.inl
      simpa [State.held, State.inTransit, receiving, Writer.rows] using member
  | recvClosedTail receiving =>
      apply Or.inl
      simpa [State.held, State.inTransit, receiving, Writer.rows] using member
  | @commitOk rows call tail committing =>
      apply Or.inl
      apply List.mem_append_left
      cases tail with
      | false => simpa [State.held, State.inTransit, Writer.rows] using member
      | true => simpa [State.held, State.inTransit, Writer.rows] using member
  | commitErr committing =>
      apply Or.inl
      simp only [State.held, State.inTransit, Writer.rows, List.mem_append, List.append_nil,
        List.nil_append] at member ⊢
      tauto

theorem held_setCall {rows : List FileInfo} {call : Call} {tail : Bool} (changed : Call)
    (committing : state.writer = .committing rows call tail) :
    State.held { state with writer := .committing rows changed tail } = state.held := by
  simp [State.held, State.inTransit, committing, Writer.rows]

end Held

end AntiEntropator.Ingest.Pipeline
