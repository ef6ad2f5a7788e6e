import AntiEntropator.Ingest.Pipeline.Outcomes
import AntiEntropator.Ingest.Run.Chronicle

/-!
# From outcomes to the catalog

The rows of a run's outcomes reach the catalog in their order, each at most
once: until a commit fails, what has landed, what is in flight and what waits
are together exactly these rows; afterwards the landed ones are the first of
them.
-/

namespace AntiEntropator.Ingest

open Lakehouse Pipeline

/-- The rows of a request that the catalog may still apply. -/
def Run.flying (run : Run) : List CatalogRow :=
  match run.request with
  | some ⟨rows, .inFlight⟩ => rows
  | _ => []

def CommitPhase.unsent : CommitPhase → Bool
  | .entered | .savingCommitting _ | .committing _ => true
  | _ => false

/-- The rows with the writer that no request was sent for. -/
def unsentRows : Writer CommitCall → List FileInfo
  | .receiving batch => batch
  | .committing rows call _ => if call.phase.unsent then rows else []
  | .returned _ => []

/-- The observed rows that no request was sent for. -/
def Run.waiting (run : Run) : List FileInfo := unsentRows run.pipe.writer ++ run.pipe.inTransit

def Applied (run : Run) : Prop := ∀ request, run.request = some request → request.status = .applied

/-- No commit has failed so far. -/
def Flows (run : Run) : Prop :=
  match run.pipe.writer with
  | .receiving _ => Applied run
  | .committing _ call tail =>
      (tail = true → run.pipe.producer = .returned ∧ run.pipe.channel = []) ∧
        match call.phase with
        | .requested _ => ∀ request, run.request = some request → request.status ≠ .lost
        | .returned (.error _) => False
        | _ => Applied run
  | .returned none => Applied run ∧ run.pipe.producer = .returned ∧ run.pipe.channel = []
  | .returned (some _) => False

/-- A commit has failed, or is bound to. -/
def Fails (run : Run) : Prop :=
  match run.pipe.writer with
  | .receiving _ => False
  | .committing _ call _ =>
      match call.phase with
      | .requested _ => ∃ rows, run.request = some ⟨rows, .lost⟩
      | .returned (.error _) => True
      | _ => False
  | .returned failure => failure.isSome = true

/-- Where the observed rows of a writing run are. -/
inductive Delivered (rows landed : List CatalogRow) (run : Run) : Prop where
  | flows : Flows run → landed ++ run.flying ++ filesToBatch run.waiting = rows →
      Delivered rows landed run
  | fails : Fails run → landed ++ run.flying <+: rows → Delivered rows landed run

theorem Delivered.initial {rows landed : List CatalogRow} {run : Run}
    (delivered : Delivered rows landed run) : landed ++ run.flying <+: rows := by
  cases delivered with
  | flows flows split => exact ⟨_, split⟩
  | fails fails before => exact before

@[simp]
theorem filesToBatch_append (first second : List FileInfo) :
    filesToBatch (first ++ second) = filesToBatch first ++ filesToBatch second := by
  simp [filesToBatch]

section Pipeline

variable {run : Run} {pipe : State FileTask CommitCall} {action : Pipeline.Action}
  {rows landed : List CatalogRow}

theorem Delivered.advance {added : List FileInfo} (delivered : Delivered rows landed run)
    (writer : pipe.writer = run.pipe.writer)
    (returned : run.pipe.producer = .returned → run.pipe.channel = [] →
      pipe.producer = .returned ∧ pipe.channel = [])
    (transit : Flows run → pipe.inTransit = run.pipe.inTransit ++ added) :
    Delivered (rows ++ filesToBatch added) landed { run with pipe } := by
  cases delivered with
  | flows flows split =>
      refine .flows ?_ ?_
      · unfold Flows at flows ⊢
        simp only [writer]
        split
        next phase =>
          simp only [phase] at flows
          exact flows
        next phase =>
          simp only [phase] at flows
          exact ⟨fun tail => returned (flows.1 tail).1 (flows.1 tail).2, flows.2⟩
        next phase =>
          simp only [phase] at flows
          exact ⟨flows.1, returned flows.2.1 flows.2.2⟩
        next phase => simp only [phase] at flows
      · have moved : Run.waiting { run with pipe } = run.waiting ++ added := by
          simp [Run.waiting, writer, transit flows]
        rw [moved, filesToBatch_append, ← List.append_assoc]
        exact congrArg (· ++ filesToBatch added) split
  | fails fails before =>
      refine .fails ?_ (before.trans (List.prefix_append _ _))
      unfold Fails at fails ⊢
      simpa only [writer] using fails

theorem Delivered.advanceWriter (delivered : Delivered rows landed run)
    (flows : Flows run → Flows { run with pipe } ∧ Run.waiting { run with pipe } = run.waiting ∨
      Fails { run with pipe })
    (fails : Fails run → Fails { run with pipe }) : Delivered rows landed { run with pipe } := by
  cases delivered with
  | flows flowing split =>
      rcases flows flowing with ⟨later, same⟩ | failing
      · refine .flows later ?_
        rw [same]
        exact split
      · exact .fails failing ⟨_, split⟩
  | fails failing before => exact .fails (fails failing) before

theorem Delivered.receive {batch : List FileInfo} (delivered : Delivered rows landed run)
    (receiving : run.pipe.writer = .receiving batch)
    (flows : Applied run → Flows { run with pipe } ∧
      Run.waiting { run with pipe } = batch ++ run.pipe.inTransit) :
    Delivered rows landed { run with pipe } := by
  refine delivered.advanceWriter ?_ ?_
  · intro flowing
    simp only [Flows, receiving] at flowing
    refine .inl ⟨(flows flowing).1, ?_⟩
    simpa only [Run.waiting, unsentRows, receiving] using (flows flowing).2
  · intro fails
    simp only [Fails, receiving] at fails

theorem Delivered.pipeline {plan : RunPlan} (writes : plan.mode.writes = true)
    (delivered : Delivered rows landed run) (allowed : Process.allows run.pipe action = true)
    (stepped : Pipeline.step plan.pipeline plan.parts run.pipe action = some pipe) :
    Delivered (rows ++ filesToBatch (outcomeRows (joined run.pipe action))) landed
      { run with pipe } := by
  have committer : plan.parts.committer ≠ none := by simp [RunPlan.parts, writes]
  have quiet : ∀ {later : List CatalogRow}, later = [] →
      Delivered rows landed { run with pipe } →
      Delivered (rows ++ later) landed { run with pipe } := by
    rintro later rfl same
    rwa [List.append_nil]
  cases Pipeline.Step.of_step stepped with
  | spawn filling =>
      refine delivered.advance rfl (fun returned channel => ⟨returned, channel⟩) ?_
      simp [State.inTransit, joined]
  | await filling =>
      refine delivered.advance rfl (by simp [filling]) ?_
      simp [State.inTransit, joined, filling, Producer.rows]
  | finish =>
      refine delivered.advance rfl (fun returned channel => ⟨returned, channel⟩) ?_
      simp [State.inTransit, joined]
  | joinFailed joining found failed =>
      rw [joined_of_failed found failed]
      refine delivered.advance rfl (by simp [joining]) ?_
      simp [State.inTransit, joining, Producer.rows]
  | @joinQuiet index path outcome joining found silent =>
      have row := silent.resolve_right committer
      have shown : joined run.pipe (.join index) = [(path, outcome)] := by simp [joined, found]
      rw [shown, outcomeRows_singleton, row]
      refine delivered.advance rfl (by simp [joining]) ?_
      simp [State.inTransit, joining, Producer.rows]
  | @joinRow index path outcome row commit joining found rowCase =>
      have shown : joined run.pipe (.join index) = [(path, outcome)] := by simp [joined, found]
      rw [shown, outcomeRows_singleton, rowCase]
      refine delivered.advance rfl (by simp [joining]) ?_
      simp [State.inTransit, joining, Producer.rows]
  | drain joining empty =>
      refine delivered.advance rfl (by simp [joining]) ?_
      simp [State.inTransit, joined, joining, Producer.rows]
  | sendQueued sending =>
      refine delivered.advance rfl (by simp [sending]) ?_
      simp [State.inTransit, joined, sending, Producer.rows]
  | sendDropped sending gone =>
      refine delivered.advance rfl (by simp [sending]) ?_
      intro flows
      -- a writer that returned without error saw the producer return first
      unfold Flows at flows
      cases writer : run.pipe.writer with
      | receiving => simp [State.receiverOpen, writer] at gone
      | committing => simp [State.receiverOpen, writer] at gone
      | returned failure =>
          cases failure with
          | none => simp [writer, sending] at flows
          | some error => simp [writer] at flows
  | recvMore receiving channel =>
      refine quiet rfl (delivered.receive receiving fun applied => ⟨applied, ?_⟩)
      simp [Run.waiting, unsentRows, State.inTransit, channel]
  | recvFull receiving channel full commit =>
      refine quiet rfl (delivered.receive receiving fun applied => ⟨⟨by simp, ?_⟩, ?_⟩)
      · simp only [Process.phase_of_committer commit]
        exact applied
      · simp [Run.waiting, unsentRows, State.inTransit, channel,
          Process.phase_of_committer commit, CommitPhase.unsent]
  | recvClosedEmpty receiving channel returned =>
      refine quiet rfl (delivered.receive receiving fun applied =>
        ⟨⟨applied, returned, channel⟩, ?_⟩)
      simp [Run.waiting, unsentRows, State.inTransit]
  | recvClosedTail receiving channel returned nonempty commit =>
      refine quiet rfl (delivered.receive receiving fun applied =>
        ⟨⟨fun _ => ⟨returned, channel⟩, ?_⟩, ?_⟩)
      · simp only [Process.phase_of_committer commit]
        exact applied
      · simp [Run.waiting, unsentRows, State.inTransit,
          Process.phase_of_committer commit, CommitPhase.unsent]
  | @commitOk sent call tail committing =>
      simp only [Process.allows, committing, decide_eq_true_eq] at allowed
      refine quiet rfl ?_
      refine delivered.advanceWriter ?_ ?_
      · intro flows
        simp only [Flows, committing, allowed] at flows
        cases tail with
        | false =>
            refine .inl ⟨flows.2, ?_⟩
            simp [Run.waiting, unsentRows, State.inTransit, committing, allowed,
              CommitPhase.unsent]
        | true =>
            refine .inl ⟨⟨flows.2, flows.1 rfl⟩, ?_⟩
            simp [Run.waiting, unsentRows, State.inTransit, committing, allowed,
              CommitPhase.unsent]
      · intro fails
        simp [Fails, committing, allowed] at fails
  | commitErr committing =>
      refine quiet rfl ?_
      exact delivered.advanceWriter (fun _ => .inr rfl) (fun _ => rfl)

end Pipeline

/-- When the pipeline has reported and no commit failed, every row has landed. -/
theorem Delivered.complete {run : Run} {rows landed : List CatalogRow} {report : PipelineReport}
    (delivered : Delivered rows landed run) (reported : run.pipe.report? = some report)
    (accepted : report.commitFailure = none) : landed = rows := by
  obtain ⟨returned, writer, -⟩ := report?_eq_some_iff.mp reported
  rw [accepted] at writer
  cases delivered with
  | flows flows split =>
      simp only [Flows, writer] at flows
      have flown : run.flying = [] := by
        unfold Run.flying
        split
        next sent request => cases flows.1 _ request
        next => rfl
      have none : run.waiting = [] := by
        simp [Run.waiting, unsentRows, writer, State.inTransit, flows.2, Producer.rows]
      simpa [flown, none, filesToBatch] using split
  | fails fails => simp [Fails, writer] at fails

/-! ## Steps of the commit call and of the catalog -/

theorem Delivered.congr {run next : Run} {rows landed : List CatalogRow}
    (delivered : Delivered rows landed run) (pipe : next.pipe = run.pipe)
    (request : next.request = run.request) : Delivered rows landed next := by
  cases run
  cases next
  cases pipe
  cases request
  cases delivered with
  | flows flows split => exact .flows flows split
  | fails fails before => exact .fails fails before

namespace Process

theorem CommitStep.delivered {process next : Process} {batch : List FileInfo} {call : CommitCall}
    {tail : Bool} {journal : RunJournal} {action : CommitAction} {rows landed : List CatalogRow}
    (delivered : Delivered rows landed process.run)
    (committing : process.run.pipe.writer = .committing batch call tail) (same : call.rows = batch)
    (stepped : CommitStep process batch call tail journal action next) :
    Delivered rows landed next.run := by
  -- a step that leaves the request alone
  have called : ∀ phase : CommitPhase,
      (Flows process.run →
        Flows (process.withCall batch { call with phase } tail).run ∧
            phase.unsent = call.phase.unsent ∨
          Fails (process.withCall batch { call with phase } tail).run) →
      (Fails process.run → Fails (process.withCall batch { call with phase } tail).run) →
      Delivered rows landed (process.withCall batch { call with phase } tail).run := by
    intro phase flows fails
    refine delivered.advanceWriter (fun flowing => ?_) fails
    refine (flows flowing).imp_left (fun ⟨later, stage⟩ => ⟨later, ?_⟩)
    simp only [Run.waiting, unsentRows, committing, stage]
    rfl
  cases stepped with
  | enter phase =>
      refine (called _ (fun flows => .inl ?_) (fun fails => ?_)).congr rfl rfl
      · simp only [Flows, committing, phase] at flows
        exact ⟨flows, by rw [phase]; rfl⟩
      · simp [Fails, committing, phase] at fails
  | savedCommitting phase =>
      refine (called _ (fun flows => .inl ?_) (fun fails => ?_)).congr rfl rfl
      · simp only [Flows, committing, phase] at flows
        exact ⟨flows, by rw [phase]; rfl⟩
      · simp [Fails, committing, phase] at fails
  | committingUnsaved phase =>
      refine (called _ (fun flows => .inl ?_) (fun fails => ?_)).congr rfl rfl
      · simp only [Flows, committing, phase] at flows
        exact ⟨flows, by rw [phase]; rfl⟩
      · simp [Fails, committing, phase] at fails
  | innerFailed => exact called _ (fun _ => .inr trivial) (fun _ => trivial)
  | request phase =>
      cases delivered with
      | flows flows split =>
          simp only [Flows, committing, phase] at flows
          have idle : process.run.flying = [] := by
            unfold Run.flying
            split
            next sent request => cases flows.2 _ request
            next => rfl
          refine .flows ⟨flows.1, ?_⟩ ?_
          · rintro request ⟨⟩
            simp
          · rw [← split, idle]
            simp [Run.flying, Run.waiting, unsentRows, committing, phase, CommitPhase.unsent, same,
              withCall, setPipe, Pipeline.State.inTransit]
      | fails fails => simp [Fails, committing, phase] at fails
  | acknowledged phase applied =>
      refine (called _ (fun flows => .inl ?_) (fun fails => ?_)).congr rfl rfl
      · simp only [Flows, committing, phase] at flows
        refine ⟨⟨flows.1, ?_⟩, by rw [phase]; rfl⟩
        intro request sent
        rw [show process.run.request = some request from sent, Option.some.injEq] at applied
        rw [applied]
      · simp [Fails, committing, phase, applied] at fails
  | requestFailed => exact called _ (fun _ => .inr trivial) (fun _ => trivial)
  | savedCommitted phase =>
      refine (called _ (fun flows => .inl ?_) (fun fails => ?_)).congr rfl rfl
      · simp only [Flows, committing, phase] at flows
        exact ⟨flows, by rw [phase]; rfl⟩
      · simp [Fails, committing, phase] at fails
  | committedUnsaved phase =>
      refine (called _ (fun flows => .inl ?_) (fun fails => ?_)).congr rfl rfl
      · simp only [Flows, committing, phase] at flows
        exact ⟨flows, by rw [phase]; rfl⟩
      · simp [Fails, committing, phase] at fails

end Process

theorem Flows.requested {run : Run} {sent : List CatalogRow} (flows : Flows run)
    (flying : run.request = some ⟨sent, .inFlight⟩) :
    ∃ batch call tail number, run.pipe.writer = .committing batch call tail ∧
      call.phase = .requested number := by
  unfold Flows at flows
  split at flows
  next => cases flows _ flying
  next batch call tail writer =>
    obtain ⟨-, flows⟩ := flows
    split at flows
    next number phase => exact ⟨batch, call, tail, number, writer, phase⟩
    next => exact flows.elim
    next => cases flows _ flying
  next => cases flows.1 _ flying
  next => exact flows.elim

theorem Fails.resolve {run : Run} {sent : List CatalogRow} {status : RequestStatus}
    (fails : Fails run) (flying : run.request = some ⟨sent, .inFlight⟩) :
    Fails { run with request := some ⟨sent, status⟩ } := by
  unfold Fails at fails ⊢
  cases writer : run.pipe.writer with
  | receiving => simp [writer] at fails
  | committing batch call tail =>
      simp only [writer] at fails
      split at fails
      next phase => simp [flying] at fails
      next phase => simp [phase]
      next => exact fails.elim
  | returned failure => simpa [writer] using fails

theorem Delivered.land {run : Run} {rows landed sent : List CatalogRow}
    (delivered : Delivered rows landed run) (flying : run.request = some ⟨sent, .inFlight⟩) :
    Delivered rows (landed ++ sent) { run with request := some ⟨sent, .applied⟩ } := by
  have flown : run.flying = sent := by simp [Run.flying, flying]
  cases delivered with
  | flows flows split =>
      obtain ⟨batch, call, tail, number, writer, phase⟩ := flows.requested flying
      rw [flown] at split
      refine .flows ?_ ?_
      · simp only [Flows, writer, phase] at flows ⊢
        refine ⟨flows.1, ?_⟩
        rintro request ⟨⟩
        simp
      · simpa [Run.flying, Run.waiting] using split
  | fails fails before =>
      rw [flown] at before
      exact .fails (fails.resolve flying) (by simpa [Run.flying] using before)

theorem Delivered.lose {run : Run} {rows landed sent : List CatalogRow}
    (delivered : Delivered rows landed run) (flying : run.request = some ⟨sent, .inFlight⟩) :
    Delivered rows landed { run with request := some ⟨sent, .lost⟩ } := by
  have fewer : landed <+: rows := (List.prefix_append _ _).trans delivered.initial
  refine .fails ?_ (by simpa [Run.flying] using fewer)
  cases delivered with
  | flows flows =>
      obtain ⟨batch, call, tail, number, writer, phase⟩ := flows.requested flying
      simp [Fails, writer, phase]
  | fails fails => exact fails.resolve flying

theorem delivered_start {run : Run} (writes : run.plan.mode.writes = true)
    (pipe : run.pipe = start run.plan.parts run.files) (request : run.request = none) :
    Delivered [] [] run := by
  have writer : run.pipe.writer = .receiving [] := by simp [pipe, start, RunPlan.parts, writes]
  refine .flows ?_ ?_
  · simp [Flows, writer, Applied, request]
  · have transit : run.pipe.inTransit = [] := by simp [pipe, start, State.inTransit, Producer.rows]
    simp [Run.flying, request, Run.waiting, unsentRows, writer, transit, filesToBatch]

/-! ## Along a run -/

/-- The outcomes of a run account for its candidates, and their rows for what
it brings into the catalog. -/
structure Run.Accounts (outcomes : List (PathBuf × IngestOutcome)) (landed : List CatalogRow)
    (run : Run) : Prop where
  early : Process.Unrecorded run.phase → outcomes = [] ∧ landed = []
  conserved : Conserved run.files outcomes run.pipe
  delivered : run.plan.mode.writes = true →
    Delivered (filesToBatch (outcomeRows outcomes)) landed run

theorem accounts_start {run : Run} (pipe : run.pipe = start run.plan.parts run.files)
    (request : run.request = none) : run.Accounts [] [] where
  early _ := ⟨rfl, rfl⟩
  conserved := pipe ▸ conserved_start _ _
  delivered writes := delivered_start writes pipe request

namespace Process

/-- The outcomes an action hands to the producer. -/
def outcomes (process : Process) : ProcessAction → List (PathBuf × IngestOutcome)
  | .ingest (.pipeline action) => joined process.run.pipe action
  | _ => []

theorem PrologueStep.untouched {process next : Process} {action : PrologueAction}
    (fresh : process.run.Fresh) (stepped : PrologueStep process action next) :
    next.run.pipe = start next.run.plan.parts next.run.files ∧ next.run.request = none := by
  cases stepped with
  | @proceed stage => cases stage <;> exact ⟨fresh.pipe, fresh.request⟩
  | report =>
      simp only [Process.report]
      split <;> exact ⟨fresh.pipe, fresh.request⟩
  | collected =>
      simp only [Process.collected]
      split
      · exact ⟨fresh.pipe, fresh.request⟩
      · exact ⟨rfl, fresh.request⟩
  | _ => exact ⟨fresh.pipe, fresh.request⟩

theorem Step.accounts_of_fresh {deployment : Deployment} {process next : Process}
    {action : ProcessAction} (fresh : process.run.Fresh)
    (unrecorded : Unrecorded process.run.phase) (stepped : Step deployment process action next) :
    next.run.Accounts (process.outcomes action) (process.landing action) := by
  cases stepped with
  | prologue taken =>
      obtain ⟨pipe, request⟩ := taken.untouched fresh
      exact accounts_start pipe request
  | ingest taken => exact (not_unrecorded_ingesting taken.phase_eq.1 unrecorded).elim
  | epilogue taken => exact (taken.phase_recorded unrecorded).elim
  | kill => exact accounts_start fresh.pipe fresh.request
  | land flying => simp [fresh.request] at flying
  | lose flying => simp [fresh.request] at flying
  | edit => exact accounts_start fresh.pipe fresh.request

theorem unskipped_of_pipelineReached {run : Run} (reached : run.PipelineReached)
    (unreturned : run.pipe.producer ≠ .returned) : run.pipe.counts.skipped = 0 := by
  obtain ⟨actions, exec⟩ := reached
  obtain ⟨-, unskipped, -⟩ := (accounted_of_exec exec).skips
  exact unskipped unreturned

theorem drained_of_pipelineReached {run : Run} (reached : run.PipelineReached)
    (returned : run.pipe.producer = .returned) : run.pipe.set = [] ∧ run.pipe.pending = [] := by
  obtain ⟨actions, exec⟩ := reached
  obtain ⟨-, -, drained, -⟩ := (accounted_of_exec exec).skips
  obtain ⟨set, pending⟩ := drained returned
  exact ⟨List.map_eq_nil_iff.mp set, pending⟩

theorem Step.conserved {deployment : Deployment} {process next : Process} {action : ProcessAction}
    {outcomes : List (PathBuf × IngestOutcome)} (reached : process.run.PipelineReached)
    (started : ¬ Unrecorded process.run.phase)
    (conserved : Conserved process.run.files outcomes process.run.pipe)
    (stepped : Step deployment process action next) :
    Conserved next.run.files (outcomes ++ process.outcomes action) next.run.pipe := by
  rw [stepped.files_eq started]
  cases stepped with
  | prologue taken => exact (started taken.unrecorded).elim
  | ingest taken =>
      cases taken with
      | pipeline phase allowed moved =>
          exact conserved.step (unskipped_of_pipelineReached reached) moved
      | worker phase found =>
          simp only [Process.outcomes, List.append_nil]
          refine conserved.move ?_ rfl rfl
          exact congrArg (· ++ process.run.pipe.pending) (map_path_set found rfl)
      | commit phase committing recorded moved =>
          obtain ⟨-, -, -, -, changed, pipe⟩ := moved.frame
          simp only [Process.outcomes, List.append_nil, pipe]
          exact conserved.move rfl rfl rfl
  | epilogue taken =>
      simp only [Process.outcomes, List.append_nil]
      cases taken <;> exact conserved
  | _ =>
      simp only [Process.outcomes, List.append_nil]
      exact conserved

theorem Step.delivered {deployment : Deployment} {process next : Process} {action : ProcessAction}
    {outcomes : List (PathBuf × IngestOutcome)} {landed : List CatalogRow}
    (call : ∀ rows call tail, process.run.pipe.writer = .committing rows call tail →
      call.rows = rows)
    (started : ¬ Unrecorded process.run.phase) (writes : process.run.plan.mode.writes = true)
    (delivered : Delivered (filesToBatch (outcomeRows outcomes)) landed process.run)
    (stepped : Step deployment process action next) :
    Delivered (filesToBatch (outcomeRows (outcomes ++ process.outcomes action)))
      (landed ++ process.landing action) next.run := by
  cases stepped with
  | prologue taken => exact (started taken.unrecorded).elim
  | ingest taken =>
      simp only [landing, List.append_nil]
      cases taken with
      | pipeline phase allowed moved =>
          rw [outcomeRows_append, filesToBatch_append]
          exact delivered.pipeline writes allowed moved
      | worker =>
          simp only [Process.outcomes, List.append_nil]
          exact delivered.advanceWriter (fun flows => .inl ⟨flows, rfl⟩) id
      | commit phase committing recorded moved =>
          simp only [Process.outcomes, List.append_nil]
          exact moved.delivered delivered committing (call _ _ _ committing)
  | epilogue taken =>
      simp only [Process.outcomes, landing, List.append_nil]
      cases taken <;> exact delivered.congr rfl rfl
  | land flying =>
      simp only [Process.outcomes, landing, flying, List.append_nil]
      exact delivered.land flying
  | lose flying =>
      simp only [Process.outcomes, landing, List.append_nil]
      exact delivered.lose flying
  | _ =>
      simp only [Process.outcomes, landing, List.append_nil]
      exact delivered.congr rfl rfl

theorem Step.accounts {deployment : Deployment} {process next : Process} {action : ProcessAction}
    {outcomes : List (PathBuf × IngestOutcome)} {landed : List CatalogRow}
    (fresh : Unrecorded process.run.phase → process.run.Fresh)
    (reached : process.run.PipelineReached)
    (call : ∀ rows call tail, process.run.pipe.writer = .committing rows call tail →
      call.rows = rows)
    (accounts : process.run.Accounts outcomes landed)
    (stepped : Step deployment process action next) :
    next.run.Accounts (outcomes ++ process.outcomes action)
      (landed ++ process.landing action) := by
  by_cases unrecorded : Unrecorded process.run.phase
  · obtain ⟨rfl, rfl⟩ := accounts.early unrecorded
    exact stepped.accounts_of_fresh (fresh unrecorded) unrecorded
  · constructor
    · exact fun early => (unrecorded (stepped.unrecorded early)).elim
    · exact stepped.conserved reached unrecorded accounts.conserved
    · rw [stepped.plan_eq]
      exact fun writes => stepped.delivered call unrecorded writes (accounts.delivered writes)

theorem accounts_of_exec {deployment : Deployment} {plan : RunPlan} {world : World}
    {actions : List ProcessAction} {final : Process}
    (exec : (machine deployment).exec ⟨world, Run.start plan⟩ actions = some final) :
    final.run.Accounts ((machine deployment).observe outcomes ⟨world, Run.start plan⟩ actions)
      ((machine deployment).observe landing ⟨world, Run.start plan⟩ actions) := by
  refine (machine deployment).exec_induction (motive := fun actions (process : Process) =>
    process.run.Accounts ((machine deployment).observe outcomes ⟨world, Run.start plan⟩ actions)
      ((machine deployment).observe landing ⟨world, Run.start plan⟩ actions)) ?_ ?_ exec
  · exact accounts_start rfl rfl
  · intro actions middle action next before accounts stepped
    rw [(machine deployment).observe_snoc _ before stepped,
      (machine deployment).observe_snoc _ before stepped]
    exact (Step.of_step stepped).accounts (fresh_of_exec before) (pipelineReached_of_exec before)
      (built_of_exec before).call accounts

end Process

/-! ## What the outcomes say -/

/-- What holds of running tasks, and of the outcomes of those that are done. -/
structure Run.Reports (Running : PathBuf → FileTask → Prop)
    (Right : PathBuf → IngestOutcome → Prop) (outcomes : List (PathBuf × IngestOutcome))
    (run : Run) : Prop where
  judged : run.Judged Running Right
  each : ∀ entry ∈ outcomes, Right entry.1 entry.2

namespace Process

variable {Running Running' : PathBuf → FileTask → Prop}
  {Right Right' : PathBuf → IngestOutcome → Prop} {deployment : Deployment}
  {process next : Process} {action : ProcessAction}

theorem Step.reports_of_fresh (fresh : process.run.Fresh)
    (unrecorded : Unrecorded process.run.phase) (stepped : Step deployment process action next) :
    next.run.Reports Running Right [] := by
  refine ⟨?_, by simp⟩
  cases stepped with
  | prologue taken => exact taken.judged fresh
  | ingest taken => exact (not_unrecorded_ingesting taken.phase_eq.1 unrecorded).elim
  | epilogue taken => exact (taken.phase_recorded unrecorded).elim
  | kill => exact fresh.judged.congr rfl rfl
  | land flying => simp [fresh.request] at flying
  | lose flying => simp [fresh.request] at flying
  | edit => exact fresh.judged

theorem Step.reports {outcomes : List (PathBuf × IngestOutcome)}
    (fresh : Unrecorded process.run.phase → process.run.Fresh)
    (reports : process.run.Reports Running Right outcomes)
    (running : ∀ path task, Running path task → Running' path task)
    (right : ∀ path outcome, Right path outcome → Right' path outcome)
    (spawned : ∀ path ∈ process.run.files, Running' path { path })
    (ended : ∀ path task outcome, Running' path task → task.result? = some (.ok outcome) →
      Right' path outcome)
    (worked : ∀ index inner path task blobs task', action = .ingest (.worker index inner) →
      process.run.pipe.set[index]? = some ⟨path, .running task⟩ → Running path task →
      task.step deployment process.run.context process.world.files process.world.blobs inner =
        some (blobs, task') → next.world.blobs = blobs → Running' path task')
    (stepped : Step deployment process action next) :
    next.run.Reports Running' Right' (outcomes ++ process.outcomes action) := by
  refine ⟨stepped.judged fresh reports.judged running right spawned ended worked, ?_⟩
  intro entry member
  rcases List.mem_append.mp member with old | new
  · exact right _ _ (reports.each entry old)
  · unfold Process.outcomes at new
    split at new
    · exact right _ _ (reports.judged.tasks.joined entry new)
    · cases new

end Process

end AntiEntropator.Ingest
