import AntiEntropator.Ingest.Run.Chronicle

/-!
# What a run writes to the journal store

A step writes at most one journal object: the run's own journal as it stands,
or the journal of a predecessor with one more entry.
-/

namespace AntiEntropator.Ingest

def Run.predecessors (run : Run) : List RunJournal :=
  run.openRuns ++
    match run.phase with
    | .loading _ loaded => loaded
    | .reconciling remaining done => remaining ++ done
    | .closing journal remaining done => journal :: (remaining ++ done)
    | .superseding remaining _ => remaining
    | _ => []

namespace Process

def written (process : Process) (action : ProcessAction) : List RunJournal :=
  match action, process.run.phase with
  | .prologue .closed, .closing journal _ _ => [journal]
  | .prologue (.closeFailed landed _), .closing journal _ _ => if landed then [journal] else []
  | .prologue (.started now), .starting => [newJournal process.run now]
  | .prologue (.startFailed now landed _), .starting =>
      if landed then [newJournal process.run now] else []
  | .ingest (.commit .saved), _ => process.run.journal.toList
  | .ingest (.commit (.saveFailed landed)), _ =>
      if landed then process.run.journal.toList else []
  | .epilogue .recorded, _ => process.run.journal.toList
  | .epilogue (.recordFailed landed), _ => if landed then process.run.journal.toList else []
  | .epilogue (.supersede now), .superseding (journal :: _) _ =>
      [journal.push (.supersededBy process.run.plan.runId) now]
  | .epilogue (.supersedeFailed now landed), .superseding (journal :: _) _ =>
      if landed then [journal.push (.supersededBy process.run.plan.runId) now] else []
  | _, _ => []

theorem journals_saveIf (world : World) (landed : Bool) (journal : RunJournal) :
    (world.saveIf landed journal).journals =
      (if landed then [journal] else []).foldl
        (fun store journal => store.insert journal.runId journal) world.journals := by
  cases landed <;> rfl

theorem written_of_fails (process : Process) {action : PrologueAction} (fails : action.Fails) :
    process.written (.prologue action) = [] := by
  cases action with
  | setupFailed | loadStateFailed | listFailed | countFailed | collectFailed => rfl
  | _ => exact fails.elim

theorem Step.journals_eq {deployment : Deployment} {process next : Process}
    {action : ProcessAction} (stepped : Step deployment process action next) :
    next.world.journals = (process.written action).foldl
      (fun store journal => store.insert journal.runId journal) process.world.journals := by
  cases stepped with
  | prologue taken =>
      cases taken with
      | @proceed stage => cases stage <;> rfl
      | failed error early fails =>
          rw [written_of_fails process fails]
          rfl
      | report =>
          simp only [Process.report]
          split <;> rfl
      | collected =>
          simp only [Process.collected]
          split <;> rfl
      | closed phase =>
          simp only [written, phase]
          rfl
      | closeFailed text phase =>
          simp only [written, phase]
          exact journals_saveIf _ _ _
      | started phase =>
          simp only [written, phase]
          rfl
      | startFailed text phase =>
          simp only [written, phase]
          exact journals_saveIf _ _ _
      | _ => rfl
  | ingest taken =>
      cases taken with
      | commit phase committing recorded moved =>
          cases moved with
          | savedCommitting => simp [written, recorded, World.save]
          | committingUnsaved =>
              simp only [written, recorded]
              exact journals_saveIf _ _ _
          | savedCommitted => simp [written, recorded, World.save]
          | committedUnsaved =>
              simp only [written, recorded]
              exact journals_saveIf _ _ _
          | _ => rfl
      | _ => rfl
  | epilogue taken =>
      cases taken with
      | recorded phase recorded => simp [written, recorded, World.save]
      | recordFailed phase recorded =>
          simp only [written, recorded]
          exact journals_saveIf _ _ _
      | supersede phase => simp [written, phase, World.save]
      | supersedeFailed phase =>
          simp only [written, phase]
          exact journals_saveIf _ _ _
      | _ => rfl
  | _ => rfl

/-- The commit call is about to save the entry it has just pushed. -/
def Saving : Pipeline.Writer CommitCall → Prop
  | .committing _ call _ =>
      match call.phase with
      | .savingCommitting _ | .savingCommitted => True
      | _ => False
  | _ => False

/-- A save of the run's own journal, after its first one, fails. -/
def recordFails : ProcessAction → Prop
  | .ingest (.commit (.saveFailed _)) | .epilogue (.recordFailed _) => True
  | _ => False

/-- What a step does to the run's own journal and to the store. -/
inductive JournalEffect (process next : Process) (action : ProcessAction) : Prop where
  | none :
      next.run.journal = process.run.journal → process.written action = [] →
      (Saving process.run.pipe.writer → Saving next.run.pipe.writer ∨ recordFails action) →
      JournalEffect process next action
  | start (now : DateTime) :
      process.run.phase = .starting →
      next.run.journal = some (newJournal process.run now) →
      process.written action = [newJournal process.run now] → JournalEffect process next action
  | startFailed (now : DateTime) :
      process.run.phase = .starting → ¬ Unrecorded next.run.phase →
      next.run.journal = process.run.journal →
      process.written action = [newJournal process.run now] → JournalEffect process next action
  | push (journal : RunJournal) (state : RunState) (now : DateTime) :
      process.run.phase = .ingesting → process.run.journal = some journal →
      state.isClosure = false → next.run.journal = some (journal.push state now) →
      process.written action = [] → ¬ Saving process.run.pipe.writer →
      (Saving next.run.pipe.writer ∨ state.isTerminal = true) → JournalEffect process next action
  | save (journal : RunJournal) :
      process.run.journal = some journal → next.run.journal = some journal →
      process.written action = [journal] → JournalEffect process next action
  | close (old closure : RunJournal) :
      old ∈ process.run.predecessors → closure.runId = old.runId →
      next.run.journal = process.run.journal → process.written action = [closure] →
      next.run.pipe = process.run.pipe → JournalEffect process next action

theorem not_saving_of_fresh {run : Run} (fresh : run.Fresh) : ¬ Saving run.pipe.writer := by
  rw [fresh.pipe]
  simp only [Pipeline.start]
  split <;> exact id

theorem PrologueStep.journalEffect {process next : Process} {action : PrologueAction}
    (untouched : process.run.Fresh) (stepped : PrologueStep process action next) :
    JournalEffect process next (.prologue action) := by
  have idle : ∀ {saved : Prop}, Saving process.run.pipe.writer → saved :=
    fun saving => (not_saving_of_fresh untouched saving).elim
  cases stepped with
  | @proceed stage => cases stage <;> exact .none rfl rfl idle
  | failed error early fails => exact .none rfl (written_of_fails process fails) idle
  | report =>
      refine .none ?_ rfl idle
      simp only [Process.report]
      split <;> rfl
  | collected =>
      refine .none ?_ rfl idle
      simp only [Process.collected]
      split <;> rfl
  | @closed journal remaining done phase =>
      refine .close journal journal ?_ rfl rfl ?_ rfl
      · simp [Run.predecessors, phase]
      · simp [written, phase]
  | @closeFailed journal remaining done landed error text phase =>
      cases landed with
      | false => exact .none rfl (by simp [written, phase]) idle
      | true =>
          refine .close journal journal ?_ rfl rfl ?_ rfl
          · simp [Run.predecessors, phase]
          · simp [written, phase]
  | @started now phase => exact .start now phase rfl (by simp [written, phase])
  | @startFailed now landed error text phase =>
      cases landed with
      | false => exact .none rfl (by simp [written, phase]) idle
      | true =>
          refine .startFailed now phase ?_ rfl (by simp [written, phase])
          rintro (early | starting)
          · exact early
          · cases starting
  | _ => exact .none rfl rfl idle

theorem CommitStep.journalEffect {process next : Process} {rows : List FileInfo}
    {call : CommitCall} {tail : Bool} {journal : RunJournal} {action : CommitAction}
    (ingesting : process.run.phase = .ingesting)
    (committing : process.run.pipe.writer = .committing rows call tail)
    (recorded : process.run.journal = some journal)
    (stepped : CommitStep process rows call tail journal action next) :
    JournalEffect process next (.ingest (.commit action)) := by
  have busy : ∀ {phase : CommitPhase} {saved : Prop}, call.phase = phase →
      ¬ (Saving (.committing rows { call with phase } tail)) →
      Saving process.run.pipe.writer → saved := by
    intro phase saved same stage saving
    rw [committing] at saving
    simp only [Saving, same] at saving stage
    exact (stage saving).elim
  cases stepped with
  | enter phase =>
      exact .push journal _ _ ingesting recorded rfl rfl rfl (busy phase id) (.inl trivial)
  | acknowledged phase =>
      exact .push journal _ _ ingesting recorded rfl rfl rfl (busy phase id) (.inl trivial)
  | savedCommitting => exact .save journal recorded recorded (by simp [written, recorded])
  | savedCommitted => exact .save journal recorded recorded (by simp [written, recorded])
  | @committingUnsaved batch landed =>
      cases landed with
      | false => exact .none rfl rfl (fun _ => .inr trivial)
      | true => exact .save journal recorded recorded (by simp [written, recorded])
  | @committedUnsaved landed =>
      cases landed with
      | false => exact .none rfl rfl (fun _ => .inr trivial)
      | true => exact .save journal recorded recorded (by simp [written, recorded])
  | innerFailed phase => exact .none rfl rfl (busy phase id)
  | request phase => exact .none rfl rfl (busy phase id)
  | requestFailed phase => exact .none rfl rfl (busy phase id)

theorem saving_of_pipeline {plan : RunPlan} {pipe next : Pipeline.State FileTask CommitCall}
    {action : Pipeline.Action} (allowed : allows pipe action = true)
    (stepped : Pipeline.step plan.pipeline plan.parts pipe action = some next)
    (saving : Saving pipe.writer) : Saving next.writer := by
  cases Pipeline.Step.of_step stepped with
  | recvMore receiving => simp [receiving, Saving] at saving
  | recvFull receiving => simp [receiving, Saving] at saving
  | recvClosedEmpty receiving => simp [receiving, Saving] at saving
  | recvClosedTail receiving => simp [receiving, Saving] at saving
  | commitOk writing =>
      simp only [allows, writing, decide_eq_true_eq] at allowed
      simp [writing, Saving, allowed] at saving
  | commitErr writing =>
      simp only [allows, writing, decide_eq_true_eq] at allowed
      simp [writing, Saving, allowed] at saving
  | _ => exact saving

theorem terminalState_isTerminal (report : Pipeline.PipelineReport) :
    (terminalState report).isClosure = false ∧ (terminalState report).isTerminal = true := by
  unfold terminalState
  split <;> exact ⟨rfl, rfl⟩

theorem EpilogueStep.journalEffect {process next : Process} {action : EpilogueAction}
    (stepped : EpilogueStep process action next) :
    JournalEffect process next (.epilogue action) := by
  cases stepped with
  | @conclude report journal now phase reported recorded =>
      obtain ⟨own, terminal⟩ := terminalState_isTerminal report
      refine .push journal _ now phase recorded own rfl rfl ?_ (.inr terminal)
      rw [(Pipeline.report?_eq_some_iff.mp reported).2.1]
      exact id
  | concludePreview => exact .none rfl rfl .inl
  | @recorded conclusion journal phase recorded =>
      exact .save journal recorded recorded (by simp [written, recorded])
  | @recordFailed conclusion journal landed phase recorded =>
      cases landed with
      | false => exact .none rfl (by simp [written]) .inl
      | true => exact .save journal recorded recorded (by simp [written, recorded])
  | @supersede journal remaining conclusion now phase =>
      refine .close journal (journal.push (.supersededBy process.run.plan.runId) now) ?_ rfl rfl
        (by simp [written, phase]) rfl
      simp [Run.predecessors, phase]
  | @supersedeFailed journal remaining conclusion now landed phase =>
      cases landed with
      | false => exact .none rfl (by simp [written, phase]) .inl
      | true =>
          refine .close journal (journal.push (.supersededBy process.run.plan.runId) now) ?_ rfl
            rfl (by simp [written, phase]) rfl
          simp [Run.predecessors, phase]
  | exit => exact .none rfl rfl .inl

theorem Step.journalEffect {deployment : Deployment} {process next : Process}
    {action : ProcessAction} (fresh : Unrecorded process.run.phase → process.run.Fresh)
    (stepped : Step deployment process action next) : JournalEffect process next action := by
  cases stepped with
  | prologue taken => exact taken.journalEffect (fresh taken.unrecorded)
  | ingest taken =>
      cases taken with
      | pipeline phase allowed moved =>
          exact .none rfl rfl fun saving => .inl (saving_of_pipeline allowed moved saving)
      | worker => exact .none rfl rfl .inl
      | commit phase committing recorded moved =>
          exact moved.journalEffect phase committing recorded
  | epilogue taken => exact taken.journalEffect
  | _ => exact .none rfl rfl .inl

/-- No journal that the run reads is under its own name. -/
structure Foreign (process : Process) : Prop where
  held : ∀ journal ∈ process.run.predecessors, journal.runId ≠ process.run.plan.runId
  stored : Unrecorded process.run.phase → ∀ id journal,
    process.world.journals.lookup id = some journal → journal.runId ≠ process.run.plan.runId

theorem lookup_insert_cases {store : JournalStore} {written journal : RunJournal} {id : Uuid}
    (found : (store.insert written.runId written).lookup id = some journal) :
    journal = written ∨ store.lookup id = some journal := by
  by_cases same : id = written.runId
  · subst same
    rw [AList.lookup_insert, Option.some.injEq] at found
    exact .inl found.symm
  · rw [AList.lookup_insert_ne same] at found
    exact .inr found

theorem foreign_saveIf {process : Process} (landed : Bool) {written : RunJournal}
    (named : written.runId ≠ process.run.plan.runId)
    (stored : ∀ id journal, process.world.journals.lookup id = some journal →
      journal.runId ≠ process.run.plan.runId) :
    ∀ id journal, (process.world.saveIf landed written).journals.lookup id = some journal →
      journal.runId ≠ process.run.plan.runId := by
  intro id journal found
  cases landed with
  | false => exact stored id journal found
  | true =>
      rcases lookup_insert_cases found with rfl | old
      · exact named
      · exact stored id journal old

theorem PrologueStep.foreign {process next : Process} {action : PrologueAction}
    (foreign : Foreign process) (stepped : PrologueStep process action next) : Foreign next := by
  have stored := foreign.stored stepped.unrecorded
  have held := foreign.held
  have opened : ∀ journal ∈ process.run.openRuns, journal.runId ≠ process.run.plan.runId :=
    fun journal member => held journal (List.mem_append_left _ member)
  cases stepped with
  | @proceed stage phase =>
      refine ⟨?_, ?_⟩
      · cases stage <;> simpa [Run.predecessors, Process.proceed, setPhase] using opened
      · cases stage <;> exact fun _ => stored
  | failed error early fails =>
      exact ⟨by simpa [Run.predecessors, fail, setPhase] using opened, fun _ => stored⟩
  | loadState phase => exact ⟨by simpa [Run.predecessors] using opened, fun _ => stored⟩
  | list phase => exact ⟨by simpa [Run.predecessors, setPhase] using opened, fun _ => stored⟩
  | @load id ids loaded journal phase found =>
      refine ⟨?_, fun _ => stored⟩
      intro other member
      simp only [Run.predecessors, setPhase, List.mem_append, List.mem_singleton] at member
      rcases member with old | old | rfl
      · exact opened other old
      · exact held other (by simp [Run.predecessors, phase, old])
      · exact stored id other found
  | @loadFailed id ids loaded phase =>
      exact ⟨by simpa [Run.predecessors, phase, setPhase] using held, fun _ => stored⟩
  | @report loaded phase =>
      have open' : ∀ journal ∈ openRunsFor loaded process.run.plan.sourceId,
          journal.runId ≠ process.run.plan.runId := by
        intro journal member
        apply held
        simp [Run.predecessors, phase, (mem_openRunsFor_iff.mp member).1]
      simp only [Process.report]
      split
      · refine ⟨?_, fun _ => stored⟩
        intro journal member
        simp only [Run.predecessors, setPhase, List.append_nil, List.mem_append] at member
        rcases member with old | new
        · exact opened journal old
        · exact open' journal new
      · exact ⟨by simpa [Run.predecessors] using open', fun _ => stored⟩
  | @count journal remaining done now phase =>
      refine ⟨?_, fun _ => stored⟩
      intro other member
      simp only [Run.predecessors, setPhase, List.mem_append, List.mem_cons] at member
      rcases member with old | rfl | old
      · exact opened other old
      · exact held journal (by simp [Run.predecessors, phase])
      · exact held other (by simp [Run.predecessors, phase]; tauto)
  | @closed journal remaining done phase =>
      have named := held journal (by simp [Run.predecessors, phase])
      refine ⟨?_, fun _ => foreign_saveIf true named stored⟩
      intro other member
      simp only [Run.predecessors, setPhase, List.mem_append, List.mem_singleton] at member
      apply held
      simp only [Run.predecessors, phase, List.mem_append, List.mem_cons]
      tauto
  | @closeFailed journal remaining done landed error text phase =>
      have named := held journal (by simp [Run.predecessors, phase])
      refine ⟨?_, fun _ => foreign_saveIf landed named stored⟩
      simpa [Run.predecessors, fail, setPhase] using opened
  | @reconciled done phase =>
      refine ⟨?_, fun _ => stored⟩
      simpa [Run.predecessors, phase] using fun journal member =>
        held journal (by simp [Run.predecessors, phase, member])
  | collected phase =>
      simp only [Process.collected]
      split
      · exact ⟨by simpa [Run.predecessors, setPhase] using opened, fun _ => stored⟩
      · refine ⟨?_, fun _ => stored⟩
        cases process.run.plan.mode.writes <;> simpa [Run.predecessors] using opened
  | started phase =>
      refine ⟨by simpa [Run.predecessors] using opened, fun unrecorded => ?_⟩
      exact (not_unrecorded_ingesting rfl unrecorded).elim
  | startFailed text phase =>
      refine ⟨by simpa [Run.predecessors, fail, setPhase] using opened, ?_⟩
      rintro (early | starting)
      · exact early.elim
      · cases starting

theorem Step.foreign {deployment : Deployment} {process next : Process} {action : ProcessAction}
    (foreign : Foreign process) (stepped : Step deployment process action next) :
    Foreign next := by
  have opened : ∀ journal ∈ process.run.openRuns, journal.runId ≠ process.run.plan.runId :=
    fun journal member => foreign.held journal (List.mem_append_left _ member)
  cases stepped with
  | prologue taken => exact taken.foreign foreign
  | ingest taken =>
      refine ⟨?_, fun unrecorded => (not_unrecorded_ingesting taken.phase_eq.2 unrecorded).elim⟩
      cases taken with
      | pipeline phase => simpa [Run.predecessors, phase, setPipe] using opened
      | worker phase => simpa [Run.predecessors, phase, setPipe] using opened
      | commit phase committing recorded moved =>
          obtain ⟨plan, -, same, openRuns, -⟩ := moved.frame
          simpa [Run.predecessors, plan, same, openRuns, phase] using opened
  | epilogue taken =>
      refine ⟨?_, fun unrecorded => (taken.recorded_phase unrecorded).elim⟩
      cases taken with
      | conclude => simpa [Run.predecessors] using opened
      | concludePreview => simpa [Run.predecessors, setPhase] using opened
      | @recorded conclusion =>
          by_cases completed : conclusion.terminal = .completed <;>
            simpa [Run.predecessors, afterRecord, setPhase, completed] using opened
      | @recordFailed conclusion =>
          by_cases completed : conclusion.terminal = .completed <;>
            simpa [Run.predecessors, afterRecord, setPhase, completed] using opened
      | supersede phase =>
          intro journal member
          apply foreign.held
          simp only [Run.predecessors, setPhase, phase, List.mem_append, List.mem_cons] at member ⊢
          tauto
      | supersedeFailed phase =>
          intro journal member
          apply foreign.held
          simp only [Run.predecessors, setPhase, phase, List.mem_append, List.mem_cons] at member ⊢
          tauto
      | exit => simpa [Run.predecessors, setPhase] using opened
  | kill =>
      refine ⟨by simpa [Run.predecessors, setPhase] using opened, ?_⟩
      rintro (early | starting)
      · exact early.elim
      · cases starting
  | land => exact ⟨foreign.held, foreign.stored⟩
  | lose => exact ⟨foreign.held, foreign.stored⟩
  | edit => exact ⟨foreign.held, foreign.stored⟩

end Process

end AntiEntropator.Ingest
