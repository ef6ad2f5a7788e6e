import AntiEntropator.Ingest.Run.Brackets
import AntiEntropator.Ingest.Run.Honesty
import AntiEntropator.Ingest.Run.Preview

/-!
# Failed starts

Up to the first entry of its own journal a run touches nothing but the journals
of open predecessors, each of which it closes at most once; and without that
entry it stores no blob and commits no row.
-/

namespace AntiEntropator.Ingest

open Lakehouse

namespace RunJournal

/-- Journals that differ in the time of their last update at most. -/
def SameEntries (first second : RunJournal) : Prop :=
  { first with updatedAt := second.updatedAt } = second

variable {first second : RunJournal}

theorem SameEntries.fields (same : first.SameEntries second) :
    first.sourceId = second.sourceId ∧ first.isOpen = second.isOpen ∧
      ∀ state now, first.push state now = second.push state now := by
  cases first
  cases second
  cases same
  exact ⟨rfl, rfl, fun _ _ => rfl⟩

theorem sameEntries_of_push {state other : RunState} {now later : DateTime}
    (same : first.push state now = second.push other later) : first.SameEntries second := by
  cases first
  cases second
  simp only [push, mk.injEq] at same
  obtain ⟨rfl, rfl, rfl, rfl, -, rfl, histories⟩ := same
  have entries := List.append_inj_left' histories rfl
  subst entries
  rfl

end RunJournal

/-- A write that fails has no effect. -/
def ProcessAction.Unlanded : ProcessAction → Prop
  | .prologue (.closeFailed landed _) | .prologue (.startFailed _ landed _)
  | .ingest (.commit (.saveFailed landed))
  | .ingest (.worker _ (.upload (.closeFailed landed _)))
  | .epilogue (.recordFailed landed) | .epilogue (.supersedeFailed _ landed) => landed = false
  | _ => True

/-- The store differs by one closure of each of some open predecessors. -/
def ClosedOnly (plan : RunPlan) (before after : JournalStore) : Prop :=
  ∀ id, after.lookup id = before.lookup id ∨
    plan.mode = .ingest ∧ ∃ journal rows now, before.lookup id = some journal ∧
      journal.sourceId = plan.sourceId ∧ journal.isOpen = true ∧
      after.lookup id = some (journal.push (.reconciled rows) now)

theorem ClosedOnly.refl (plan : RunPlan) (store : JournalStore) : ClosedOnly plan store store :=
  fun _ => .inl rfl

def InPlace (store : JournalStore) (journal : RunJournal) : Prop :=
  ∃ stored, store.lookup journal.runId = some stored ∧ stored.SameEntries journal

/-- Every open journal of the source is stored under its own name. -/
def OpenInPlace (plan : RunPlan) (store : JournalStore) : Prop :=
  ∀ id journal, store.lookup id = some journal → journal.sourceId = plan.sourceId →
    journal.isOpen = true → InPlace store journal

/-- An open predecessor that can be closed. -/
structure Awaits (plan : RunPlan) (before : JournalStore) (journal : RunJournal) : Prop where
  source : journal.sourceId = plan.sourceId
  isOpen : journal.isOpen = true
  inPlace : InPlace before journal

theorem ClosedOnly.close {plan : RunPlan} {before after : JournalStore} {journal : RunJournal}
    (closedOnly : ClosedOnly plan before after) (mode : plan.mode = .ingest)
    (awaits : Awaits plan before journal) (rows : Nat) (now : DateTime) :
    ClosedOnly plan before
      (after.insert journal.runId (journal.push (.reconciled rows) now)) := by
  intro id
  by_cases same : id = journal.runId
  · subst same
    obtain ⟨stored, found, same⟩ := awaits.inPlace
    obtain ⟨source, isOpen, pushed⟩ := same.fields
    refine .inr ⟨mode, stored, rows, now, found, source.trans awaits.source,
      isOpen.trans awaits.isOpen, ?_⟩
    rw [AList.lookup_insert, pushed]
  · rw [AList.lookup_insert_ne same]
    exact closedOnly id

namespace Process

/-- What the journals are, phase by phase, until the run has its own. -/
def Predecessors (before : JournalStore) (process : Process) : Prop :=
  match process.run.phase with
  | .setup _ | .loadingState | .listing => process.world.journals = before
  | .loading _ loaded =>
      process.world.journals = before ∧
        ∀ journal ∈ loaded, ∃ id, before.lookup id = some journal
  | .reconciling remaining _ =>
      process.run.plan.mode = .ingest ∧
        ClosedOnly process.run.plan before process.world.journals ∧
        ∀ journal ∈ remaining, Awaits process.run.plan before journal
  | .closing journal remaining _ =>
      process.run.plan.mode = .ingest ∧
        ClosedOnly process.run.plan before process.world.journals ∧
        ∃ old rows now, journal = old.push (.reconciled rows) now ∧
          ∀ journal ∈ old :: remaining, Awaits process.run.plan before journal
  | _ => ClosedOnly process.run.plan before process.world.journals

theorem Predecessors.closedOnly {before : JournalStore} {process : Process}
    (predecessors : Predecessors before process) :
    ClosedOnly process.run.plan before process.world.journals := by
  have unchanged : process.world.journals = before →
      ClosedOnly process.run.plan before process.world.journals := by
    intro same
    rw [same]
    exact .refl _ _
  unfold Predecessors at predecessors
  split at predecessors
  · exact unchanged predecessors
  · exact unchanged predecessors
  · exact unchanged predecessors
  · exact unchanged predecessors.1
  · exact predecessors.2.1
  · exact predecessors.2.1
  · exact predecessors

theorem PrologueStep.predecessors {before : JournalStore} {process next : Process}
    {action : PrologueAction}
    (inPlace : process.run.plan.mode = .ingest → OpenInPlace process.run.plan before)
    (unlanded : ProcessAction.Unlanded (.prologue action))
    (predecessors : Predecessors before process) (stepped : PrologueStep process action next)
    (unstarted : Unstarted next.run.phase) :
    Predecessors before next := by
  have closedOnly := predecessors.closedOnly
  unfold Predecessors at predecessors
  cases stepped with
  | @proceed stage phase =>
      simp only [phase] at predecessors
      cases stage <;> exact predecessors
  | failed => exact closedOnly
  | loadState phase =>
      simp only [phase] at predecessors
      exact predecessors
  | list phase =>
      simp only [phase] at predecessors
      exact ⟨predecessors, by simp⟩
  | @load id ids loaded journal phase found =>
      simp only [phase] at predecessors
      obtain ⟨same, read⟩ := predecessors
      rw [same] at found
      refine ⟨same, fun other member => ?_⟩
      rcases List.mem_append.mp member with old | last
      · exact read other old
      · rw [List.mem_singleton.mp last]
        exact ⟨id, found⟩
  | loadFailed phase =>
      simp only [phase] at predecessors
      exact predecessors
  | @report loaded phase =>
      simp only [phase] at predecessors
      obtain ⟨same, read⟩ := predecessors
      simp only [Process.report]
      split
      next writes =>
        have mode : process.run.plan.mode = .ingest := by simpa [IngestMode.writes] using writes
        refine ⟨mode, closedOnly, fun journal member => ?_⟩
        obtain ⟨listed, source, isOpen⟩ := mem_openRunsFor_iff.mp member
        obtain ⟨id, found⟩ := read journal listed
        exact ⟨source, isOpen, inPlace mode id journal found source isOpen⟩
      next => exact closedOnly
  | @count journal remaining done now phase =>
      simp only [phase] at predecessors
      obtain ⟨mode, -, awaits⟩ := predecessors
      exact ⟨mode, closedOnly, journal, _, now, rfl, awaits⟩
  | @closed journal remaining done phase =>
      simp only [phase] at predecessors
      obtain ⟨mode, -, old, rows, now, rfl, awaits⟩ := predecessors
      obtain ⟨first, later⟩ := List.forall_mem_cons.mp awaits
      exact ⟨mode, closedOnly.close mode first rows now, later⟩
  | @closeFailed journal remaining done landed error text phase =>
      cases (show landed = false from unlanded)
      exact closedOnly
  | reconciled phase =>
      simp only [phase] at predecessors
      exact predecessors.2.1
  | collected phase =>
      simp only [Process.collected]
      split
      · exact closedOnly
      · cases process.run.plan.mode.writes <;> exact closedOnly
  | started =>
      rcases unstarted with unrecorded | ⟨result, ended⟩
      · exact (not_unrecorded_ingesting rfl unrecorded).elim
      · cases ended
  | @startFailed now landed error text phase =>
      cases (show landed = false from unlanded)
      exact closedOnly

theorem Step.predecessors {deployment : Deployment} {before : JournalStore}
    {process next : Process} {action : ProcessAction}
    (inPlace : process.run.plan.mode = .ingest → OpenInPlace process.run.plan before)
    (unlanded : action.Unlanded) (predecessors : Predecessors before process)
    (stepped : Step deployment process action next) (unstarted : Unstarted next.run.phase) :
    Predecessors before next := by
  cases stepped with
  | prologue taken => exact taken.predecessors inPlace unlanded predecessors unstarted
  | ingest taken => exact (not_unstarted_ingesting taken.phase_eq.2 unstarted).elim
  | epilogue taken =>
      have whole : Step deployment process (.epilogue _) next := .epilogue taken
      exact (taken.phase_started (whole.unstarted unstarted)).elim
  | kill =>
      rcases unstarted with (early | starting) | ⟨result, ended⟩
      · exact early.elim
      · cases starting
      · cases ended
  | _ => exact predecessors

section Runs

variable {deployment : Deployment} {plan : RunPlan} {world : World}
  {actions : List ProcessAction} {final : Process}

theorem predecessors_of_exec (inPlace : plan.mode = .ingest → OpenInPlace plan world.journals)
    (exec : (machine deployment).exec ⟨world, Run.start plan⟩ actions = some final)
    (unlanded : ∀ action ∈ actions, action.Unlanded) (unstarted : Unstarted final.run.phase) :
    Predecessors world.journals final := by
  have tracked := (machine deployment).exec_induction
    (motive := fun actions process => (∀ action ∈ actions, ProcessAction.Unlanded action) →
      Unstarted process.run.phase → Predecessors world.journals process) ?_ ?_ exec
  · exact tracked unlanded unstarted
  · intro _ _
    cases connected : plan.mode.isConnected with
    | false =>
        have phase : (Run.start plan).phase = .collecting := by simp [Run.start, connected]
        simp only [Predecessors, phase]
        exact .refl _ _
    | true =>
        have phase : (Run.start plan).phase = .setup .connectivity := by
          simp [Run.start, connected]
        simp only [Predecessors, phase]
  · intro actions middle action next before predecessors stepped clean ended
    have taken := Step.of_step stepped
    have earlier := predecessors (fun action member => clean action (List.mem_append_left _ member))
      (taken.unstarted ended)
    rw [← plan_of_exec before] at inPlace
    exact taken.predecessors inPlace (clean action (by simp)) earlier ended

theorem unwritten_of_exec (unused : Unused plan.runId world)
    (exec : (machine deployment).exec ⟨world, Run.start plan⟩ actions = some final)
    (unrecorded : final.run.journal = none) :
    final.world.blobs = world.blobs ∧ final.world.catalog = world.catalog := by
  cases writes : plan.mode.writes with
  | false =>
      obtain ⟨-, files, same⟩ := previews_of_exec writes exec
      simp [same]
  | true =>
      have tracked := (machine deployment).exec_induction
        (motive := fun _ (process : Process) => process.run.journal = none →
          process.world.blobs = world.blobs ∧ process.world.catalog = world.catalog) ?_ ?_ exec
      · exact tracked unrecorded
      · exact fun _ => ⟨rfl, rfl⟩
      · intro actions middle action next before same stepped absent
        have taken := Step.of_step stepped
        have earlier : middle.run.journal = none := by
          cases taken.journalEffect (fresh_of_exec before) with
          | none journal => rw [← journal, absent]
          | start now phase journal => rw [absent] at journal; cases journal
          | startFailed now phase ended journal => rw [← journal, absent]
          | push journal state now phase recorded own pushed =>
              rw [absent] at pushed
              cases pushed
          | save journal recorded kept => rw [absent] at kept; cases kept
          | close old closure member named journal => rw [← journal, absent]
        have chronicled := chronicled_of_exec unused before
        simp only [Chronicled, earlier] at chronicled
        constructor
        · rcases taken.blobs_cases with kept | ⟨index, inner, path, task, task', rfl, -⟩
          · rw [kept, (same earlier).1]
          · cases taken with
            | ingest moved =>
                exact (journal_of_ingesting writes before moved.phase_eq.1 earlier).elim
        · have landing : middle.landing action = [] := by
            unfold landing
            split
            · simp [chronicled.1]
            · rfl
          rw [taken.catalog_eq, landing, List.append_nil, (same earlier).2]

theorem started_of_exec (unused : Unused plan.runId world)
    (exec : (machine deployment).exec ⟨world, Run.start plan⟩ actions = some final)
    (recorded : final.run.journal ≠ none) :
    ∃ stored, final.world.journals.lookup plan.runId = some stored ∧
      stored.states.head? = some .started := by
  obtain ⟨journal, own⟩ := Option.ne_none_iff_exists'.mp recorded
  have kept := storedPrefix_of_exec unused exec
  have chronicled := chronicled_of_exec unused exec
  simp only [StoredPrefix, own] at kept
  simp only [Chronicled, own] at chronicled
  obtain ⟨-, stored, found, nonempty, before⟩ := kept
  rw [plan_of_exec exec] at found
  refine ⟨stored, found, ?_⟩
  have first : ∀ states, OwnStates states → states.head? = some .started := by
    intro states own
    cases own <;> rfl
  have initial : stored.states <+: journal.states := before.map _
  obtain ⟨rest, split⟩ := initial
  cases states : stored.states with
  | nil => exact absurd (List.map_eq_nil_iff.mp states) nonempty
  | cons state more =>
      have head := first _ chronicled.2.2.ownStates
      rw [← split, states] at head
      exact head

/-- What a failed start must leave as it was. -/
structure LeavesNothing (plan : RunPlan) (before after : World) : Prop where
  blobs : after.blobs = before.blobs
  catalog : after.catalog = before.catalog
  journals : ClosedOnly plan before.journals after.journals

theorem leavesNothing_of_exec (unused : Unused plan.runId world)
    (inPlace : plan.mode = .ingest → OpenInPlace plan world.journals)
    (exec : (machine deployment).exec ⟨world, Run.start plan⟩ actions = some final)
    {error : Error} (ended : final.run.phase = .exited none (.error error))
    (unlanded : ∀ action ∈ actions, action.Unlanded) :
    LeavesNothing plan world final.world := by
  have unrecorded : final.run.journal = none := by
    have chronicled := chronicled_of_exec unused exec
    cases own : final.run.journal with
    | none => rfl
    | some journal =>
        simp only [Chronicled, own] at chronicled
        rcases chronicled.2.2 with ⟨ingesting | killed, -⟩ | ⟨concluded | killed, -⟩
        · rw [ended] at ingesting; cases ingesting
        · rw [ended] at killed; cases killed
        · rw [ended] at concluded; exact concluded.elim
        · rw [ended] at killed; cases killed
  obtain ⟨blobs, catalog⟩ := unwritten_of_exec unused exec unrecorded
  have predecessors := predecessors_of_exec inPlace exec unlanded (.inr ⟨_, ended⟩)
  have closed := predecessors.closedOnly
  rw [plan_of_exec exec] at closed
  exact ⟨blobs, catalog, closed⟩

theorem recorded_of_exec (unused : Unused plan.runId world)
    (exec : (machine deployment).exec ⟨world, Run.start plan⟩ actions = some final)
    (written : final.world.blobs ≠ world.blobs ∨ final.world.catalog ≠ world.catalog) :
    ∃ stored, final.world.journals.lookup plan.runId = some stored ∧
      stored.states.head? = some .started := by
  apply started_of_exec unused exec
  intro unrecorded
  obtain ⟨blobs, catalog⟩ := unwritten_of_exec unused exec unrecorded
  rcases written with changed | changed
  · exact changed blobs
  · exact changed catalog

/-! ## A journal in a wrong place -/

theorem exec_loadFailed (ids : List Uuid) {process : Process} {rest : List Uuid}
    {loaded : List RunJournal} (phase : process.run.phase = .loading (ids ++ rest) loaded) :
    (machine deployment).exec process (List.replicate ids.length (.prologue .loadFailed)) =
      some (process.setPhase (.loading rest loaded)) := by
  induction ids generalizing process with
  | nil =>
      rw [List.nil_append] at phase
      rw [← phase]
      rfl
  | cons id ids inductionHypothesis =>
      have stepped : (machine deployment).step process (.prologue .loadFailed) =
          some (process.setPhase (.loading (ids ++ rest) loaded)) := by
        show process.prologue .loadFailed = _
        simp only [prologue, phase, List.cons_append]
      rw [List.length_cons, List.replicate_succ, GuardedMachine.exec_cons_eq_some_iff]
      exact ⟨_, stepped, inductionHypothesis rfl⟩

theorem step_load {process : Process} {id : Uuid} {ids : List Uuid} {loaded : List RunJournal}
    {journal : RunJournal} (phase : process.run.phase = .loading (id :: ids) loaded)
    (found : process.world.journals.lookup id = some journal) :
    (machine deployment).step process (.prologue .load) =
      some (process.setPhase (.loading ids (loaded ++ [journal]))) := by
  show process.prologue .load = _
  simp only [prologue, phase, found]

/-- One open run is listed and closed; then the walk fails. -/
theorem exec_close {process : Process} {journal : RunJournal}
    (phase : process.run.phase = .loading [] [journal]) (mode : process.run.plan.mode = .ingest)
    (source : journal.sourceId = process.run.plan.sourceId) (isOpen : journal.isOpen = true)
    (now : DateTime) (error : Error) : ∃ final rows,
      (machine deployment).exec process (([.report, .count now, .closed, .reconciled,
        .collectFailed error] : List PrologueAction).map .prologue) = some final ∧
      final.run.phase = .exited none (.error error) ∧
      final.world.journals =
        process.world.journals.insert journal.runId (journal.push (.reconciled rows) now) := by
  have listed : openRunsFor [journal] process.run.plan.sourceId = [journal] := by
    simp [openRunsFor, newestFirst, source, isOpen]
  have reported : process.report [journal] = process.setPhase (.reconciling [journal] []) := by
    rw [report, listed, mode]
    rfl
  have first : (machine deployment).step process (.prologue .report) =
      some (process.setPhase (.reconciling [journal] [])) := by
    show process.prologue .report = _
    simp only [prologue, phase, reported]
  refine ⟨_, _, GuardedMachine.exec_cons_eq_some_iff _ |>.mpr ⟨_, first, rfl⟩, rfl, rfl⟩

/-- An open journal that its own name does not hold is copied there. -/
theorem exists_misplacing (mode : plan.mode = .ingest) {id : Uuid} {journal : RunJournal}
    (found : world.journals.lookup id = some journal) (source : journal.sourceId = plan.sourceId)
    (isOpen : journal.isOpen = true) (now : DateTime) (error : Error) : ∃ actions final rows,
      (machine deployment).exec ⟨world, Run.start plan⟩ actions = some final ∧
      (∀ action ∈ actions, action.Unlanded) ∧ final.run.phase = .exited none (.error error) ∧
      final.world.journals =
        world.journals.insert journal.runId (journal.push (.reconciled rows) now) := by
  obtain ⟨runId, sourceId, root, _, pipeline⟩ := plan
  subst mode
  have member : id ∈ world.journals.keys :=
    AList.mem_keys.mp (AList.lookup_isSome.mp (Option.isSome_of_mem found))
  obtain ⟨front, back, keys⟩ := List.append_of_mem member
  let plan : RunPlan := ⟨runId, sourceId, root, .ingest, pipeline⟩
  let listed : Process := ⟨world, { Run.start plan with
    state := some (loadCurrentState world.catalog sourceId)
    phase := .loading world.journals.keys [] }⟩
  have listing : (machine deployment).exec ⟨world, Run.start plan⟩
      (([.proceed, .proceed, .proceed, .proceed, .loadState, .list] : List PrologueAction).map
        .prologue) = some listed := rfl
  have skipped : (machine deployment).exec listed
      (List.replicate front.length (.prologue .loadFailed)) =
        some (listed.setPhase (.loading (id :: back) [])) :=
    exec_loadFailed front (congrArg (RunPhase.loading · []) keys)
  have loaded : (machine deployment).step (listed.setPhase (.loading (id :: back) []))
      (.prologue .load) = some (listed.setPhase (.loading back ([] ++ [journal]))) :=
    step_load rfl found
  have alone : (machine deployment).exec (listed.setPhase (.loading back [journal]))
      (List.replicate back.length (.prologue .loadFailed)) =
        some (listed.setPhase (.loading [] [journal])) :=
    exec_loadFailed back (congrArg (RunPhase.loading · [journal]) (List.append_nil back).symm)
  have ready : (listed.setPhase (.loading [] [journal])).run.phase = .loading [] [journal] := rfl
  obtain ⟨final, rows, closing, ended, journals⟩ :=
    exec_close ready rfl source isOpen now error
  refine ⟨_, final, rows, GuardedMachine.exec_append_eq_some_iff _ |>.mpr ⟨_, listing,
    GuardedMachine.exec_append_eq_some_iff _ |>.mpr ⟨_, skipped,
      GuardedMachine.exec_cons_eq_some_iff _ |>.mpr ⟨_, loaded,
        GuardedMachine.exec_append_eq_some_iff _ |>.mpr ⟨_, alone, closing⟩⟩⟩⟩, ?_, ended, journals⟩
  simp [ProcessAction.Unlanded, or_imp, forall_and, List.mem_replicate]

/-- A run that fails before its pipeline leaves nothing behind but closures of
open predecessors; and at every point of every execution, whoever has stored a
blob or committed a row has a persisted journal that starts with `started`.  In
ingest mode this is so exactly if the open journals are where their names say. -/
theorem failed_start_leaves_nothing_behind_iff (unused : Unused plan.runId world) :
    (∀ actions final,
      (machine deployment).exec ⟨world, Run.start plan⟩ actions = some final →
      (∀ error, final.run.phase = .exited none (.error error) →
        (∀ action ∈ actions, ProcessAction.Unlanded action) →
        LeavesNothing plan world final.world) ∧
      (final.world.blobs ≠ world.blobs ∨ final.world.catalog ≠ world.catalog →
        ∃ stored, final.world.journals.lookup plan.runId = some stored ∧
          stored.states.head? = some .started)) ↔
    (plan.mode = .ingest → OpenInPlace plan world.journals) := by
  constructor
  · intro clean mode id journal found source isOpen
    by_contra misplaced
    -- The closure shows under the journal's name, whenever it is made.
    have copied : ∀ now, ∃ rows,
        world.journals.lookup journal.runId = some (journal.push (.reconciled rows) now) := by
      intro now
      obtain ⟨actions, final, rows, exec, unlanded, ended, journals⟩ :=
        exists_misplacing mode found source isOpen now (.msg "")
      refine ⟨rows, ?_⟩
      have left := ((clean actions final exec).1 _ ended unlanded).journals journal.runId
      rw [journals, AList.lookup_insert] at left
      rcases left with same | ⟨-, other, _, _, kept, -, -, same⟩
      · exact same.symm
      · exact (misplaced ⟨other, kept, RunJournal.sameEntries_of_push
          (Option.some.inj same).symm⟩).elim
    obtain ⟨_, first⟩ := copied 0
    obtain ⟨_, second⟩ := copied 1
    rw [first, Option.some.injEq] at second
    have times : (0 : Int) = 1 := congrArg RunJournal.updatedAt second
    exact absurd times (by decide)
  · intro inPlace actions final exec
    exact ⟨fun _ ended unlanded => leavesNothing_of_exec unused inPlace exec ended unlanded,
      recorded_of_exec unused exec⟩

end Runs

/-- A run that closes its predecessor and then cannot walk the tree. -/
def failedStartSchedule (now : DateTime) : List ProcessAction :=
  ([.proceed, .proceed, .proceed, .proceed, .loadState, .list, .load, .report, .count now,
    .closed, .reconciled, .collectFailed (.msg "permission denied")] :
      List PrologueAction).map .prologue

theorem lookup_insert_empty {id other : Uuid} {journal found : RunJournal}
    (stored : ((∅ : JournalStore).insert id journal).lookup other = some found) :
    other = id ∧ found = journal := by
  by_cases same : other = id
  · subst same
    rw [AList.lookup_insert, Option.some.injEq] at stored
    exact ⟨rfl, stored.symm⟩
  · rw [AList.lookup_insert_ne same] at stored
    cases stored

theorem failed_start_leaves_nothing_behind_iff_closing : ∃ final,
    (machine sampleDeployment).exec ⟨interruptedWorld, Run.start (samplePlan 2)⟩
        (failedStartSchedule 2000) = some final ∧
      (final.world.journals.lookup 1).map RunJournal.states = some [.started, .reconciled 0] ∧
      LeavesNothing (samplePlan 2) interruptedWorld final.world := by
  obtain ⟨final, exec, shown⟩ := Option.map_eq_some_iff.mp (show
    ((machine sampleDeployment).exec ⟨interruptedWorld, Run.start (samplePlan 2)⟩
      (failedStartSchedule 2000)).map (fun final =>
        (final.run.phase.exit?, (final.world.journals.lookup 1).map RunJournal.states)) =
      some (some (none, .error (.msg "permission denied")), some [.started, .reconciled 0])
        by decide +kernel)
  obtain ⟨ended, closed⟩ := Prod.mk.injEq .. ▸ shown
  have unused : Unused (samplePlan 2).runId interruptedWorld := by
    refine ⟨by decide, fun id journal found => ?_, rfl⟩
    rw [(lookup_insert_empty found).2]
    decide
  have inPlace : OpenInPlace (samplePlan 2) interruptedWorld.journals := by
    intro id journal found _ _
    obtain ⟨rfl, rfl⟩ := lookup_insert_empty found
    exact ⟨_, found, rfl⟩
  obtain ⟨clean, -⟩ :=
    (failed_start_leaves_nothing_behind_iff unused).mpr (fun _ => inPlace) _ _ exec
  exact ⟨final, exec, closed, clean _ (RunPhase.exit?_eq_some_iff.mp ended)
    (by simp [failedStartSchedule, ProcessAction.Unlanded])⟩

/-- A world in which the journal of run 7 lies under the name of run 5. -/
def misfiledWorld : World :=
  { sampleWorld with
    journals := (∅ : JournalStore).insert 5 (RunJournal.new 7 "/data" 1 1000) }

/-- The start that fails there leaves a new object behind, and the journal open. -/
theorem failed_start_creates_a_journal : ∃ final,
    (machine sampleDeployment).exec ⟨misfiledWorld, Run.start (samplePlan 2)⟩
        (failedStartSchedule 2000) = some final ∧
      (∀ action ∈ failedStartSchedule 2000, action.Unlanded) ∧
      final.run.phase.exit? = some (none, .error (.msg "permission denied")) ∧
      final.world.journals.keys = [7, 5] ∧
      (final.world.journals.lookup 5).map RunJournal.isOpen = some true ∧
      ¬ LeavesNothing (samplePlan 2) misfiledWorld final.world := by
  obtain ⟨final, exec, shown⟩ := Option.map_eq_some_iff.mp (show
    ((machine sampleDeployment).exec ⟨misfiledWorld, Run.start (samplePlan 2)⟩
      (failedStartSchedule 2000)).map (fun final =>
        (final.run.phase.exit?, final.world.journals.keys,
          (final.world.journals.lookup 5).map RunJournal.isOpen)) =
      some (some (none, .error (.msg "permission denied")), [7, 5], some true)
        by decide +kernel)
  simp only [Prod.mk.injEq] at shown
  obtain ⟨ended, keys, isOpen⟩ := shown
  refine ⟨final, exec, by simp [failedStartSchedule, ProcessAction.Unlanded], ended, keys, isOpen,
    fun left => ?_⟩
  have absent : misfiledWorld.journals.lookup 7 = none := by decide
  have present : final.world.journals.lookup 7 ≠ none := by
    rw [ne_eq, AList.lookup_eq_none, not_not, AList.mem_keys, keys]
    exact List.mem_cons_self
  rcases left.journals 7 with same | ⟨-, journal, rows, now, found, -⟩
  · exact present (same.trans absent)
  · rw [absent] at found
    cases found

end Process

end AntiEntropator.Ingest
