import AntiEntropator.Ingest.Run.Honesty
import AntiEntropator.Ingest.Run.Journals

/-!
# The stored journal brackets the catalog

At whatever step a run is cut off, its stored journal is a prefix of what it
knew, and says no more than the catalog holds.
-/

namespace AntiEntropator.Ingest

open Lakehouse

/-- The rows in the catalog that carry a run's id. -/
def rowsOf (catalog : List CatalogRow) (runId : Uuid) : Nat :=
  catalog.countP fun row => row.runId = some runId

/-- A run id that nothing in the world mentions. -/
structure Unused (runId : Uuid) (world : World) : Prop where
  unstored : world.journals.lookup runId = none
  unnamed : ∀ id journal, world.journals.lookup id = some journal → journal.runId ≠ runId
  unlanded : rowsOf world.catalog runId = 0

namespace Process

theorem rowsOf_request {deployment : Deployment} {times : List DateTime} {run : Run}
    {request : Request} (built : run.Built deployment times)
    (sent : run.request = some request) :
    rowsOf request.rows run.plan.runId = request.rows.length := by
  obtain ⟨batch, rows, each⟩ := built.request request sent
  apply List.countP_eq_length.mpr
  intro row member
  rw [rows] at member
  obtain ⟨info, inside, rfl⟩ := List.mem_map.mp member
  obtain ⟨path, -, hash, relativePath, observes, -⟩ := each info inside
  simp only [CatalogRow.push, observes.runId, decide_eq_true_eq]
  rfl

theorem rowsOf_landing {deployment : Deployment} {times : List DateTime} {process : Process}
    (built : process.run.Built deployment times) (action : ProcessAction) :
    rowsOf (process.landing action) process.run.plan.runId = (process.landing action).length := by
  unfold landing
  split
  · split
    next rows flying => exact rowsOf_request built flying
    next => rfl
  · rfl

/-- What the store holds of the run's own journal. -/
def StoredPrefix (process : Process) : Prop :=
  match process.run.journal with
  | none =>
      (Unrecorded process.run.phase →
        process.world.journals.lookup process.run.plan.runId = none) ∧
      ∀ stored, process.world.journals.lookup process.run.plan.runId = some stored →
        stored.states = [.started]
  | some journal =>
      journal.runId = process.run.plan.runId ∧
      ∃ stored, process.world.journals.lookup process.run.plan.runId = some stored ∧
        stored.history ≠ [] ∧ stored.history <+: journal.history

theorem Step.storedPrefix {deployment : Deployment} {process next : Process}
    {action : ProcessAction} (fresh : Unrecorded process.run.phase → process.run.Fresh)
    (foreign : Foreign process) (kept : StoredPrefix process)
    (stepped : Step deployment process action next) : StoredPrefix next := by
  have store := stepped.journals_eq
  have plan := stepped.plan_eq
  unfold StoredPrefix at kept ⊢
  rw [plan]
  cases stepped.journalEffect fresh with
  | none journal written =>
      rw [written, List.foldl_nil] at store
      rw [journal, store]
      cases recorded : process.run.journal with
      | none =>
          simp only [recorded] at kept
          exact ⟨fun unrecorded => kept.1 (stepped.unrecorded unrecorded), kept.2⟩
      | some journal => simpa only [recorded] using kept
  | start now phase journal written =>
      rw [written] at store
      rw [journal, store]
      refine ⟨rfl, newJournal process.run now, AList.lookup_insert _, ?_, List.prefix_rfl⟩
      exact List.cons_ne_nil _ _
  | startFailed now phase ended journal written =>
      have unwritten := (fresh (.inr phase)).journal
      rw [written] at store
      rw [journal, store, unwritten]
      refine ⟨fun unrecorded => (ended unrecorded).elim, ?_⟩
      intro stored found
      have same : (process.world.journals.insert process.run.plan.runId
          (newJournal process.run now)).lookup process.run.plan.runId = some stored := found
      rw [AList.lookup_insert, Option.some.injEq] at same
      rw [← same]
      rfl
  | push journal state now ingesting recorded own pushed written =>
      rw [written, List.foldl_nil] at store
      simp only [recorded] at kept
      rw [pushed, store]
      obtain ⟨named, stored, found, nonempty, before⟩ := kept
      refine ⟨named, stored, found, nonempty, before.trans ?_⟩
      exact List.prefix_append _ _
  | save journal recorded same written =>
      simp only [recorded] at kept
      rw [written] at store
      rw [same, store]
      obtain ⟨named, stored, found, nonempty, before⟩ := kept
      refine ⟨named, journal, ?_, ?_, List.prefix_rfl⟩
      · rw [← named]
        exact AList.lookup_insert _
      · intro empty
        rw [empty] at before
        exact nonempty (List.prefix_nil.mp before)
  | close old closure member named journal written =>
      have other : process.run.plan.runId ≠ closure.runId := by
        rw [named]
        exact (foreign.held old member).symm
      have same : next.world.journals.lookup process.run.plan.runId =
          process.world.journals.lookup process.run.plan.runId := by
        rw [store, written]
        exact AList.lookup_insert_ne other
      rw [journal, same]
      cases recorded : process.run.journal with
      | none =>
          simp only [recorded] at kept
          exact ⟨fun unrecorded => kept.1 (stepped.unrecorded unrecorded), kept.2⟩
      | some journal => simpa only [recorded] using kept

/-- With every save taking effect, the store lacks at most the entry that is
about to be saved, or the terminal one. -/
def Persisted (process : Process) : Prop :=
  ∀ journal, process.run.journal = some journal →
    ∃ stored, process.world.journals.lookup process.run.plan.runId = some stored ∧
      (stored.states = journal.states ∨
        ∃ state, journal.states = stored.states ++ [state] ∧
          (Saving process.run.pipe.writer ∨ state.isTerminal = true))

theorem Step.persisted {deployment : Deployment} {process next : Process}
    {action : ProcessAction} {landed : Nat}
    (fresh : Unrecorded process.run.phase → process.run.Fresh) (foreign : Foreign process)
    (chronicled : Chronicled process.run landed) (reliable : ¬ recordFails action)
    (persisted : Persisted process) (stepped : Step deployment process action next) :
    Persisted next := by
  have store := stepped.journals_eq
  unfold Persisted
  rw [stepped.plan_eq]
  cases stepped.journalEffect fresh with
  | none journal written saving =>
      rw [written, List.foldl_nil] at store
      rw [journal, store]
      intro own recorded
      obtain ⟨stored, found, current | ⟨state, behind, waiting⟩⟩ := persisted own recorded
      · exact ⟨stored, found, .inl current⟩
      · refine ⟨stored, found, .inr ⟨state, behind, ?_⟩⟩
        exact waiting.imp_left fun saves => (saving saves).resolve_right reliable
  | start now phase journal written =>
      rw [written] at store
      rw [journal, store]
      rintro own recorded
      cases recorded
      exact ⟨_, AList.lookup_insert _, .inl rfl⟩
  | startFailed now phase ended journal written =>
      rw [journal, (fresh (.inr phase)).journal]
      intro own recorded
      cases recorded
  | push journal state now ingesting recorded own pushed written idle waiting =>
      rw [written, List.foldl_nil] at store
      rw [pushed, store]
      rintro later same
      cases same
      obtain ⟨stored, found, current | ⟨last, behind, saving | terminal⟩⟩ :=
        persisted journal recorded
      · refine ⟨stored, found, .inr ⟨state, ?_, waiting⟩⟩
        rw [RunJournal.push_states, current]
      · exact (idle saving).elim
      · simp only [Chronicled, recorded] at chronicled
        have plain := (chronicled.2.2.ongoing ingesting).not_terminal last (by simp [behind])
        simp [terminal] at plain
  | save journal recorded same written =>
      simp only [Chronicled, recorded] at chronicled
      rw [written] at store
      rw [same, store]
      rintro later rfl'
      cases rfl'
      refine ⟨journal, ?_, .inl rfl⟩
      rw [← chronicled.1]
      exact AList.lookup_insert _
  | close old closure member named journal written pipe =>
      have other : process.run.plan.runId ≠ closure.runId := by
        rw [named]
        exact (foreign.held old member).symm
      have same : next.world.journals.lookup process.run.plan.runId =
          process.world.journals.lookup process.run.plan.runId := by
        rw [store, written]
        exact AList.lookup_insert_ne other
      rw [journal, same, pipe]
      exact persisted

end Process

/-! ## The gap between journal and catalog -/

/-- The catalog holds what the stored journal records, or one more batch that
the journal shows as announced. -/
def Bracketed (run : Run) (stored : RunJournal) (landed : Nat) : Prop :=
  landed = stored.rowsCommitted ∨
    ∃ request, run.request = some request ∧ request.rows ≠ [] ∧
      request.rows.length ≤ run.plan.pipeline.batchSize ∧
      landed = stored.rowsCommitted + request.rows.length ∧
      ∃ batch, stored.lastOwn = .committing batch ∨ stored.lastOwn = .commitFailed batch

theorem lastOwn_of_states {journal : RunJournal} {states : List RunState} {state : RunState}
    (shown : journal.states = states ++ [state]) (own : state.isClosure = false) :
    journal.lastOwn = state := by
  simp [RunJournal.lastOwn, shown, own]

section Gap

variable {run : Run} {states : List RunState} {stored : RunJournal} {sizes : List Nat}
  {landed : Nat}

theorem Outstanding.bracketed {rows : List FileInfo}
    (outstanding : Outstanding run rows sizes.sum landed)
    (recorded : recordedRows stored.states = sizes.sum)
    (last : ∃ batch, stored.lastOwn = .committing batch ∨ stored.lastOwn = .commitFailed batch) :
    Bracketed run stored landed := by
  obtain ⟨nonempty, bounded, status, request, count⟩ := outstanding
  unfold Bracketed
  rw [rowsCommitted_eq, recorded]
  by_cases applied : status = .applied
  · refine .inr ⟨_, request, ?_, ?_, ?_, last⟩
    · simpa [filesToBatch] using nonempty
    · simpa [filesToBatch] using bounded
    · simpa [filesToBatch, applied] using count
  · exact .inl (by simpa [applied] using count)

theorem Unresolved.bracketed (unresolved : Unresolved run sizes.sum landed)
    (recorded : recordedRows stored.states = sizes.sum)
    (last : ∃ batch, stored.lastOwn = .committing batch ∨ stored.lastOwn = .commitFailed batch) :
    Bracketed run stored landed := by
  rcases unresolved with settled | ⟨rows, outstanding⟩
  · exact .inl (by rw [rowsCommitted_eq, recorded, settled.2])
  · exact outstanding.bracketed recorded last

theorem Ongoing.bracketed (ongoing : Ongoing run states landed)
    (kept : stored.states = states ∨
      ∃ state, states = stored.states ++ [state] ∧ Process.Saving run.pipe.writer) :
    Bracketed run stored landed := by
  obtain ⟨sizes, -, ongoing⟩ := ongoing
  generalize run.pipe.writer = writer at ongoing kept
  have quiet : Quiet run states landed sizes → stored.states = states →
      Bracketed run stored landed := by
    rintro ⟨shown, -, settled⟩ current
    exact .inl (by rw [rowsCommitted_eq, current, shown, recordedRows_ownWord, settled.2])
  have announced : Announced run states sizes → stored.states = states →
      recordedRows stored.states = sizes.sum ∧
        stored.lastOwn = .committing (sizes.length + 1) := by
    rintro ⟨shown, -⟩ current
    refine ⟨?_, lastOwn_of_states (current.trans shown) rfl⟩
    rw [current, shown, recordedRows_append, recordedRows_ownWord]
    rfl
  cases writer with
  | receiving batch => exact quiet ongoing (kept.resolve_right (by simp [Process.Saving]))
  | committing rows call tail =>
      obtain ⟨callRows, phase⟩ := call
      cases phase with
      | entered => exact quiet ongoing (kept.resolve_right (by simp [Process.Saving]))
      | savingCommitting batch =>
          obtain ⟨-, entry, settled⟩ := ongoing
          apply Or.inl
          rw [rowsCommitted_eq, settled.2]
          rcases kept with current | ⟨state, behind, -⟩
          · exact (announced entry current).1.symm
          · rw [entry.1] at behind
            rw [← (List.append_inj' behind rfl).1, recordedRows_ownWord]
      | committing batch =>
          obtain ⟨-, entry, settled⟩ := ongoing
          have current := kept.resolve_right (by simp [Process.Saving])
          exact .inl (by rw [rowsCommitted_eq, settled.2, (announced entry current).1])
      | requested batch =>
          obtain ⟨-, entry, outstanding⟩ := ongoing
          obtain ⟨recorded, last⟩ := announced entry (kept.resolve_right (by simp [Process.Saving]))
          exact outstanding.bracketed recorded ⟨_, .inl last⟩
      | savingCommitted =>
          obtain ⟨shown, -, applied, outstanding⟩ := ongoing
          rcases kept with current | ⟨state, behind, -⟩
          · obtain ⟨-, -, status, request, count⟩ := outstanding
            rw [applied, Option.some.injEq, Request.mk.injEq] at request
            obtain ⟨-, rfl⟩ := request
            exact .inl (by simp [rowsCommitted_eq, current, shown, count])
          · have split : ownWord sizes ++ [.committing (sizes.length + 1)] ++
                [.batchCommitted (sizes.length + 1) rows.length] = stored.states ++ [state] := by
              rw [← behind, shown, ownWord_snoc, List.append_assoc]
              rfl
            have before := (List.append_inj' split rfl).1.symm
            apply outstanding.bracketed
            · rw [before, recordedRows_append, recordedRows_ownWord]
              rfl
            · exact ⟨_, .inl (lastOwn_of_states before rfl)⟩
      | returned result =>
          have current := kept.resolve_right (by simp [Process.Saving])
          cases result with
          | ok value =>
              obtain ⟨shown, -, applied, -, -, status, request, count⟩ := ongoing
              rw [applied, Option.some.injEq, Request.mk.injEq] at request
              obtain ⟨-, rfl⟩ := request
              exact .inl (by simp [rowsCommitted_eq, current, shown, count])
          | error error =>
              obtain ⟨recorded, last⟩ := announced ongoing.1 current
              exact ongoing.2.bracketed recorded ⟨_, .inl last⟩
  | returned failure =>
      have current := kept.resolve_right (by simp [Process.Saving])
      cases failure with
      | none => exact quiet ongoing current
      | some error =>
          obtain ⟨recorded, last⟩ := announced ongoing.1 current
          exact ongoing.2.bracketed recorded ⟨_, .inl last⟩

theorem Over.bracketed (finished : Over run states landed)
    (kept : stored.states = states ∨ ∃ state, states = stored.states ++ [state]) :
    Bracketed run stored landed := by
  obtain ⟨sizes, ⟨terminal, shown, accepted, settled⟩ | ⟨shown, unresolved⟩⟩ := finished
  · apply Or.inl
    rw [rowsCommitted_eq, settled.2]
    rcases kept with current | ⟨state, behind⟩
    · rw [current, shown, recordedRows_append, recordedRows_ownWord]
      rcases accepted with rfl | ⟨failed, rfl⟩ <;> rfl
    · rw [shown] at behind
      rw [← (List.append_inj' behind rfl).1, recordedRows_ownWord]
  · have split : states = ownWord sizes ++ [.committing (sizes.length + 1)] ++
        [.commitFailed (sizes.length + 1)] := by
      rw [shown, List.append_assoc]
      rfl
    rcases kept with current | ⟨state, behind⟩
    · apply unresolved.bracketed
      · rw [current, shown, recordedRows_append, recordedRows_ownWord]
        rfl
      · exact ⟨_, .inr (lastOwn_of_states (current.trans split) rfl)⟩
    · rw [split] at behind
      have before := (List.append_inj' behind rfl).1.symm
      apply unresolved.bracketed
      · rw [before, recordedRows_append, recordedRows_ownWord]
        rfl
      · exact ⟨_, .inl (lastOwn_of_states before rfl)⟩

theorem Chronicle.bracketed (chronicle : Chronicle run states landed)
    (kept : stored.states = states ∨ ∃ state, states = stored.states ++ [state] ∧
      (Process.Saving run.pipe.writer ∨ state.isTerminal = true)) :
    Bracketed run stored landed := by
  rcases chronicle with ⟨-, ongoing⟩ | ⟨-, finished⟩
  · apply ongoing.bracketed
    refine kept.imp_right ?_
    rintro ⟨state, behind, saving | terminal⟩
    · exact ⟨state, behind, saving⟩
    · have plain := ongoing.not_terminal state (by simp [behind])
      simp [terminal] at plain
  · apply finished.bracketed
    exact kept.imp_right fun ⟨state, behind, _⟩ => ⟨state, behind⟩

theorem Bracketed.recorded_le (bracketed : Bracketed run stored landed) :
    stored.rowsCommitted ≤ landed := by
  rcases bracketed with equal | ⟨request, -, -, -, count, -⟩
  · exact Nat.le_of_eq equal.symm
  · rw [count]
    exact Nat.le_add_right _ _

end Gap

namespace Process

section Runs

variable {deployment : Deployment} {plan : RunPlan} {world : World}
  {actions : List ProcessAction} {final : Process}

theorem foreign_of_exec (unused : Unused plan.runId world)
    (exec : (machine deployment).exec ⟨world, Run.start plan⟩ actions = some final) :
    Foreign final := by
  refine (machine deployment).exec_invariant Foreign ?_
    (fun _ _ _ foreign stepped => (Step.of_step stepped).foreign foreign) exec
  refine ⟨?_, fun _ => unused.unnamed⟩
  simp only [Run.predecessors, Run.start]
  cases plan.mode.isConnected <;> simp

theorem storedPrefix_of_exec (unused : Unused plan.runId world)
    (exec : (machine deployment).exec ⟨world, Run.start plan⟩ actions = some final) :
    StoredPrefix final := by
  refine (machine deployment).exec_induction
    (motive := fun _ process => StoredPrefix process) ?_ ?_ exec
  · refine ⟨fun _ => unused.unstored, ?_⟩
    simp [Run.start, unused.unstored]
  · intro actions middle action next before kept stepped
    exact (Step.of_step stepped).storedPrefix (fresh_of_exec before)
      (foreign_of_exec unused before) kept

theorem chronicled_of_exec (unused : Unused plan.runId world)
    (exec : (machine deployment).exec ⟨world, Run.start plan⟩ actions = some final) :
    Chronicled final.run (rowsOf final.world.catalog plan.runId) := by
  refine (machine deployment).exec_induction (motive := fun _ (process : Process) =>
    Chronicled process.run (rowsOf process.world.catalog plan.runId)) ?_ ?_ exec
  · exact ⟨rfl, unused.unlanded⟩
  · intro actions middle action next before chronicled stepped
    have taken := Step.of_step stepped
    have built := built_of_exec before
    have count : rowsOf next.world.catalog plan.runId =
        rowsOf middle.world.catalog plan.runId + (middle.landing action).length := by
      rw [taken.catalog_eq, ← rowsOf_landing built, plan_of_exec before]
      exact List.countP_append
    rw [count]
    exact taken.chronicled (fresh_of_exec before) (pipelineReached_of_exec before) built.call
      chronicled

theorem persisted_of_exec (unused : Unused plan.runId world)
    (exec : (machine deployment).exec ⟨world, Run.start plan⟩ actions = some final)
    (reliable : ∀ action ∈ actions, ¬ recordFails action) : Persisted final := by
  have tracked := (machine deployment).exec_induction
    (motive := fun actions process => (∀ action ∈ actions, ¬ recordFails action) →
      Persisted process) ?_ ?_ exec
  · exact tracked reliable
  · rintro - journal recorded
    cases recorded
  · intro actions middle action next before persisted stepped saved
    have earlier : ∀ action ∈ actions, ¬ recordFails action :=
      fun action member => saved action (List.mem_append_left _ member)
    exact (Step.of_step stepped).persisted (fresh_of_exec before) (foreign_of_exec unused before)
      (chronicled_of_exec unused before) (saved action (by simp)) (persisted earlier)

theorem isOpen_of_storedPrefix {process : Process} {landed : Nat} {stored : RunJournal}
    (kept : StoredPrefix process) (chronicled : Chronicled process.run landed)
    (found : process.world.journals.lookup process.run.plan.runId = some stored)
    (completed : .completed ∉ stored.states)
    (incomplete : ∀ failed, .incomplete failed ∉ stored.states) : stored.isOpen = true := by
  have plain : ∀ state ∈ stored.states, state.isClosure = false := by
    intro state member
    unfold StoredPrefix at kept
    cases recorded : process.run.journal with
    | none =>
        simp only [recorded] at kept
        rw [kept.2 stored found, List.mem_singleton] at member
        rw [member]
        rfl
    | some journal =>
        simp only [recorded] at kept
        simp only [Chronicled, recorded] at chronicled
        obtain ⟨-, other, there, -, before⟩ := kept
        rw [found, Option.some.injEq] at there
        subst there
        apply chronicled.2.2.ownStates.not_closure
        exact (before.map Transition.state).subset member
  have last : stored.lastOwn = .started ∨ stored.lastOwn ∈ stored.states := by
    unfold RunJournal.lastOwn
    cases own : stored.states.reverse.find? fun state => !state.isClosure with
    | none => exact .inl rfl
    | some state => exact .inr (List.mem_reverse.mp (List.mem_of_find?_eq_some own))
  apply RunJournal.isOpen_iff.mpr
  refine ⟨?_, ?_, ?_⟩
  · rw [RunJournal.isClosed, List.any_eq_false]
    intro state member
    simp [plain state member]
  · intro same
    rw [same] at last
    exact completed (last.resolve_left (by simp))
  · intro failed same
    rw [same] at last
    exact incomplete failed (last.resolve_left (by simp))

end Runs

end Process

/-- Wherever a writing run is cut off: its stored journal is a nonempty prefix
of what it recorded in memory and claims no row that the catalog lacks; unless
a save failed, the catalog is at most one announced batch ahead; and the journal
is open unless it says that the run completed or was incomplete. -/
theorem stored_journal_brackets_the_catalog
    {deployment : Deployment} {plan : RunPlan} {world : World} {actions : List ProcessAction}
    {final : Process} (unused : Unused plan.runId world)
    (exec : (Process.machine deployment).exec ⟨world, Run.start plan⟩ actions = some final) :
    (∀ journal, final.run.journal = some journal →
        ∃ stored, final.world.journals.lookup plan.runId = some stored ∧
          stored.history ≠ [] ∧ stored.history <+: journal.history) ∧
      (∀ stored, final.world.journals.lookup plan.runId = some stored →
        stored.rowsCommitted ≤ rowsOf final.world.catalog plan.runId) ∧
      ((∀ action ∈ actions, ¬ Process.recordFails action) →
        ∀ stored, final.world.journals.lookup plan.runId = some stored →
          rowsOf final.world.catalog plan.runId = stored.rowsCommitted ∨
          ∃ request, final.run.request = some request ∧ request.rows ≠ [] ∧
            request.rows.length ≤ plan.pipeline.batchSize ∧
            rowsOf final.world.catalog plan.runId =
              stored.rowsCommitted + request.rows.length ∧
            ∃ batch, stored.lastOwn = .committing batch ∨
              stored.lastOwn = .commitFailed batch) ∧
      (∀ stored, final.world.journals.lookup plan.runId = some stored →
        .completed ∉ stored.states → (∀ failed, .incomplete failed ∉ stored.states) →
        stored.isOpen = true) := by
  obtain rfl := Process.plan_of_exec exec
  have kept := Process.storedPrefix_of_exec unused exec
  have chronicled := Process.chronicled_of_exec unused exec
  refine ⟨?_, ?_, ?_, ?_⟩
  · intro journal recorded
    simp only [Process.StoredPrefix, recorded] at kept
    exact kept.2
  · intro stored found
    unfold Process.StoredPrefix at kept
    unfold Process.Chronicled at chronicled
    cases recorded : final.run.journal with
    | none =>
        simp only [recorded] at kept
        rw [rowsCommitted_eq, kept.2 stored found]
        exact Nat.zero_le _
    | some journal =>
        simp only [recorded] at kept chronicled
        obtain ⟨-, other, there, -, before⟩ := kept
        rw [found, Option.some.injEq] at there
        subst there
        have bracketed := chronicled.2.2.bracketed (.inl rfl)
        calc stored.rowsCommitted ≤ journal.rowsCommitted :=
              RunJournal.rowsCommitted_le_of_prefix before
          _ ≤ rowsOf final.world.catalog final.run.plan.runId := bracketed.recorded_le
  · intro reliable stored found
    unfold Process.StoredPrefix at kept
    unfold Process.Chronicled at chronicled
    cases recorded : final.run.journal with
    | none =>
        simp only [recorded] at kept chronicled
        apply Or.inl
        rw [rowsCommitted_eq, kept.2 stored found, chronicled.2]
        rfl
    | some journal =>
        simp only [recorded] at chronicled
        obtain ⟨other, there, current⟩ :=
          Process.persisted_of_exec unused exec reliable journal recorded
        rw [found, Option.some.injEq] at there
        subst there
        exact chronicled.2.2.bracketed current
  · intro stored found completed incomplete
    exact Process.isOpen_of_storedPrefix kept chronicled found completed incomplete

/-- Killed between the catalog applying the batch and learning of it. -/
theorem stored_journal_brackets_the_catalog_killed :
    ∃ final stored request, (Process.machine sampleDeployment).exec
        ⟨sampleWorld, Run.start (samplePlan 1)⟩
        (oneFileSchedule 1 1000000 ++ requestSchedule 1000000 ++ [.land, .kill]) = some final ∧
      final.world.journals.lookup (samplePlan 1).runId = some stored ∧
      final.run.request = some request ∧ rowsOf final.world.catalog 1 = 1 ∧
      rowsOf final.world.catalog 1 = stored.rowsCommitted + request.rows.length ∧
      stored.isOpen = true := by
  obtain ⟨final, run, shown⟩ := Option.map_eq_some_iff.mp (show
    ((Process.machine sampleDeployment).exec ⟨sampleWorld, Run.start (samplePlan 1)⟩
      (oneFileSchedule 1 1000000 ++ requestSchedule 1000000 ++ [.land, .kill])).map (fun final =>
        (rowsOf final.world.catalog 1,
          (final.world.journals.lookup (samplePlan 1).runId).map RunJournal.states)) =
      some (1, some [.started, .committing 1]) by decide +kernel)
  obtain ⟨landed, journal⟩ := Prod.mk.injEq .. ▸ shown
  obtain ⟨stored, found, states⟩ := Option.map_eq_some_iff.mp journal
  have unused : Unused (samplePlan 1).runId sampleWorld := ⟨rfl, by simp [sampleWorld], rfl⟩
  have committed : stored.rowsCommitted = 0 := by
    rw [rowsCommitted_eq, states]
    rfl
  obtain ⟨-, -, bracketed, opened⟩ := stored_journal_brackets_the_catalog unused run
  have gap := bracketed (by simp [oneFileSchedule, prologueSchedule, hashSchedule, uploadSchedule,
    deliverSchedule, requestSchedule, Process.recordFails]) stored found
  rcases gap with equal | ⟨request, sent, -, -, count, -⟩
  · rw [committed] at equal
    exact absurd (landed.symm.trans equal) (by decide)
  · exact ⟨final, stored, request, run, found, sent, landed, count,
      opened stored found (by simp [states]) (by simp [states])⟩

end AntiEntropator.Ingest
