import AntiEntropator.GuardedMachine.Projection
import AntiEntropator.Ingest.Run.Batches
import AntiEntropator.Ingest.Run.FailedStart
import AntiEntropator.Ingest.Run.Outcomes
import AntiEntropator.Ingest.System.Protocol
import AntiEntropator.StableSort

/-!
# Sources do not see each other

A run is what it would be in a world that holds nothing but the rows and the
journals of its source, and it leaves those of other sources as they are.
-/

namespace AntiEntropator.Ingest

open Lakehouse

/-! ## What belongs to a source -/

def ownRows (catalog : List CatalogRow) (sourceId : String) : List CatalogRow :=
  catalog.filter fun row => row.sourceId = some sourceId

/-- The rows of other sources, and those of none. -/
def foreignRows (catalog : List CatalogRow) (sourceId : String) : List CatalogRow :=
  catalog.filter fun row => row.sourceId ≠ some sourceId

def ownJournals (store : JournalStore) (sourceId : String) : JournalStore where
  entries := store.entries.filter fun entry => entry.2.sourceId = sourceId
  nodupKeys := store.nodupKeys.sublist List.filter_sublist

section Own

variable {store : JournalStore} {sourceId : String}

theorem lookup_eq_some_iff {id : Uuid} {journal : RunJournal} :
    store.lookup id = some journal ↔ ⟨id, journal⟩ ∈ store.entries :=
  List.mem_dlookup_iff store.nodupKeys

theorem lookup_ownJournals (id : Uuid) :
    (ownJournals store sourceId).lookup id =
      (store.lookup id).filter fun journal => journal.sourceId = sourceId := by
  ext journal
  rw [lookup_eq_some_iff, Option.filter_eq_some_iff, lookup_eq_some_iff]
  exact List.mem_filter

theorem keys_ownJournals : (ownJournals store sourceId).keys =
    store.keys.filter fun id =>
      (store.lookup id).any fun journal => journal.sourceId = sourceId := by
  have matched : ∀ entry ∈ store.entries,
      Decidable.decide (entry.2.sourceId = sourceId) =
        (store.lookup entry.1).any fun journal => journal.sourceId = sourceId := by
    rintro ⟨id, journal⟩ member
    rw [lookup_eq_some_iff.mpr member, Option.any_some]
  change (store.entries.filter _).map Sigma.fst = (store.entries.map Sigma.fst).filter _
  rw [List.filter_map, List.filter_congr matched]
  rfl

theorem kerase_filter (keep : (Σ _ : Uuid, RunJournal) → Bool) (id : Uuid)
    (entries : List (Σ _ : Uuid, RunJournal)) (distinct : entries.NodupKeys) :
    (entries.kerase id).filter keep = (entries.filter keep).kerase id := by
  induction entries with
  | nil => rfl
  | cons entry entries inductionHypothesis =>
      rw [List.nodupKeys_cons] at distinct
      obtain ⟨first, rest⟩ := distinct
      by_cases same : id = entry.1
      · rw [List.kerase_cons_eq same, List.filter_cons]
        split
        next => rw [List.kerase_cons_eq same]
        next =>
          rw [List.kerase_of_notMem_keys]
          intro member
          rw [same] at member
          exact first ((List.filter_sublist.map Sigma.fst).subset member)
      · rw [List.kerase_cons_ne same, List.filter_cons, List.filter_cons]
        split
        next => rw [List.kerase_cons_ne same, inductionHypothesis rest]
        next => exact inductionHypothesis rest

theorem ownJournals_insert {journal : RunJournal} (own : journal.sourceId = sourceId) :
    ownJournals (store.insert journal.runId journal) sourceId =
      (ownJournals store sourceId).insert journal.runId journal := by
  apply AList.ext
  simp only [ownJournals, AList.entries_insert]
  rw [List.filter_cons_of_pos (by simpa using own), kerase_filter _ _ _ store.nodupKeys]

end Own

theorem loadCurrentState_filter {keep : CatalogRow → Bool} {sourceId : String}
    (kept : ∀ row, row.sourceId = some sourceId → keep row = true) (catalog : List CatalogRow) :
    loadCurrentState (catalog.filter keep) sourceId = loadCurrentState catalog sourceId := by
  have same : observationRows (catalog.filter keep) sourceId =
      observationRows catalog sourceId := by
    rw [observationRows, observationRows, List.filterMap_filter]
    congr 1
    funext row
    by_cases own : row.sourceId = some sourceId
    · rw [if_pos (kept row own)]
    · simp [own, observationRow?]
  rw [loadCurrentState, same]
  rfl

theorem loadCurrentState_ownRows (catalog : List CatalogRow) (sourceId : String) :
    loadCurrentState (ownRows catalog sourceId) sourceId = loadCurrentState catalog sourceId :=
  loadCurrentState_filter (fun _ own => decide_eq_true own) catalog

theorem loadCurrentState_foreignRows {sourceId other : String} (different : other ≠ sourceId)
    (catalog : List CatalogRow) :
    loadCurrentState (foreignRows catalog sourceId) other = loadCurrentState catalog other :=
  loadCurrentState_filter (fun row own => by simp [own, different]) catalog

theorem countRowsForRun_ownRows (catalog : List CatalogRow) (sourceId : String) (runId : Uuid) :
    countRowsForRun (ownRows catalog sourceId) sourceId runId =
      countRowsForRun catalog sourceId runId := by
  rw [countRowsForRun, countRowsForRun, ownRows, List.countP_filter]
  congr 1
  funext row
  by_cases own : row.sourceId = some sourceId <;> simp [own]

theorem openRunsFor_own (journals : List RunJournal) (sourceId : String) :
    openRunsFor (journals.filter fun journal => journal.sourceId = sourceId) sourceId =
      openRunsFor journals sourceId := by
  unfold openRunsFor newestFirst
  rw [← StableSort.filter_mergeSort, List.filter_filter]
  · congr 1
    funext journal
    by_cases own : journal.sourceId = sourceId <;> simp [own]
  · intro first second third older oldest
    simp only [decide_eq_true_eq] at older oldest ⊢
    exact oldest.trans older
  · intro first second
    simp [le_total]

/-! ## A run in the world of its source -/

def World.ownedBy (world : World) (sourceId : String) : World :=
  { world with
    journals := ownJournals world.journals sourceId
    catalog := ownRows world.catalog sourceId }

/-- Listed journals of other sources are passed over. -/
def RunPhase.ownedBy (store : JournalStore) (sourceId : String) : RunPhase → RunPhase
  | .loading ids loaded => .loading
      (ids.filter fun id => (store.lookup id).any fun journal => journal.sourceId = sourceId)
      (loaded.filter fun journal => journal.sourceId = sourceId)
  | phase => phase

namespace Process

/-- The process as if nothing but its source existed. -/
def ownedBy (process : Process) (sourceId : String) : Process where
  world := process.world.ownedBy sourceId
  run := { process.run with phase := process.run.phase.ownedBy process.world.journals sourceId }

/-- The action reads, or fails to read, a journal that is not of the source. -/
def readsForeign (sourceId : String) (process : Process) : ProcessAction → Bool
  | .prologue .load | .prologue .loadFailed =>
      match process.run.phase with
      | .loading (id :: _) _ =>
          !(process.world.journals.lookup id).any fun journal => journal.sourceId = sourceId
      | _ => false
  | _ => false

def ownActions (sourceId : String) (process : Process) (action : ProcessAction) :
    List ProcessAction :=
  if process.readsForeign sourceId action then [] else [action]

section OwnedBy

variable {deployment : Deployment} {process next : Process} {sourceId : String}

theorem exec_ownActions {action : ProcessAction}
    (visible : process.readsForeign sourceId action = false)
    (stepped : (process.ownedBy sourceId).step deployment action =
      some (next.ownedBy sourceId)) :
    (machine deployment).exec (process.ownedBy sourceId) (process.ownActions sourceId action) =
      some (next.ownedBy sourceId) := by
  rw [ownActions, visible]
  exact (machine deployment).exec_cons_eq_some_iff.mpr ⟨_, stepped, rfl⟩

theorem ownedBy_eq (other : ∀ ids loaded, process.run.phase ≠ .loading ids loaded) :
    process.ownedBy sourceId = ⟨process.world.ownedBy sourceId, process.run⟩ := by
  have same : process.run.phase.ownedBy process.world.journals sourceId = process.run.phase := by
    cases phase : process.run.phase with
    | loading ids loaded => exact (other ids loaded phase).elim
    | _ => rfl
  rw [ownedBy, same]

theorem ownedBy_save {world : World} {journal : RunJournal} (own : journal.sourceId = sourceId) :
    (world.save journal).ownedBy sourceId = (world.ownedBy sourceId).save journal := by
  simp only [World.ownedBy, World.save, ownJournals_insert own]

theorem ownedBy_saveIf {world : World} {journal : RunJournal} (landed : Bool)
    (own : landed = true → journal.sourceId = sourceId) :
    (world.saveIf landed journal).ownedBy sourceId =
      (world.ownedBy sourceId).saveIf landed journal := by
  cases landed with
  | false => rfl
  | true => exact ownedBy_save (own rfl)

theorem prologue_ownedBy {action : PrologueAction} (own : process.run.plan.sourceId = sourceId)
    (kindred : ∀ journal ∈ process.written (.prologue action), journal.sourceId = sourceId)
    (visible : process.readsForeign sourceId (.prologue action) = false)
    (stepped : process.prologue action = some next) :
    (process.ownedBy sourceId).prologue action = some (next.ownedBy sourceId) := by
  unfold prologue at stepped
  split at stepped
  next stage phase =>
    cases stepped
    cases stage <;> simp [prologue, Process.ownedBy, RunPhase.ownedBy, phase, proceed, setPhase]
  next stage error phase =>
    cases stepped
    simp [prologue, Process.ownedBy, RunPhase.ownedBy, phase, fail, setPhase]
  next phase =>
    cases stepped
    simp [prologue, Process.ownedBy, RunPhase.ownedBy, phase, World.ownedBy, own,
      loadCurrentState_ownRows]
  next error phase =>
    cases stepped
    simp [prologue, Process.ownedBy, RunPhase.ownedBy, phase, fail, setPhase]
  next phase =>
    cases stepped
    simp [prologue, Process.ownedBy, RunPhase.ownedBy, phase, World.ownedBy, setPhase,
      keys_ownJournals]
  next error phase =>
    cases stepped
    simp [prologue, Process.ownedBy, RunPhase.ownedBy, phase, fail, setPhase]
  next id ids loaded phase =>
    split at stepped
    next journal found =>
      cases stepped
      have named : journal.sourceId = sourceId := by
        simpa [readsForeign, phase, found] using visible
      have read : (ownJournals process.world.journals sourceId).lookup id = some journal := by
        rw [lookup_ownJournals, found, Option.filter_some, if_pos (by simpa using named)]
      simp [prologue, Process.ownedBy, RunPhase.ownedBy, phase, World.ownedBy, setPhase, found,
        named, read]
    next => cases stepped
  next id ids loaded phase =>
    cases stepped
    have named : ((process.world.journals.lookup id).any
        fun journal => journal.sourceId = sourceId) = true := by
      simpa [readsForeign, phase] using visible
    simp [prologue, Process.ownedBy, RunPhase.ownedBy, phase, setPhase, named]
  next loaded phase =>
    cases stepped
    simp [prologue, Process.ownedBy, RunPhase.ownedBy, phase, report, own, openRunsFor_own]
    split <;> simp [setPhase]
  next journal remaining done now phase =>
    cases stepped
    simp [prologue, Process.ownedBy, RunPhase.ownedBy, phase, World.ownedBy, setPhase, own,
      countRowsForRun_ownRows]
  next error phase =>
    cases stepped
    simp [prologue, Process.ownedBy, RunPhase.ownedBy, phase, fail, setPhase]
  next journal remaining done phase =>
    cases stepped
    have named := kindred journal (by simp [written, phase])
    simp [prologue, Process.ownedBy, RunPhase.ownedBy, phase, setPhase, ownedBy_save named]
  next journal remaining done landed error phase =>
    cases stepped
    have named : landed = true → journal.sourceId = sourceId := by
      rintro rfl
      exact kindred journal (by simp [written, phase])
    simp [prologue, Process.ownedBy, RunPhase.ownedBy, phase, fail, setPhase,
      ownedBy_saveIf _ named]
  next done phase =>
    cases stepped
    simp [prologue, Process.ownedBy, RunPhase.ownedBy, phase]
  next files phase =>
    split at stepped
    next candidates =>
      cases stepped
      simp only [prologue, Process.ownedBy, RunPhase.ownedBy, phase, if_pos candidates, collected]
      split
      · rfl
      · cases process.run.plan.mode.writes <;> rfl
    next => cases stepped
  next error phase =>
    cases stepped
    simp [prologue, Process.ownedBy, RunPhase.ownedBy, phase, fail, setPhase]
  next now phase =>
    cases stepped
    have named : (newJournal process.run now).sourceId = sourceId := own
    rw [ownedBy_eq (by simp [phase]), ownedBy_eq (by simp), ownedBy_save named]
    simp only [prologue, phase]
  next now landed error phase =>
    cases stepped
    have named : (newJournal process.run now).sourceId = sourceId := own
    rw [ownedBy_eq (by simp [phase]), ownedBy_eq (by simp [fail, setPhase]),
      ownedBy_saveIf landed fun _ => named]
    simp only [prologue, phase]
    rfl
  next => cases stepped

theorem commit_ownedBy {rows : List FileInfo} {call : CommitCall} {tail : Bool}
    {journal : RunJournal} {action : CommitAction} (own : journal.sourceId = sourceId)
    (ingesting : process.run.phase = .ingesting)
    (committing : process.run.pipe.writer = .committing rows call tail)
    (stepped : process.commit call journal action = some next) :
    (process.ownedBy sourceId).commit call journal action = some (next.ownedBy sourceId) := by
  have taken := CommitStep.of_step committing stepped
  rw [ownedBy_eq (by simp [ingesting]), ownedBy_eq (by simp [taken.frame, ingesting])]
  cases taken with
  | enter phase => simp [commit, phase, setCall, committing, withCall, setPipe]
  | savedCommitting phase =>
      simp [commit, phase, setCall, committing, withCall, setPipe, ownedBy_save own]
  | committingUnsaved phase =>
      simp [commit, phase, setCall, committing, withCall, setPipe, ownedBy_saveIf _ fun _ => own]
  | innerFailed phase => simp [commit, phase, setCall, committing, withCall, setPipe]
  | request phase => simp [commit, phase, setCall, committing, withCall, setPipe]
  | acknowledged phase applied =>
      simp [commit, phase, applied, setCall, committing, withCall, setPipe]
  | requestFailed phase => simp [commit, phase, setCall, committing, withCall, setPipe]
  | savedCommitted phase =>
      simp [commit, phase, setCall, committing, withCall, setPipe, ownedBy_save own]
  | committedUnsaved phase =>
      simp [commit, phase, setCall, committing, withCall, setPipe, ownedBy_saveIf _ fun _ => own]

theorem ingest_ownedBy {action : IngestAction}
    (own : ∀ journal, process.run.journal = some journal → journal.sourceId = sourceId)
    (stepped : process.ingest deployment action = some next) :
    (process.ownedBy sourceId).ingest deployment action = some (next.ownedBy sourceId) := by
  unfold ingest at stepped
  split at stepped
  next inner phase =>
    split at stepped
    next allowed =>
      obtain ⟨pipe, taken, rfl⟩ := Option.map_eq_some_iff.mp stepped
      rw [ownedBy_eq (by simp [phase]), ownedBy_eq (by simp [setPipe, phase])]
      simp [ingest, phase, allowed, taken, setPipe]
    next => cases stepped
  next index inner phase =>
    split at stepped
    next path task found =>
      obtain ⟨⟨blobs, task'⟩, taken, rfl⟩ := Option.map_eq_some_iff.mp stepped
      rw [ownedBy_eq (by simp [phase]), ownedBy_eq (by simp [setPipe, phase])]
      have taken' : task.step deployment process.run.context (process.world.ownedBy sourceId).files
          (process.world.ownedBy sourceId).blobs inner = some (blobs, task') := taken
      simp only [ingest, phase, found]
      rw [show Run.context process.run = process.run.context from rfl, taken']
      rfl
    next => cases stepped
  next inner phase =>
    split at stepped
    next rows call tail journal committing recorded =>
      rw [← commit_ownedBy (own journal recorded) phase committing stepped,
        ownedBy_eq (by simp [phase])]
      simp [ingest, phase, committing, recorded]
    next => cases stepped
  next => cases stepped

theorem epilogue_ownedBy {action : EpilogueAction}
    (kindred : ∀ journal ∈ process.written (.epilogue action), journal.sourceId = sourceId)
    (stepped : process.epilogue action = some next) :
    (process.ownedBy sourceId).epilogue action = some (next.ownedBy sourceId) := by
  unfold epilogue at stepped
  split at stepped
  next now phase =>
    split at stepped
    next report reported =>
      simp only at stepped
      split at stepped
      next journal recorded =>
        cases stepped
        rw [ownedBy_eq (by simp [phase]), ownedBy_eq (by simp)]
        simp [epilogue, phase, reported, recorded]
      next preview =>
        cases stepped
        rw [ownedBy_eq (by simp [phase]), ownedBy_eq (by simp [setPhase])]
        simp [epilogue, phase, reported, preview, setPhase]
    next => cases stepped
  next conclusion phase =>
    split at stepped
    next journal recorded =>
      cases stepped
      have named := kindred journal (by simp [written, recorded])
      rw [ownedBy_eq (by simp [phase]), ownedBy_eq (by simp [setPhase]; split <;> simp),
        ownedBy_save named]
      simp [epilogue, phase, recorded, setPhase]
    next => cases stepped
  next conclusion landed phase =>
    split at stepped
    next journal recorded =>
      cases stepped
      have named : landed = true → journal.sourceId = sourceId := by
        rintro rfl
        exact kindred journal (by simp [written, recorded])
      rw [ownedBy_eq (by simp [phase]), ownedBy_eq (by simp [setPhase]; split <;> simp),
        ownedBy_saveIf landed named]
      simp [epilogue, phase, recorded, setPhase]
    next => cases stepped
  next journal remaining conclusion now phase =>
    cases stepped
    have named := kindred (journal.push (.supersededBy process.run.plan.runId) now)
      (by simp [written, phase])
    rw [ownedBy_eq (by simp [phase]), ownedBy_eq (by simp [setPhase]), ownedBy_save named]
    simp [epilogue, phase, setPhase]
  next journal remaining conclusion now landed phase =>
    cases stepped
    have named : landed = true →
        (journal.push (.supersededBy process.run.plan.runId) now).sourceId = sourceId := by
      rintro rfl
      exact kindred _ (by simp [written, phase])
    rw [ownedBy_eq (by simp [phase]), ownedBy_eq (by simp [setPhase]), ownedBy_saveIf landed named]
    simp [epilogue, phase, setPhase]
  next conclusion phase =>
    cases stepped
    rw [ownedBy_eq (by simp [phase]), ownedBy_eq (by simp [setPhase])]
    simp [epilogue, phase, setPhase]
  next => cases stepped

theorem sourceId_of_landing {times : List DateTime} (built : process.run.Built deployment times)
    (action : ProcessAction) :
    ∀ row ∈ process.landing action, row.sourceId = some process.run.plan.sourceId := by
  unfold landing
  split
  · split
    next rows flying =>
      obtain ⟨batch, same, each⟩ := built.request _ flying
      intro row member
      rw [show rows = filesToBatch batch from same] at member
      obtain ⟨info, inside, rfl⟩ := List.mem_map.mp member
      obtain ⟨path, -, hash, relativePath, observes, -⟩ := each info inside
      exact observes.sourceId
    next => simp
  · simp

theorem step_ownedBy {times : List DateTime} {action : ProcessAction}
    (own : process.run.plan.sourceId = sourceId)
    (recorded : ∀ journal, process.run.journal = some journal → journal.sourceId = sourceId)
    (kindred : ∀ journal ∈ process.written action, journal.sourceId = sourceId)
    (built : process.run.Built deployment times)
    (visible : process.readsForeign sourceId action = false)
    (stepped : process.step deployment action = some next) :
    (process.ownedBy sourceId).step deployment action = some (next.ownedBy sourceId) := by
  cases action with
  | prologue action => exact prologue_ownedBy own kindred visible stepped
  | ingest action => exact ingest_ownedBy recorded stepped
  | epilogue action => exact epilogue_ownedBy kindred stepped
  | kill =>
      simp only [step] at stepped ⊢
      split at stepped
      next alive =>
        cases stepped
        have alive' : (process.ownedBy sourceId).alive = true := by
          unfold Process.alive at alive ⊢
          cases phase : process.run.phase <;>
            simp [Process.ownedBy, RunPhase.ownedBy, phase] at alive ⊢
        rw [if_pos alive']
        rfl
      next => cases stepped
  | land =>
      simp only [step] at stepped
      split at stepped
      next rows flying =>
        cases stepped
        have same : ownRows rows sourceId = rows := by
          apply List.filter_eq_self.mpr
          intro row member
          have inside : row ∈ process.landing .land := by simpa [landing, flying] using member
          simpa [own] using sourceId_of_landing built .land row inside
        have grown : ownRows (process.world.catalog ++ rows) sourceId =
            ownRows process.world.catalog sourceId ++ rows := by
          rw [ownRows, List.filter_append]
          exact congrArg _ same
        simp only [step, Process.ownedBy, World.ownedBy, flying, grown]
      next => cases stepped
  | lose =>
      simp only [step] at stepped
      split at stepped
      next rows flying =>
        cases stepped
        simp only [step, Process.ownedBy, flying]
      next => cases stepped
  | edit path contents =>
      cases stepped
      rfl

/-- A journal of another source comes and goes unseen. -/
theorem ownedBy_of_readsForeign {action : ProcessAction}
    (foreign : process.readsForeign sourceId action = true)
    (stepped : process.step deployment action = some next) :
    next.ownedBy sourceId = process.ownedBy sourceId := by
  unfold readsForeign at foreign
  split at foreign
  next =>
    split at foreign
    next id ids loaded phase =>
      simp only [step, prologue, phase] at stepped
      split at stepped
      next journal found =>
        cases stepped
        simp only [found, Option.any_some, Bool.not_eq_true'] at foreign
        simp [Process.ownedBy, RunPhase.ownedBy, setPhase, phase, found, foreign]
      next => cases stepped
    next => cases foreign
  next =>
    split at foreign
    next id ids loaded phase =>
      simp only [step, prologue, phase, Option.some.injEq] at stepped
      subst stepped
      simp only [Bool.not_eq_true'] at foreign
      simp [Process.ownedBy, RunPhase.ownedBy, setPhase, phase, foreign]
    next => cases foreign
  next => cases foreign

end OwnedBy

/-! ## The journals in a run's hands -/

end Process

/-- The run's own journal, and those of its source that it has read. -/
def Run.inHand (run : Run) : List RunJournal :=
  run.journal.toList ++ run.openRuns ++
    match run.phase with
    | .loading _ loaded => loaded.filter fun journal => journal.sourceId == run.plan.sourceId
    | .reconciling remaining done => remaining ++ done
    | .closing journal remaining done => journal :: (remaining ++ done)
    | .superseding remaining _ => remaining
    | _ => []

namespace Process

section InHand

variable {deployment : Deployment} {process next : Process} {Good : RunJournal → Prop}

theorem PrologueStep.inHand {action : PrologueAction}
    (read : ∀ id journal, process.world.journals.lookup id = some journal →
      journal.sourceId = process.run.plan.sourceId → Good journal)
    (begun : ∀ now, Good (newJournal process.run now))
    (pushed : ∀ journal state now, Good journal → Good (journal.push state now))
    (good : ∀ journal ∈ process.run.inHand, Good journal)
    (stepped : PrologueStep process action next) : ∀ journal ∈ next.run.inHand, Good journal := by
  have kept : ∀ journal ∈ process.run.journal.toList ++ process.run.openRuns, Good journal :=
    fun journal member => good journal (List.mem_append_left _ member)
  cases stepped with
  | @proceed stage phase => cases stage <;> simpa [Run.inHand, Process.proceed, setPhase] using kept
  | failed => simpa [Run.inHand, fail, setPhase] using kept
  | loadState => simpa [Run.inHand] using kept
  | list => simpa [Run.inHand, setPhase] using kept
  | @load id ids loaded journal phase found =>
      intro other member
      simp only [Run.inHand, setPhase, List.mem_append, List.mem_filter, List.mem_singleton,
        beq_iff_eq] at member
      rcases member with old | ⟨old | rfl, source⟩
      · exact kept other (List.mem_append.mpr old)
      · exact good other (by simp [Run.inHand, phase, old, source])
      · exact read id other found source
  | @loadFailed id ids loaded phase =>
      intro other member
      exact good other (by simpa only [Run.inHand, setPhase, phase] using member)
  | @report loaded phase =>
      have chosen : ∀ journal ∈ openRunsFor loaded process.run.plan.sourceId, Good journal := by
        intro journal member
        obtain ⟨listed, source, -⟩ := mem_openRunsFor_iff.mp member
        exact good journal (by simp [Run.inHand, phase, listed, source])
      intro other member
      simp only [Process.report] at member
      split at member
      · simp only [Run.inHand, setPhase, List.append_nil, List.mem_append] at member
        rcases member with old | new
        · exact kept other (List.mem_append.mpr old)
        · exact chosen other new
      · simp only [Run.inHand, List.append_nil, List.mem_append] at member
        rcases member with old | new
        · exact kept other (List.mem_append_left _ old)
        · exact chosen other new
  | @count journal remaining done now phase =>
      intro other member
      simp only [Run.inHand, setPhase, List.mem_append, List.mem_cons] at member
      rcases member with old | rfl | old
      · exact kept other (List.mem_append.mpr old)
      · exact pushed journal _ now (good journal (by simp [Run.inHand, phase]))
      · exact good other (by simp [Run.inHand, phase]; tauto)
  | @closed journal remaining done phase =>
      intro other member
      apply good
      simp only [Run.inHand, setPhase, phase, List.mem_append, List.mem_cons,
        List.not_mem_nil, or_false] at member ⊢
      tauto
  | closeFailed => simpa [Run.inHand, fail, setPhase] using kept
  | @reconciled done phase =>
      intro other member
      apply good
      simp only [Run.inHand, phase, List.append_nil, List.nil_append, List.mem_append] at member ⊢
      tauto
  | collected =>
      simp only [Process.collected]
      split
      · simpa [Run.inHand, setPhase] using kept
      · cases process.run.plan.mode.writes <;> simpa [Run.inHand] using kept
  | @started now phase =>
      intro other member
      simp only [Run.inHand, Option.toList_some, List.append_nil, List.mem_append,
        List.mem_singleton] at member
      rcases member with rfl | old
      · exact begun now
      · exact kept other (List.mem_append_right _ old)
  | startFailed => simpa [Run.inHand, fail, setPhase] using kept

/-- What holds of every journal the run begins or reads for its source, and
survives its entries, holds of all it has in hand. -/
theorem Step.inHand {action : ProcessAction}
    (read : ∀ id journal, process.world.journals.lookup id = some journal →
      journal.sourceId = process.run.plan.sourceId → Good journal)
    (begun : ∀ now, Good (newJournal process.run now))
    (pushed : ∀ journal state now, Good journal → Good (journal.push state now))
    (good : ∀ journal ∈ process.run.inHand, Good journal)
    (stepped : Step deployment process action next) :
    ∀ journal ∈ next.run.inHand, Good journal := by
  have kept : ∀ journal ∈ process.run.journal.toList ++ process.run.openRuns, Good journal :=
    fun journal member => good journal (List.mem_append_left _ member)
  have entered : ∀ journal state now, process.run.journal = some journal →
      ∀ other ∈ (some (journal.push state now)).toList ++ process.run.openRuns, Good other := by
    intro journal state now recorded other member
    rw [Option.toList_some, List.singleton_append, List.mem_cons] at member
    rcases member with rfl | old
    · exact pushed journal state now (kept journal (by simp [recorded]))
    · exact kept other (List.mem_append_right _ old)
  cases stepped with
  | prologue taken => exact taken.inHand read begun pushed good
  | ingest taken =>
      cases taken with
      | pipeline phase => simpa [Run.inHand, phase, setPipe] using kept
      | worker phase => simpa [Run.inHand, phase, setPipe] using kept
      | commit phase committing recorded moved =>
          cases moved with
          | enter => simpa [Run.inHand, phase, withCall, setPipe] using entered _ _ _ recorded
          | acknowledged =>
              simpa [Run.inHand, phase, withCall, setPipe] using entered _ _ _ recorded
          | _ => simpa [Run.inHand, phase, withCall, setPipe] using kept
  | epilogue taken =>
      cases taken with
      | conclude phase reported recorded =>
          simpa [Run.inHand] using entered _ _ _ recorded
      | concludePreview => simpa [Run.inHand, setPhase] using kept
      | @recorded conclusion | @recordFailed conclusion =>
          intro other member
          apply kept
          by_cases completed : conclusion.terminal = .completed
          · simp only [Run.inHand, afterRecord, setPhase, completed, if_true,
              List.mem_append] at member ⊢
            tauto
          · simpa [Run.inHand, afterRecord, setPhase, completed] using member
      | supersede phase | supersedeFailed phase =>
          intro other member
          apply good
          simp only [Run.inHand, setPhase, phase, List.mem_append, List.mem_cons] at member ⊢
          tauto
      | exit => simpa [Run.inHand, setPhase] using kept
  | kill => simpa [Run.inHand, setPhase] using kept
  | land => exact good
  | lose => exact good
  | edit => exact good

theorem Writable.good {journal : RunJournal} (begun : ∀ now, Good (newJournal process.run now))
    (pushed : ∀ journal state now, Good journal → Good (journal.push state now))
    (good : ∀ journal ∈ process.run.inHand, Good journal) (writable : Writable process journal) :
    Good journal := by
  cases writable with
  | own recorded => exact good journal (by simp [Run.inHand, recorded])
  | fresh now phase => exact begun now
  | closure phase => exact good journal (by simp [Run.inHand, phase])
  | supersede now phase => exact pushed _ _ now (good _ (by simp [Run.inHand, phase]))

end InHand

/-! ## One world and another -/

def Filed (store : JournalStore) : Prop :=
  ∀ id journal, store.lookup id = some journal → journal.runId = id

/-- A journal of the source, under a name that is not another source's. -/
def Kindred (before : JournalStore) (sourceId : String) (journal : RunJournal) : Prop :=
  journal.sourceId = sourceId ∧
    ∀ stored, before.lookup journal.runId = some stored → stored.sourceId = sourceId

/-- What is not of the source is as it was. -/
structure Confined (before : World) (process : Process) : Prop where
  filed : Filed process.world.journals
  journals : ∀ id journal, journal.sourceId ≠ process.run.plan.sourceId →
    (process.world.journals.lookup id = some journal ↔
      before.journals.lookup id = some journal)
  catalog : foreignRows process.world.catalog process.run.plan.sourceId =
    foreignRows before.catalog process.run.plan.sourceId
  inHand : ∀ journal ∈ process.run.inHand,
    Kindred before.journals process.run.plan.sourceId journal

theorem Filed.insert {store : JournalStore} (filed : Filed store) (journal : RunJournal) :
    Filed (store.insert journal.runId journal) := by
  intro id other found
  by_cases same : id = journal.runId
  · subst same
    rw [AList.lookup_insert, Option.some.injEq] at found
    rw [found]
  · rw [AList.lookup_insert_ne same] at found
    exact filed id other found

theorem Step.confined {deployment : Deployment} {before : World} {process next : Process}
    {action : ProcessAction} {times : List DateTime}
    (unused : before.journals.lookup process.run.plan.runId = none)
    (built : process.run.Built deployment times) (confined : Confined before process)
    (stepped : Step deployment process action next) : Confined before next := by
  have begun : ∀ now, Kindred before.journals process.run.plan.sourceId
      (newJournal process.run now) := by
    refine fun now => ⟨rfl, fun stored found => ?_⟩
    rw [show (newJournal process.run now).runId = process.run.plan.runId from rfl, unused] at found
    cases found
  have pushed : ∀ journal state now, Kindred before.journals process.run.plan.sourceId journal →
      Kindred before.journals process.run.plan.sourceId (journal.push state now) :=
    fun journal state now kindred => kindred
  have plan := stepped.plan_eq
  constructor
  · rcases stepped.writings_cases with ⟨-, same⟩ | ⟨journal, -, -, store⟩
    · rw [same]
      exact confined.filed
    · rw [store]
      exact confined.filed.insert journal
  · intro id journal other
    rw [plan] at other
    rw [← confined.journals id journal other]
    rcases stepped.writings_cases with ⟨-, same⟩ | ⟨written, -, writable, store⟩
    · rw [same]
    · obtain ⟨source, named⟩ := writable.good begun pushed confined.inHand
      rw [store]
      by_cases same : id = written.runId
      · subst same
        rw [AList.lookup_insert, Option.some.injEq]
        constructor
        · rintro rfl
          exact (other source).elim
        · intro found
          exact (other (named journal ((confined.journals _ _ other).mp found))).elim
      · rw [AList.lookup_insert_ne same]
  · have landed : foreignRows (process.landing action) process.run.plan.sourceId = [] := by
      apply List.filter_eq_nil_iff.mpr
      intro row member
      simp [sourceId_of_landing built action row member]
    rw [plan, stepped.catalog_eq, foreignRows, List.filter_append]
    exact (congrArg _ landed).trans ((List.append_nil _).trans confined.catalog)
  · rw [plan]
    refine stepped.inHand ?_ begun pushed confined.inHand
    intro id journal found source
    refine ⟨source, fun stored there => ?_⟩
    rw [confined.filed id journal found] at there
    by_contra other
    have kept := (confined.journals id stored other).mpr there
    rw [found, Option.some.injEq] at kept
    exact other (kept ▸ source)

theorem inHand_start (plan : RunPlan) : (Run.start plan).inHand = [] := by
  cases connected : plan.mode.isConnected <;> simp [Run.inHand, Run.start, connected]

section Runs

variable {deployment : Deployment} {plan : RunPlan} {world : World}
  {actions : List ProcessAction} {final : Process}

theorem confined_of_exec (filed : Filed world.journals)
    (unused : world.journals.lookup plan.runId = none)
    (exec : (machine deployment).exec ⟨world, Run.start plan⟩ actions = some final) :
    Confined world final := by
  refine (machine deployment).exec_induction
    (motive := fun _ (process : Process) => Confined world process) ?_ ?_ exec
  · refine ⟨filed, fun id journal other => Iff.rfl, rfl, ?_⟩
    rw [inHand_start]
    simp
  · intro actions middle action next before confined stepped
    have planned := plan_of_exec before
    exact (Step.of_step stepped).confined (by rw [planned]; exact unused) (built_of_exec before)
      confined

theorem sourceId_inHand_of_exec
    (exec : (machine deployment).exec ⟨world, Run.start plan⟩ actions = some final) :
    ∀ journal ∈ final.run.inHand, journal.sourceId = plan.sourceId := by
  refine (machine deployment).exec_induction (motive := fun _ (process : Process) =>
    ∀ journal ∈ process.run.inHand, journal.sourceId = plan.sourceId) ?_ ?_ exec
  · rw [inHand_start]
    simp
  · intro actions middle action next before own stepped
    have planned := plan_of_exec before
    refine (Step.of_step stepped).inHand ?_ ?_ (fun journal state now own => own) own
    · intro id journal found source
      rw [source, planned]
    · intro now
      rw [← planned]
      rfl

/-- What a run does, it does in the world of its source alone. -/
theorem projects_ownedBy (deployment : Deployment) (plan : RunPlan) (world : World) :
    (machine deployment).Projects (machine deployment)
      (fun process => process.ownedBy plan.sourceId) (ownActions plan.sourceId)
      ⟨world, Run.start plan⟩ := by
  intro actions middle action next before stepped
  have planned := plan_of_exec before
  have own := sourceId_inHand_of_exec before
  cases foreign : middle.readsForeign plan.sourceId action with
  | true =>
      show _ = some (next.ownedBy plan.sourceId)
      rw [ownActions, foreign, ownedBy_of_readsForeign foreign stepped]
      rfl
  | false =>
      apply exec_ownActions foreign
      refine step_ownedBy (by rw [planned]) ?_ ?_ (built_of_exec before) foreign stepped
      · intro journal recorded
        exact own journal (by simp [Run.inHand, recorded])
      · intro journal member
        rcases middle.written_cases action with written | ⟨other, written, writable⟩
        · rw [written] at member
          cases member
        · rw [written, List.mem_singleton] at member
          rw [member]
          have begun : ∀ now, (newJournal middle.run now).sourceId = plan.sourceId := by
            intro now
            rw [← planned]
            rfl
          exact writable.good begun (fun journal state now own => own) own

theorem observe_ownedBy {Seen : Type} (look : Process → ProcessAction → List Seen)
    (blind : ∀ process action, process.readsForeign plan.sourceId action = true →
      look process action = [])
    (same : ∀ process action, look (process.ownedBy plan.sourceId) action = look process action)
    (exec : (machine deployment).exec ⟨world, Run.start plan⟩ actions = some final) :
    (machine deployment).observe look ⟨world, Run.start plan⟩ actions =
      (machine deployment).observe look (Process.ownedBy ⟨world, Run.start plan⟩ plan.sourceId)
        ((machine deployment).observe (ownActions plan.sourceId) ⟨world, Run.start plan⟩
          actions) := by
  refine (projects_ownedBy deployment plan world).observe look look ?_ exec
  intro actions middle action next before stepped
  have projected := projects_ownedBy deployment plan world actions middle action next before stepped
  cases foreign : middle.readsForeign plan.sourceId action with
  | true =>
      rw [blind middle action foreign, ownActions, foreign]
      rfl
  | false =>
      rw [ownActions, foreign] at projected ⊢
      obtain ⟨_, taken, -⟩ := (machine deployment).exec_cons_eq_some_iff.mp projected
      simp only [Bool.false_eq_true, if_false, GuardedMachine.observe, taken, List.append_nil]
      exact (same middle action).symm

end Runs

/-! ## What is seen -/

section Seen

variable {sourceId : String} {process : Process} {action : ProcessAction}

theorem readsForeign_cases (foreign : process.readsForeign sourceId action = true) :
    action = .prologue .load ∨ action = .prologue .loadFailed := by
  unfold readsForeign at foreign
  split at foreign
  · exact .inl rfl
  · exact .inr rfl
  · cases foreign

theorem written_ownedBy : (process.ownedBy sourceId).written action = process.written action := by
  cases phase : process.run.phase with
  | loading ids loaded =>
      obtain ⟨ids', loaded', loading⟩ : ∃ ids' loaded',
          (process.ownedBy sourceId).run.phase = .loading ids' loaded' :=
        ⟨_, _, by rw [ownedBy, phase]; rfl⟩
      have journal : (process.ownedBy sourceId).run.journal = process.run.journal := rfl
      cases action with
      | prologue inner => cases inner <;> simp [written, loading, phase]
      | ingest inner =>
          cases inner with
          | commit inner => cases inner <;> rfl
          | _ => rfl
      | epilogue inner => cases inner <;> simp [written, loading, phase, journal]
      | _ => rfl
  | _ => rw [ownedBy_eq (by simp [phase])]; rfl

theorem exit?_ownedBy (sourceId : String) (process : Process) :
    (process.ownedBy sourceId).run.phase.exit? = process.run.phase.exit? := by
  cases phase : process.run.phase with
  | loading ids loaded => rw [ownedBy, phase]; rfl
  | _ => rw [ownedBy_eq (by simp [phase]), phase]

theorem start_not_loading (plan : RunPlan) (ids : List Uuid) (loaded : List RunJournal) :
    (Run.start plan).phase ≠ .loading ids loaded := by
  cases connected : plan.mode.isConnected <;> simp [Run.start, connected]

end Seen

end Process

open Process in
/-- Sources are isolated.  In two worlds that agree on files, blobs and all that
is of the run's source, the same schedule of its source brings the same
outcomes, hands over the same batches, closes the same journals with the same
counts and ends the same; and nothing of another source is changed. -/
theorem sources_are_isolated {deployment : Deployment} {plan : RunPlan} {first second : World}
    {actions others : List ProcessAction} {final ended : Process}
    (files : first.files = second.files) (blobs : first.blobs = second.blobs)
    (rows : ownRows first.catalog plan.sourceId = ownRows second.catalog plan.sourceId)
    (journals : ownJournals first.journals plan.sourceId =
      ownJournals second.journals plan.sourceId)
    (exec : (machine deployment).exec ⟨first, Run.start plan⟩ actions = some final)
    (exec' : (machine deployment).exec ⟨second, Run.start plan⟩ others = some ended)
    (schedule : (machine deployment).observe (ownActions plan.sourceId) ⟨first, Run.start plan⟩
        actions =
      (machine deployment).observe (ownActions plan.sourceId) ⟨second, Run.start plan⟩ others) :
    ((machine deployment).observe outcomes ⟨first, Run.start plan⟩ actions =
        (machine deployment).observe outcomes ⟨second, Run.start plan⟩ others ∧
      (machine deployment).observe handing ⟨first, Run.start plan⟩ actions =
        (machine deployment).observe handing ⟨second, Run.start plan⟩ others ∧
      (machine deployment).observe landing ⟨first, Run.start plan⟩ actions =
        (machine deployment).observe landing ⟨second, Run.start plan⟩ others ∧
      (machine deployment).observe written ⟨first, Run.start plan⟩ actions =
        (machine deployment).observe written ⟨second, Run.start plan⟩ others ∧
      final.ownedBy plan.sourceId = ended.ownedBy plan.sourceId ∧
      final.run.phase.exit? = ended.run.phase.exit?) ∧
    (Filed first.journals → first.journals.lookup plan.runId = none →
      (∀ id journal, journal.sourceId ≠ plan.sourceId →
        (final.world.journals.lookup id = some journal ↔
          first.journals.lookup id = some journal)) ∧
      foreignRows final.world.catalog plan.sourceId = foreignRows first.catalog plan.sourceId ∧
      ∀ sourceId, sourceId ≠ plan.sourceId →
        loadCurrentState final.world.catalog sourceId = loadCurrentState first.catalog sourceId) := by
  have start : Process.ownedBy ⟨first, Run.start plan⟩ plan.sourceId =
      Process.ownedBy ⟨second, Run.start plan⟩ plan.sourceId := by
    rw [ownedBy_eq (start_not_loading plan), ownedBy_eq (start_not_loading plan)]
    simp only [World.ownedBy, files, blobs, rows, journals]
  have seen : ∀ {Seen : Type} (look : Process → ProcessAction → List Seen),
      (∀ process action, process.readsForeign plan.sourceId action = true →
        look process action = []) →
      (∀ process action, look (process.ownedBy plan.sourceId) action = look process action) →
      (machine deployment).observe look ⟨first, Run.start plan⟩ actions =
        (machine deployment).observe look ⟨second, Run.start plan⟩ others := by
    intro Seen look blind same
    rw [observe_ownedBy look blind same exec, observe_ownedBy look blind same exec', start,
      schedule]
  have outcome : final.ownedBy plan.sourceId = ended.ownedBy plan.sourceId := by
    have reached := (projects_ownedBy deployment plan first).exec exec
    rw [start, schedule, (projects_ownedBy deployment plan second).exec exec',
      Option.some.injEq] at reached
    exact reached.symm
  have blind : ∀ {Seen : Type} {look : Process → ProcessAction → List Seen},
      (∀ process, look process (.prologue .load) = []) →
      (∀ process, look process (.prologue .loadFailed) = []) →
      ∀ process action, process.readsForeign plan.sourceId action = true →
        look process action = [] := by
    intro Seen look load loadFailed process action foreign
    rcases readsForeign_cases foreign with rfl | rfl
    · exact load process
    · exact loadFailed process
  refine ⟨⟨seen outcomes ?_ ?_, seen handing ?_ ?_, seen landing ?_ ?_, seen written ?_ ?_,
    outcome, ?_⟩, fun filed unused => ?_⟩
  · exact blind (fun _ => rfl) fun _ => rfl
  · exact fun process action => rfl
  · exact blind (fun _ => rfl) fun _ => rfl
  · exact fun process action => rfl
  · exact blind (fun _ => rfl) fun _ => rfl
  · exact fun process action => rfl
  · exact blind (fun _ => rfl) fun _ => rfl
  · exact fun process action => written_ownedBy
  · rw [← exit?_ownedBy plan.sourceId final, outcome, exit?_ownedBy]
  · obtain ⟨-, kept, catalog, -⟩ := confined_of_exec filed unused exec
    rw [plan_of_exec exec] at kept catalog
    refine ⟨kept, catalog, fun sourceId different => ?_⟩
    rw [← loadCurrentState_foreignRows different, catalog, loadCurrentState_foreignRows different]

open Process in
/-- The interrupted world, with a journal and rows of others. -/
def sharedWorld : World :=
  { interruptedWorld with
    journals := ((∅ : JournalStore).insert 9 (RunJournal.new 9 "/mail" 1 1000)).insert 1
      (RunJournal.new 1 "/data" 1 1000)
    catalog := filesToBatch [{ sampleRow 1 "a" 1000 with sourceId := some "/mail" },
      { sampleRow 1 "a" 1000 with sourceId := none }] }

def closingPrologue (loads : List PrologueAction) (now : DateTime) : List PrologueAction :=
  [.proceed, .proceed, .proceed, .proceed, .loadState, .list] ++ loads ++
    [.report, .count now, .closed, .reconciled, .collect [samplePath "a"], .started now]

def closingSchedule (loads : List PrologueAction) (now : DateTime) : List ProcessAction :=
  (closingPrologue loads now).map .prologue ++
    [.ingest (.pipeline .spawn), .ingest (.pipeline .await)] ++ hashSchedule 0 now ++
    uploadSchedule 0 now ++ deliverSchedule (sampleRow 2 "a" now) .uploaded ++
    requestSchedule now ++ [.land] ++
    ([.acknowledged now, .saved].map fun action => .ingest (.commit action)) ++
    [.ingest (.pipeline .commitOk), .epilogue (.conclude now), .epilogue .recorded,
      .epilogue (.supersede now), .epilogue .exit]

open Process in
/-- A row of the run that bears another source's name does not count for it. -/
theorem sources_are_isolated_shared : ∃ final ended,
    (machine sampleDeployment).exec ⟨sharedWorld, Run.start (samplePlan 2)⟩
        (closingSchedule [.load, .loadFailed] 2000) = some final ∧
      (machine sampleDeployment).exec ⟨interruptedWorld, Run.start (samplePlan 2)⟩
        (closingSchedule [.load] 2000) = some ended ∧
      (final.world.journals.lookup 1).map RunJournal.states =
        some [.started, .reconciled 0, .supersededBy 2] ∧
      (final.world.journals.lookup 9).isSome = true ∧
      final.run.phase.exit? = ended.run.phase.exit? ∧
      foreignRows final.world.catalog "/data" = sharedWorld.catalog := by
  obtain ⟨final, exec, shown⟩ := Option.map_eq_some_iff.mp (show
    ((machine sampleDeployment).exec ⟨sharedWorld, Run.start (samplePlan 2)⟩
      (closingSchedule [.load, .loadFailed] 2000)).map (fun final =>
        (final.world.journals.lookup 1).map RunJournal.states) =
      some (some [.started, .reconciled 0, .supersededBy 2]) by decide +kernel)
  obtain ⟨ended, exec', -⟩ := Option.map_eq_some_iff.mp (show
    ((machine sampleDeployment).exec ⟨interruptedWorld, Run.start (samplePlan 2)⟩
      (closingSchedule [.load] 2000)).map (fun ended => ended.run.phase.exit?.isSome) =
      some true by decide +kernel)
  have empty : Filed ∅ := fun id journal found => by
    rw [AList.lookup_empty] at found
    cases found
  have filed : Filed sharedWorld.journals :=
    (empty.insert (RunJournal.new 9 "/mail" 1 1000)).insert (RunJournal.new 1 "/data" 1 1000)
  obtain ⟨⟨-, -, -, -, -, same⟩, confined⟩ := sources_are_isolated
    (show sharedWorld.files = interruptedWorld.files from rfl) rfl (by decide +kernel)
    (AList.ext (by decide +kernel)) exec exec' (by decide +kernel)
  obtain ⟨kept, rows, -⟩ := confined filed (by decide +kernel)
  refine ⟨final, ended, exec, exec', shown, ?_, same, ?_⟩
  · rw [(kept 9 (RunJournal.new 9 "/mail" 1 1000) (by decide)).mpr (by decide +kernel)]
    rfl
  · rw [show "/data" = (samplePlan 2).sourceId from rfl, rows]
    decide +kernel

end AntiEntropator.Ingest
