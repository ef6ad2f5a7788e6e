import AntiEntropator.Ingest.ProcessFile.Exact
import AntiEntropator.Ingest.Run.Success

/-!
# Schedules do not matter

While the files stay as they are, what a run ends with is a function of the
tree, the catalog and the store: concurrency, batch size and the order of the
workers do not show.  Workers with the same content race for one blob; the one
that creates it is credited, and only that one.
-/

namespace AntiEntropator.Ingest

open Lakehouse Pipeline

/-! ## Who is credited -/

def fileHash (deployment : Deployment) (files : SourceFiles) (path : PathBuf) :
    Option ContentHash :=
  (files path).map deployment.contentHash

def creditedOutcome (entry : PathBuf × IngestOutcome) : Option PathBuf :=
  if outcomeBlob entry.2 = .uploaded then some entry.1 else none

def creditedTask : Pipeline.Task FileTask → Option PathBuf
  | ⟨path, .running task⟩ => if task.credited = true then some path else none
  | ⟨path, .finished (.result (.ok outcome))⟩ => creditedOutcome (path, outcome)
  | ⟨_, .finished _⟩ => none

/-- The paths whose blob is counted as uploaded, or will be. -/
def credits (outcomes : List (PathBuf × IngestOutcome)) (pipe : State FileTask CommitCall) :
    List PathBuf :=
  outcomes.filterMap creditedOutcome ++ pipe.set.filterMap creditedTask

def FailedTask : Pipeline.Task FileTask → Prop
  | ⟨_, .running task⟩ => ∃ error, task.result? = some (.error error)
  | ⟨path, .finished joined⟩ => failureText? path joined ≠ none

/-- A file's error is recorded, or is going to be. -/
def Failing (pipe : State FileTask CommitCall) : Prop :=
  pipe.errors ≠ [] ∨ ∃ task ∈ pipe.set, FailedTask task

theorem exists_split {α : Type} {items : List α} {index : Nat} {item : α}
    (found : items[index]? = some item) :
    ∃ before after, items = before ++ item :: after ∧ items.eraseIdx index = before ++ after ∧
      ∀ changed, items.set index changed = before ++ changed :: after := by
  obtain ⟨inside, rfl⟩ := List.getElem?_eq_some_iff.mp found
  refine ⟨items.take index, items.drop (index + 1), ?_, ?_, ?_⟩
  · rw [List.getElem_cons_drop, List.take_append_drop]
  · exact List.eraseIdx_eq_take_drop_succ _ _
  · intro changed
    rw [List.set_eq_take_append_cons_drop, if_pos inside]

section Pipeline

variable {cfg : PipelineConfig} {plan : RunPlan} {pipe next : State FileTask CommitCall}
  {outcomes : List (PathBuf × IngestOutcome)} {action : Pipeline.Action}

theorem Failing.step (failing : Failing pipe) (allowed : Process.allows pipe action = true)
    (stepped : Pipeline.step cfg plan.parts pipe action = some next) : Failing next := by
  rcases failing with recorded | ⟨task, member, failed⟩
  · apply Or.inl
    cases Pipeline.Step.of_step stepped with
    | joinFailed => simp
    | _ => exact recorded
  · cases Pipeline.Step.of_step stepped with
    | spawn => exact .inr ⟨task, List.mem_append_left _ member, failed⟩
    | @finish index joined path running found =>
        obtain ⟨before, after, split, -, set⟩ := exists_split found
        rw [split] at member
        apply Or.inr
        simp only [set]
        rcases List.mem_append.mp member with old | rest
        · exact ⟨task, List.mem_append_left _ old, failed⟩
        · rcases List.mem_cons.mp rest with rfl | later
          · refine ⟨_, List.mem_append_right _ List.mem_cons_self, ?_⟩
            obtain ⟨error, returned⟩ := failed
            rcases joined with result | text
            · simp only [Process.allows, found, decide_eq_true_eq] at allowed
              rw [returned, Option.some.injEq] at allowed
              subst result
              simp [FailedTask, failureText?]
            · simp [FailedTask, failureText?]
          · exact ⟨task, List.mem_append_right _ (List.mem_cons_of_mem _ later), failed⟩
    | joinFailed => exact .inl (by simp)
    | joinQuiet joining found | joinRow joining found =>
        obtain ⟨before, after, split, erased, -⟩ := exists_split found
        rw [split] at member
        apply Or.inr
        simp only [erased]
        rcases List.mem_append.mp member with old | rest
        · exact ⟨task, List.mem_append_left _ old, failed⟩
        · rcases List.mem_cons.mp rest with rfl | later
          · exact (failed rfl).elim
          · exact ⟨task, List.mem_append_right _ later, failed⟩
    | drain joining empty => simp [empty] at member
    | _ => exact .inr ⟨task, member, failed⟩

theorem credits_step (allowed : Process.allows pipe action = true)
    (stepped : Pipeline.step cfg plan.parts pipe action = some next) :
    (credits (outcomes ++ joined pipe action) next).Perm (credits outcomes pipe) ∨
      (credits (outcomes ++ joined pipe action) next).Subperm (credits outcomes pipe) ∧
        Failing next := by
  have unmoved : ∀ {later : State FileTask CommitCall}, joined pipe action = [] →
      later.set.filterMap creditedTask = pipe.set.filterMap creditedTask →
      (credits (outcomes ++ joined pipe action) later).Perm (credits outcomes pipe) := by
    intro later none same
    simp only [credits, none, List.append_nil, same]
    exact List.Perm.refl _
  -- an outcome moves from its task to the list
  have handed : ∀ {later : State FileTask CommitCall} {index : Nat} {path : PathBuf}
      {outcome : IngestOutcome}, action = .join index →
      pipe.set[index]? = some ⟨path, .finished (.result (.ok outcome))⟩ →
      later.set = pipe.set.eraseIdx index →
      (credits (outcomes ++ joined pipe action) later).Perm (credits outcomes pipe) := by
    rintro later index path outcome rfl found set
    obtain ⟨before, after, split, erased, -⟩ := exists_split found
    have shown : joined pipe (.join index) = [(path, outcome)] := by simp [joined, found]
    simp only [credits, shown, set, erased]
    rw [split]
    simp only [List.filterMap_append, List.filterMap_cons, List.filterMap_nil, creditedTask]
    cases creditedOutcome (path, outcome) with
    | none => simp
    | some credited =>
        simp only [List.append_assoc, List.cons_append, List.nil_append]
        exact (List.perm_middle.symm).append_left _
  cases Pipeline.Step.of_step stepped with
  | spawn =>
      refine .inl (unmoved rfl ?_)
      simp [creditedTask, RunPlan.parts, FileTask.credited]
  | @finish index joined path running found =>
      obtain ⟨before, after, split, -, set⟩ := exists_split found
      rcases joined with result | text
      · simp only [Process.allows, found, decide_eq_true_eq] at allowed
        have same : creditedTask ⟨path, .finished (.result result)⟩ =
            creditedTask ⟨path, .running running⟩ := by
          rcases result with error | outcome
          · have idle : running.credited = false := by
              simp [FileTask.credited, FileTask.result?_eq_some_iff.mp allowed]
            simp [creditedTask, idle]
          · simp [creditedTask, creditedOutcome, FileTask.credited_of_result allowed]
        refine .inl (unmoved rfl ?_)
        simp only [set]
        rw [split]
        simp only [List.filterMap_append, List.filterMap_cons, same]
      · refine .inr ⟨?_, .inr ⟨⟨path, .finished (.panicked text)⟩, ?_, ?_⟩⟩
        · apply List.Sublist.subperm
          simp only [credits, Pipeline.joined, List.append_nil, set]
          rw [split]
          apply List.Sublist.append_left
          simp only [List.filterMap_append, List.filterMap_cons, creditedTask]
          apply List.Sublist.append_left
          split
          · exact List.Sublist.refl _
          · exact List.sublist_cons_self _ _
        · simp [set]
        · simp [FailedTask, failureText?]
  | @joinFailed index path ended text joining found failed =>
      obtain ⟨before, after, split, erased, -⟩ := exists_split found
      refine .inl (unmoved (joined_of_failed found failed) ?_)
      simp only [erased]
      rw [split]
      have idle : creditedTask ⟨path, .finished ended⟩ = none := by
        rcases ended with ⟨error | outcome⟩ | text
        · rfl
        · cases failed
        · rfl
      simp [idle]
  | joinQuiet joining found => exact .inl (handed rfl found rfl)
  | joinRow joining found => exact .inl (handed rfl found rfl)
  | _ => exact .inl (unmoved rfl rfl)

end Pipeline

/-- Every new blob has one worker to its credit, as long as no task fails. -/
structure Credited (deployment : Deployment) (start : World)
    (outcomes : List (PathBuf × IngestOutcome)) (pipe : State FileTask CommitCall)
    (blobs : ObjectStore) : Prop where
  distinct : ((credits outcomes pipe).map (fileHash deployment start.files)).Nodup
  created : ∀ path ∈ credits outcomes pipe, ∃ hash,
    fileHash deployment start.files path = some hash ∧ start.blobs hash.toObjectKey = none ∧
      blobs hash.toObjectKey ≠ none
  covered : ∀ hash : ContentHash, blobs hash.toObjectKey ≠ none →
    start.blobs hash.toObjectKey ≠ none ∨
      some hash ∈ (credits outcomes pipe).map (fileHash deployment start.files) ∨ Failing pipe

section Credited

variable {deployment : Deployment} {start : World} {outcomes later : List (PathBuf × IngestOutcome)}
  {pipe next : State FileTask CommitCall} {blobs : ObjectStore}

theorem Credited.keep (credited : Credited deployment start outcomes pipe blobs)
    (kept : (credits later next).Perm (credits outcomes pipe) ∨
      (credits later next).Subperm (credits outcomes pipe) ∧ Failing next)
    (failing : Failing pipe → Failing next) : Credited deployment start later next blobs := by
  have fewer : (credits later next).Subperm (credits outcomes pipe) := by
    rcases kept with same | ⟨fewer, -⟩
    · exact same.subperm
    · exact fewer
  constructor
  · obtain ⟨middle, same, sublist⟩ := fewer
    have distinct := credited.distinct.sublist (sublist.map (fileHash deployment start.files))
    exact (same.map _).nodup_iff.mp distinct
  · exact fun path member => credited.created path (fewer.subset member)
  · intro hash held
    rcases credited.covered hash held with old | owned | failed
    · exact .inl old
    · rcases kept with same | ⟨-, failed⟩
      · exact .inr (.inl ((same.map _).mem_iff.mpr owned))
      · exact .inr (.inr failed)
    · exact .inr (.inr (failing failed))

/-- A blob appears, to the credit of the worker that closed, or of none. -/
theorem Credited.create {path : PathBuf} {contents : Contents} {object : Object}
    (credited : Credited deployment start outcomes pipe blobs)
    (held : start.files path = some contents)
    (grows : WriteOnce.Extends start.blobs blobs)
    (free : blobs (deployment.contentHash contents).toObjectKey = none)
    (kept : (credits outcomes next).Perm (path :: credits outcomes pipe) ∨
      (credits outcomes next).Perm (credits outcomes pipe) ∧ Failing next)
    (failing : Failing pipe → Failing next) :
    Credited deployment start outcomes next
      (Function.update blobs (deployment.contentHash contents).toObjectKey (some object)) := by
  have named : fileHash deployment start.files path = some (deployment.contentHash contents) := by
    simp [fileHash, held]
  have absent : start.blobs (deployment.contentHash contents).toObjectKey = none := by
    by_contra present
    obtain ⟨old, stored⟩ := Option.ne_none_iff_exists'.mp present
    rw [grows _ _ stored] at free
    cases free
  -- what was stored stays stored, and only the new key is added
  have more : ∀ hash : ContentHash, blobs hash.toObjectKey ≠ none →
      Function.update blobs (deployment.contentHash contents).toObjectKey (some object)
        hash.toObjectKey ≠ none := by
    intro hash present
    by_cases same : hash.toObjectKey = (deployment.contentHash contents).toObjectKey
    · simp [same]
    · rwa [Function.update_of_ne same]
  have cases : ∀ hash : ContentHash,
      Function.update blobs (deployment.contentHash contents).toObjectKey (some object)
        hash.toObjectKey ≠ none →
      hash = deployment.contentHash contents ∨ blobs hash.toObjectKey ≠ none := by
    intro hash present
    by_cases same : hash.toObjectKey = (deployment.contentHash contents).toObjectKey
    · exact .inl (ContentHash.toObjectKey_injective same)
    · rw [Function.update_of_ne same] at present
      exact .inr present
  rcases kept with grown | ⟨same, failed⟩
  · constructor
    · refine ((grown.map _).nodup_iff).mpr (List.nodup_cons.mpr ⟨?_, credited.distinct⟩)
      rw [named]
      intro member
      obtain ⟨other, inside, shown⟩ := List.mem_map.mp member
      obtain ⟨hash, hashed, -, present⟩ := credited.created other inside
      rw [shown, Option.some.injEq] at hashed
      exact present (hashed ▸ free)
    · intro other member
      rcases List.mem_cons.mp (grown.mem_iff.mp member) with rfl | old
      · exact ⟨_, named, absent, by simp⟩
      · obtain ⟨hash, hashed, missing, present⟩ := credited.created other old
        exact ⟨hash, hashed, missing, more hash present⟩
    · intro hash present
      rcases cases hash present with rfl | old
      · refine .inr (.inl ((grown.map _).mem_iff.mpr ?_))
        rw [List.map_cons, named]
        exact List.mem_cons_self
      · rcases credited.covered hash old with before | owned | failed
        · exact .inl before
        · exact .inr (.inl ((grown.map _).mem_iff.mpr (List.mem_cons_of_mem _ owned)))
        · exact .inr (.inr (failing failed))
  · constructor
    · exact ((same.map _).nodup_iff).mpr credited.distinct
    · intro other member
      obtain ⟨hash, hashed, missing, present⟩ := credited.created other (same.mem_iff.mp member)
      exact ⟨hash, hashed, missing, more hash present⟩
    · exact fun _ _ => .inr (.inr failed)

end Credited

/-! ## A run over files that do not change -/

def Run.Tracks (deployment : Deployment) (files : SourceFiles) (blobs : ObjectStore) (run : Run)
    (path : PathBuf) (task : FileTask) : Prop :=
  path ∈ run.files ∧ task.path = path ∧ (∃ times, task.Valid deployment run.context times) ∧
    task.Exact deployment run.context files blobs

def Run.Tells (deployment : Deployment) (files : SourceFiles) (blobs : ObjectStore) (run : Run)
    (path : PathBuf) (outcome : IngestOutcome) : Prop :=
  (∃ times, Inherits (NewRow deployment run.context times) path outcome) ∧
    ∃ contents, files path = some contents ∧
      Truthful deployment run.context blobs path contents outcome

theorem Run.Tells.named {deployment : Deployment} {files : SourceFiles} {blobs : ObjectStore}
    {run : Run} {path : PathBuf} {outcome : IngestOutcome}
    (tells : run.Tells deployment files blobs path outcome) : ∃ relativePath,
      normalizeRelativePath (path.stripPrefix run.plan.root) = .ok relativePath := by
  obtain ⟨⟨times, row⟩, contents, -, -, told⟩ := tells
  cases outcome with
  | observed info blob =>
      obtain ⟨hash, relativePath, observes, -⟩ := row info rfl
      exact ⟨relativePath, observes.normalized⟩
  | unchanged blob =>
      obtain ⟨relativePath, normalized, -⟩ := told
      exact ⟨relativePath, normalized⟩

/-- A blob is the old one under its key, or that of a candidate. -/
def Stems (deployment : Deployment) (start : World) (candidates : List PathBuf)
    (blobs : ObjectStore) : Prop :=
  ∀ key, blobs key = start.blobs key ∨ ∃ path ∈ candidates, ∃ contents,
    start.files path = some contents ∧ key = (deployment.contentHash contents).toObjectKey ∧
      start.blobs key = none ∧ blobs key = some (deployment.object contents)

namespace Process

structure Steady (deployment : Deployment) (start : World)
    (outcomes : List (PathBuf × IngestOutcome)) (process : Process) : Prop where
  ingesting : process.run.plan.mode = .ingest
  files : process.world.files = start.files
  early : Unrecorded process.run.phase →
    process.world.catalog = start.catalog ∧ process.world.blobs = start.blobs ∧ outcomes = []
  grows : WriteOnce.Extends start.blobs process.world.blobs
  informed : Informed (loadCurrentState start.catalog process.run.plan.sourceId) process.run
  reports : process.run.Reports (process.run.Tracks deployment start.files process.world.blobs)
    (process.run.Tells deployment start.files process.world.blobs) outcomes
  credited : Credited deployment start outcomes process.run.pipe process.world.blobs
  stems : Stems deployment start process.run.files process.world.blobs

section Steady

variable {deployment : Deployment} {start : World} {outcomes : List (PathBuf × IngestOutcome)}
  {process next : Process} {action : ProcessAction}

theorem credited_of_fresh (parts : Parts FileTask CommitCall) (files : List PathBuf) :
    Credited deployment start [] (Pipeline.start parts files) start.blobs where
  distinct := by simp [credits, Pipeline.start]
  created := by simp [credits, Pipeline.start]
  covered _ held := .inl held

theorem steady_start {plan : RunPlan} (ingesting : plan.mode = .ingest) :
    Steady deployment start [] ⟨start, Run.start plan⟩ where
  ingesting := ingesting
  files := rfl
  early _ := ⟨rfl, rfl, rfl⟩
  grows := WriteOnce.Extends.refl _
  informed := informed_start (by rw [ingesting]; rfl) _
  reports := ⟨(Run.fresh_start plan).judged, by simp⟩
  credited := credited_of_fresh _ _
  stems _ := .inl rfl

theorem Step.untouched (fresh : process.run.Fresh) (unrecorded : Unrecorded process.run.phase)
    (stepped : Step deployment process action next) :
    next.world.catalog = process.world.catalog ∧ next.world.blobs = process.world.blobs ∧
      process.outcomes action = [] ∧
      next.run.pipe = Pipeline.start next.run.plan.parts next.run.files := by
  cases stepped with
  | prologue taken =>
      obtain ⟨journals, world⟩ := taken.writesJournals
      exact ⟨by rw [world], by rw [world], rfl, (taken.untouched fresh).1⟩
  | ingest taken => exact (not_unrecorded_ingesting taken.phase_eq.1 unrecorded).elim
  | epilogue taken => exact (taken.phase_recorded unrecorded).elim
  | kill => exact ⟨rfl, rfl, rfl, fresh.pipe⟩
  | land flying => simp [fresh.request] at flying
  | lose flying => simp [fresh.request] at flying
  | edit => exact ⟨rfl, rfl, rfl, fresh.pipe⟩

theorem Steady.worked (steady : Steady deployment start outcomes process) {index : Nat}
    {path : PathBuf} {task task' : FileTask} {inner : FileAction} {blobs : ObjectStore}
    (found : process.run.pipe.set[index]? = some ⟨path, .running task⟩)
    (moved : task.step deployment process.run.context process.world.files process.world.blobs
      inner = some (blobs, task')) :
    Credited deployment start outcomes
        { process.run.pipe with set := process.run.pipe.set.set index ⟨path, .running task'⟩ }
        blobs ∧
      Stems deployment start process.run.files blobs := by
  obtain ⟨candidate, rfl, ⟨times, valid⟩, exact⟩ :=
    steady.reports.judged.tasks.running path task (List.mem_of_getElem? found)
  obtain ⟨before, after, split, -, set⟩ := exists_split found
  have operator : process.run.context.operator = true := by
    simp [Run.context, steady.ingesting, IngestMode.isConnected]
  have writes : process.run.context.mode.writes = true := by
    simp [Run.context, steady.ingesting, IngestMode.writes]
  have failing : Failing process.run.pipe → Failing { process.run.pipe with
      set := process.run.pipe.set.set index ⟨task.path, .running task'⟩ } := by
    rintro (recorded | ⟨other, member, failed⟩)
    · exact .inl recorded
    · refine .inr ⟨other, ?_, failed⟩
      rw [split] at member
      rw [set]
      rcases List.mem_append.mp member with old | rest
      · exact List.mem_append_left _ old
      · rcases List.mem_cons.mp rest with rfl | later
        · obtain ⟨error, returned⟩ := failed
          rw [FileTask.result?_of_step moved] at returned
          cases returned
        · exact List.mem_append_right _ (List.mem_cons_of_mem _ later)
  rcases FileTask.step_credited operator writes moved with
    ⟨rfl, same⟩ | ⟨prepared, call, uploading, closing, free, rfl, ended⟩
  · refine ⟨steady.credited.keep (.inl ?_) failing, steady.stems⟩
    simp only [credits, set]
    rw [split]
    simp only [List.filterMap_append, List.filterMap_cons, creditedTask, same]
    exact List.Perm.refl _
  · obtain ⟨contents, held, key, object⟩ := exact.closing valid uploading closing
    have idle : task.credited = false := by simp [FileTask.credited, uploading]
    rw [key] at free ⊢
    constructor
    · refine steady.credited.create held steady.grows free ?_ failing
      simp only [credits, set]
      rw [split]
      rcases ended with credited | ⟨error, returned⟩
      · apply Or.inl
        simp only [List.filterMap_append, List.filterMap_cons, creditedTask, credited, idle,
          if_true, Bool.false_eq_true, if_false, ← List.append_assoc]
        exact List.perm_middle
      · refine .inr ⟨?_, .inr ⟨⟨task.path, .running task'⟩, ?_, error, returned⟩⟩
        · have lost : task'.credited = false := by
            simp [FileTask.credited, FileTask.result?_eq_some_iff.mp returned]
          simp only [List.filterMap_append, List.filterMap_cons, creditedTask, lost, idle]
          exact List.Perm.refl _
        · exact List.mem_append_right _ List.mem_cons_self
    · intro other
      by_cases same : other = (deployment.contentHash contents).toObjectKey
      · subst other
        rcases steady.stems (deployment.contentHash contents).toObjectKey with old | new
        · refine .inr ⟨task.path, candidate, contents, held, rfl, by rw [← old]; exact free, ?_⟩
          rw [Function.update_self, object]
        · obtain ⟨_, _, _, _, _, _, present⟩ := new
          rw [free] at present
          cases present
      · rw [Function.update_of_ne same]
        exact steady.stems other

theorem Step.credited (fresh : Unrecorded process.run.phase → process.run.Fresh)
    (steady : Steady deployment start outcomes process)
    (stepped : Step deployment process action next) :
    Credited deployment start (outcomes ++ process.outcomes action) next.run.pipe
        next.world.blobs ∧
      Stems deployment start next.run.files next.world.blobs := by
  by_cases unrecorded : Unrecorded process.run.phase
  · obtain ⟨-, blobs, none, pipe⟩ := stepped.untouched (fresh unrecorded) unrecorded
    obtain ⟨-, initial, rfl⟩ := steady.early unrecorded
    rw [none, pipe, blobs, initial]
    exact ⟨credited_of_fresh _ _, fun _ => .inl rfl⟩
  · rw [stepped.files_eq unrecorded]
    have same : ∀ {pipe : State FileTask CommitCall},
        pipe.set = process.run.pipe.set → pipe.errors = process.run.pipe.errors →
        Credited deployment start (outcomes ++ []) pipe process.world.blobs := by
      intro pipe set errors
      have failing : Failing process.run.pipe → Failing pipe := by
        unfold Failing
        rw [set, errors]
        exact id
      refine steady.credited.keep (.inl ?_) failing
      rw [List.append_nil, credits, set]
      exact List.Perm.refl _
    cases stepped with
    | prologue taken => exact (unrecorded taken.unrecorded).elim
    | ingest taken =>
        cases taken with
        | pipeline phase allowed moved =>
            refine ⟨steady.credited.keep (credits_step allowed moved) ?_, steady.stems⟩
            exact fun failing => failing.step allowed moved
        | worker phase found moved =>
            simp only [Process.outcomes, List.append_nil]
            exact steady.worked found moved
        | commit phase committing recorded moved =>
            obtain ⟨journals, world⟩ := moved.writesJournals
            obtain ⟨-, -, -, -, changed, pipe⟩ := moved.frame
            rw [world, pipe]
            exact ⟨same rfl rfl, steady.stems⟩
    | epilogue taken =>
        obtain ⟨journals, world⟩ := taken.writesJournals
        rw [world]
        cases taken <;> exact ⟨same rfl rfl, steady.stems⟩
    | _ => exact ⟨same rfl rfl, steady.stems⟩

theorem Step.tells (fresh : Unrecorded process.run.phase → process.run.Fresh)
    (steady : Steady deployment start outcomes process)
    (stepped : Step deployment process action next) :
    next.run.Reports (next.run.Tracks deployment start.files next.world.blobs)
      (next.run.Tells deployment start.files next.world.blobs)
      (outcomes ++ process.outcomes action) := by
  by_cases unrecorded : Unrecorded process.run.phase
  · obtain ⟨-, -, none, -⟩ := stepped.untouched (fresh unrecorded) unrecorded
    obtain ⟨-, -, rfl⟩ := steady.early unrecorded
    rw [none]
    exact stepped.reports_of_fresh (fresh unrecorded) unrecorded
  · have grows := stepped.blobs_extends
    unfold Run.Tracks Run.Tells
    rw [stepped.context_eq unrecorded, stepped.files_eq unrecorded]
    apply Step.reports fresh steady.reports _ _ _ _ _ stepped
    · rintro path task ⟨candidate, same, valid, exact⟩
      exact ⟨candidate, same, valid, exact.mono grows⟩
    · rintro path outcome ⟨row, contents, held, truthful⟩
      exact ⟨row, contents, held, truthful.mono grows⟩
    · intro path candidate
      exact ⟨candidate, rfl, ⟨[], trivial⟩, .inl trivial⟩
    · rintro path task outcome ⟨-, rfl, ⟨times, valid⟩, exact⟩ returned
      exact ⟨⟨times, fun info shown => valid.newRow returned shown⟩, exact.truthful returned⟩
    · rintro index inner path task blobs task' rfl - ⟨candidate, rfl, ⟨times, valid⟩, exact⟩ moved
        rfl
      refine ⟨candidate, FileTask.step_path moved,
        ⟨times ++ (FileTask.observationTime? inner).toList, ?_⟩, ?_⟩
      · apply (valid.mono (List.subset_append_left _ _)).step _ moved
        intro now read
        simp [read]
      · rw [steady.files] at moved
        apply exact.step valid _ _ moved
        · simp [Run.context, steady.ingesting, IngestMode.isConnected]
        · simp [Run.context, steady.ingesting, IngestMode.writes]

theorem Step.steady (fresh : Unrecorded process.run.phase → process.run.Fresh)
    (steady : Steady deployment start outcomes process)
    (unedited : ∀ path contents, action ≠ .edit path contents)
    (stepped : Step deployment process action next) :
    Steady deployment start (outcomes ++ process.outcomes action) next where
  ingesting := by rw [stepped.plan_eq, steady.ingesting]
  files := (stepped.sources_eq unedited).trans steady.files
  early unrecorded := by
    have before := stepped.unrecorded unrecorded
    obtain ⟨catalog, blobs, none, -⟩ := stepped.untouched (fresh before) before
    obtain ⟨sameCatalog, sameBlobs, rfl⟩ := steady.early before
    exact ⟨catalog.trans sameCatalog, blobs.trans sameBlobs, none⟩
  grows := steady.grows.trans stepped.blobs_extends
  informed := by
    rw [stepped.plan_eq]
    refine stepped.informed steady.informed fun loading => ?_
    rw [(steady.early (.inl (by rw [loading]; trivial))).1]
  reports := stepped.tells fresh steady
  credited := (stepped.credited fresh steady).1
  stems := (stepped.credited fresh steady).2

end Steady

end Process

/-! ## The result of a run -/

/-- A catalog row apart from its run, its times and the findings of the scan. -/
structure RowContent where
  id : Uuid
  sourceId : Option String
  relativePath : Option String
  contentHash : Option String
  sizeBytes : Int
  objectUri : Option String
  deriving DecidableEq

def RowContent.ofRow (row : CatalogRow) : RowContent where
  id := row.id
  sourceId := row.sourceId
  relativePath := row.relativePath
  contentHash := row.contentHash
  sizeBytes := row.sizeBytes
  objectUri := row.objectUri

/-- The row a candidate is due, unless its content is the last known one. -/
def dueRow? (deployment : Deployment) (plan : RunPlan) (start : World) (path : PathBuf) :
    Option RowContent :=
  match start.files path, normalizeRelativePath (path.stripPrefix plan.root) with
  | some contents, .ok relativePath =>
      let hash := deployment.contentHash contents
      match decide (some (loadCurrentState start.catalog plan.sourceId)) relativePath hash.text with
      | .unchanged => none
      | .observe => some
          { id :=
              observationId deployment.crypto plan.sourceId relativePath (some hash.text) .present
            sourceId := some plan.sourceId
            relativePath := some relativePath
            contentHash := some hash.text
            sizeBytes := contents.bytes.length
            objectUri := some (objectUri deployment.bucket hash) }
  | _, _ => none

def dueRows (deployment : Deployment) (plan : RunPlan) (start : World)
    (candidates : List PathBuf) : List RowContent :=
  candidates.filterMap (dueRow? deployment plan start)

/-- The distinct hashes among the candidates that the store does not have. -/
def missingHashes (deployment : Deployment) (start : World) (candidates : List PathBuf) :
    List ContentHash :=
  ((candidates.filterMap (fileHash deployment start.files)).filter fun hash =>
    (start.blobs hash.toObjectKey).isNone).dedup

structure Result (deployment : Deployment) (plan : RunPlan) (start : World)
    (candidates : List PathBuf) (counts : IngestCounts) (landed : List CatalogRow)
    (blobs : ObjectStore) : Prop where
  rows : (landed.map RowContent.ofRow).Perm (dueRows deployment plan start candidates)
  observed : counts.observed = (dueRows deployment plan start candidates).length
  unchanged : counts.observed + counts.unchanged = candidates.length
  uploaded : counts.uploaded = (missingHashes deployment start candidates).length
  alreadyExists : counts.uploaded + counts.alreadyExists = candidates.length
  grows : WriteOnce.Extends start.blobs blobs
  kept : ∀ path ∈ candidates, ∃ contents,
    start.files path = some contents ∧ Kept deployment blobs contents
  named : ∀ path ∈ candidates, ∃ relativePath,
    normalizeRelativePath (path.stripPrefix plan.root) = .ok relativePath
  stems : Stems deployment start candidates blobs

namespace Process

section Result

variable {deployment : Deployment} {start : World} {outcomes : List (PathBuf × IngestOutcome)}
  {process : Process} {landed : List CatalogRow}

theorem due_of_tells {run : Run} {path : PathBuf} {outcome : IngestOutcome} {blobs : ObjectStore}
    (operator : run.plan.mode.isConnected = true)
    (state : run.state = some (loadCurrentState start.catalog run.plan.sourceId))
    (tells : run.Tells deployment start.files blobs path outcome) :
    (outcomeRow? outcome).map (fun info => RowContent.ofRow (CatalogRow.push info)) =
      dueRow? deployment run.plan start path := by
  obtain ⟨⟨times, row⟩, contents, held, kept, told⟩ := tells
  cases outcome with
  | observed info blob =>
      obtain ⟨hash, relativePath, observes, news⟩ := row info rfl
      obtain ⟨⟨size, -⟩, named⟩ := told
      obtain rfl : hash = deployment.contentHash contents :=
        Option.some.inj (observes.contentHash.symm.trans named)
      have decided := news operator
      rw [show run.context.state = run.state from rfl, state] at decided
      have normalized : normalizeRelativePath (path.stripPrefix run.plan.root) = .ok relativePath :=
        observes.normalized
      have bound := contents.length_lt
      simp only [dueRow?, held, normalized, decided, outcomeRow?, Option.map_some,
        Option.some.injEq]
      simp only [RowContent.ofRow, CatalogRow.push, observes.id, observes.sourceId,
        observes.relativePath, observes.contentHash, observes.objectUri, size, asI64_of_lt bound,
        Option.map_some]
      rfl
  | unchanged blob =>
      obtain ⟨relativePath, normalized, decided⟩ := told
      rw [show run.context.state = run.state from rfl, state] at decided
      rw [show run.context.root = run.plan.root from rfl] at normalized
      simp only [dueRow?, held, normalized, decided, outcomeRow?, Option.map_none]

theorem Steady.rows (steady : Steady deployment start outcomes process)
    (paths : (outcomes.map Prod.fst).Perm process.run.files) :
    ((filesToBatch (outcomeRows outcomes)).map RowContent.ofRow).Perm
      (dueRows deployment process.run.plan start process.run.files) := by
  have each : (filesToBatch (outcomeRows outcomes)).map RowContent.ofRow =
      (outcomes.map Prod.fst).filterMap (dueRow? deployment process.run.plan start) := by
    simp only [filesToBatch, outcomeRows, List.map_filterMap, List.filterMap_map]
    apply List.filterMap_congr
    intro entry member
    have candidate : entry.1 ∈ process.run.files :=
      paths.mem_iff.mp (List.mem_map_of_mem member)
    have state := steady.informed.known.resolve_left (List.ne_nil_of_mem candidate)
    have connected : process.run.plan.mode.isConnected = true := by
      rw [steady.ingesting]
      rfl
    have due := due_of_tells connected state (steady.reports.each entry member)
    simp only [Option.map_map, Function.comp_apply, ← due]
    rfl
  rw [each]
  exact paths.filterMap _

/-- The credits of a run without failures are the missing hashes. -/
theorem Steady.missing (steady : Steady deployment start outcomes process)
    (paths : (outcomes.map Prod.fst).Perm process.run.files)
    (unfailed : ¬ Failing process.run.pipe) (done : process.run.pipe.set = []) :
    (outcomes.countP fun entry => outcomeBlob entry.2 = .uploaded) =
      (missingHashes deployment start process.run.files).length := by
  have credited : credits outcomes process.run.pipe = outcomes.filterMap creditedOutcome := by
    simp [credits, done]
  have number : (credits outcomes process.run.pipe).length =
      outcomes.countP fun entry => outcomeBlob entry.2 = .uploaded := by
    rw [credited, List.length_filterMap_eq_countP]
    apply List.countP_congr
    intro entry member
    simp only [creditedOutcome]
    split <;> simp_all
  have inside : ∀ path ∈ credits outcomes process.run.pipe, path ∈ process.run.files := by
    intro path member
    rw [credited, List.mem_filterMap] at member
    obtain ⟨entry, listed, shown⟩ := member
    simp only [creditedOutcome, Option.ite_none_right_eq_some, Option.some.injEq] at shown
    rw [← shown.2]
    exact paths.mem_iff.mp (List.mem_map_of_mem listed)
  have same : ((credits outcomes process.run.pipe).map (fileHash deployment start.files)).Perm
      ((missingHashes deployment start process.run.files).map some) := by
    apply (List.perm_ext_iff_of_nodup steady.credited.distinct
      ((List.nodup_dedup _).map (Option.some_injective _))).mpr
    intro hash?
    simp only [List.mem_map, List.mem_dedup, List.mem_filter, List.mem_filterMap,
      Option.isNone_iff_eq_none]
    constructor
    · rintro ⟨path, member, rfl⟩
      obtain ⟨hash, hashed, missing, -⟩ := steady.credited.created path member
      exact ⟨hash, ⟨⟨path, inside path member, hashed⟩, missing⟩, hashed.symm⟩
    · rintro ⟨hash, ⟨⟨path, candidate, hashed⟩, missing⟩, rfl⟩
      obtain ⟨entry, listed, rfl⟩ := List.mem_map.mp (paths.mem_iff.mpr candidate)
      obtain ⟨-, contents, held, kept, -⟩ := steady.reports.each entry listed
      simp only [fileHash, held, Option.map_some, Option.some.injEq] at hashed
      subst hash
      rcases steady.credited.covered _ kept with old | owned | failed
      · exact (old missing).elim
      · exact List.mem_map.mp owned
      · exact (unfailed failed).elim
  rw [← number, ← List.length_map (f := fileHash deployment start.files), same.length_eq,
    List.length_map]

theorem Steady.result {counts : IngestCounts} (steady : Steady deployment start outcomes process)
    (succeeded : process.run.Succeeded outcomes landed counts) :
    Result deployment process.run.plan start process.run.files counts landed
      process.world.blobs := by
  have writes : process.run.plan.mode.writes = true := by
    rw [steady.ingesting]
    rfl
  have paths := succeeded.paths
  have rows := steady.rows paths
  have unfailed : ¬ Failing process.run.pipe := by
    simp [Failing, succeeded.clean, succeeded.drained]
  constructor
  · rw [succeeded.delivered writes]
    exact rows
  · rw [succeeded.observed, ← rows.length_eq, List.length_map, filesToBatch, List.length_map]
  · exact succeeded.unchanged
  · rw [succeeded.uploaded, steady.missing paths unfailed succeeded.drained]
  · exact succeeded.alreadyExists
  · exact steady.grows
  · intro path candidate
    obtain ⟨entry, listed, rfl⟩ := List.mem_map.mp (paths.mem_iff.mpr candidate)
    obtain ⟨-, contents, held, kept, -⟩ := steady.reports.each entry listed
    exact ⟨contents, held, kept⟩
  · intro path candidate
    obtain ⟨entry, listed, rfl⟩ := List.mem_map.mp (paths.mem_iff.mpr candidate)
    exact (steady.reports.each entry listed).named
  · exact steady.stems

end Result

section Runs

variable {deployment : Deployment} {plan : RunPlan} {start : World}
  {actions : List ProcessAction} {final : Process}

theorem steady_of_exec (ingesting : plan.mode = .ingest)
    (unedited : ∀ path contents, .edit path contents ∉ actions)
    (exec : (machine deployment).exec ⟨start, Run.start plan⟩ actions = some final) :
    Steady deployment start
      ((machine deployment).observe Process.outcomes ⟨start, Run.start plan⟩ actions) final := by
  refine (machine deployment).exec_induction (motive := fun actions (process : Process) =>
    (∀ path contents, .edit path contents ∉ actions) → Steady deployment start
      ((machine deployment).observe Process.outcomes ⟨start, Run.start plan⟩ actions) process)
    ?_ ?_ exec unedited
  · exact fun _ => steady_start ingesting
  · intro actions middle action next before steady stepped untouched
    rw [(machine deployment).observe_snoc _ before stepped]
    refine (Step.of_step stepped).steady (fresh_of_exec before) (steady ?_) ?_
    · exact fun path contents member => untouched path contents (List.mem_append_left _ member)
    · rintro path contents rfl
      exact untouched path contents (List.mem_append_right _ List.mem_cons_self)

theorem catalog_of_exec
    (exec : (machine deployment).exec ⟨start, Run.start plan⟩ actions = some final) :
    final.world.catalog =
      start.catalog ++ (machine deployment).observe landing ⟨start, Run.start plan⟩ actions := by
  refine (machine deployment).exec_induction (motive := fun actions (process : Process) =>
    process.world.catalog =
      start.catalog ++ (machine deployment).observe landing ⟨start, Run.start plan⟩ actions)
    ?_ ?_ exec
  · simp
  · intro actions middle action next before grown stepped
    rw [(machine deployment).observe_snoc _ before stepped, ← List.append_assoc, ← grown]
    exact (Step.of_step stepped).catalog_eq

theorem result_of_exec {counts : IngestCounts} (ingesting : plan.mode = .ingest)
    (unedited : ∀ path contents, .edit path contents ∉ actions)
    (exec : (machine deployment).exec ⟨start, Run.start plan⟩ actions = some final)
    (success : final.run.success? = some counts) :
    Result deployment plan start final.run.files counts
      ((machine deployment).observe landing ⟨start, Run.start plan⟩ actions)
      final.world.blobs := by
  have result :=
    (steady_of_exec ingesting unedited exec).result (succeeded_of_exec exec success)
  rw [plan_of_exec exec] at result
  exact result

end Runs

end Process

def candidateContents (start : World) (candidates : List PathBuf) : Set (List UInt8) :=
  {bytes | ∃ path ∈ candidates, ∃ contents, start.files path = some contents ∧
    contents.bytes = bytes}

section Compare

variable {deployment : Deployment} {plan plan' : RunPlan} {start : World}
  {candidates candidates' : List PathBuf} {counts counts' : IngestCounts}
  {landed landed' : List CatalogRow} {blobs blobs' : ObjectStore}

theorem Result.blobs_isSome (result : Result deployment plan start candidates counts landed blobs)
    (result' : Result deployment plan' start candidates' counts' landed' blobs')
    (tree : candidates'.Perm candidates) {key : String} (held : blobs key ≠ none) :
    blobs' key ≠ none := by
  rcases result.stems key with old | ⟨path, candidate, contents, read, rfl, -, -⟩
  · obtain ⟨object, stored⟩ := Option.ne_none_iff_exists'.mp held
    rw [old] at stored
    rw [result'.grows _ _ stored]
    simp
  · obtain ⟨other, there, kept⟩ := result'.kept path (tree.mem_iff.mpr candidate)
    rw [read, Option.some.injEq] at there
    exact there ▸ kept

theorem Result.blobs_eq (result : Result deployment plan start candidates counts landed blobs)
    (result' : Result deployment plan' start candidates' counts' landed' blobs')
    (tree : candidates'.Perm candidates)
    (collisionFree : Set.InjOn deployment.crypto.sha256 (candidateContents start candidates)) :
    blobs = blobs' := by
  funext key
  rcases result.stems key with old | ⟨path, candidate, contents, read, rfl, free, stored⟩
  · rcases result'.stems key with old' | ⟨path, candidate, contents, read, rfl, free, stored⟩
    · rw [old, old']
    · have held := result'.blobs_isSome result tree.symm
        (ne_of_eq_of_ne stored (Option.some_ne_none _))
      rw [old, free] at held
      exact (held rfl).elim
  · rcases result'.stems (deployment.contentHash contents).toObjectKey with
      old' | ⟨path', candidate', contents', read', key, -, stored'⟩
    · have held := result.blobs_isSome result' tree
        (ne_of_eq_of_ne stored (Option.some_ne_none _))
      rw [old', free] at held
      exact (held rfl).elim
    · have hashes := congrArg ContentHash.text (ContentHash.toObjectKey_injective key)
      have same : contents.bytes = contents'.bytes := collisionFree
        ⟨path, candidate, contents, read, rfl⟩
        ⟨path', tree.mem_iff.mp candidate', contents', read', rfl⟩ (toLowerHex_injective hashes)
      have object : deployment.object contents = deployment.object contents' := by
        simp [Deployment.object, Deployment.contentHash, same]
      rw [stored, stored', object]

end Compare

/-- Both files in one batch, and in one each. -/
def racedSchedule (runId : Uuid) (now : DateTime) : List ProcessAction :=
  prologueSchedule ["a", "b"] now ++ raceSchedule runId now ++ [.epilogue .exit]

def turnedSchedule (runId : Uuid) (now : DateTime) : List ProcessAction :=
  turnsSchedule runId now ++ acknowledgeSchedule now ++
    ([.await, .drain, .recvClosed].map fun action => .ingest (.pipeline action)) ++
    concludeSchedule now ++ [.epilogue .exit]

open Process in
/-- Scheduling does not change the result: two successful ingest runs from one
starting state, over the same candidates and with files that do not change,
commit the same rows up to run and times, leave the same blobs and report the
same counts, whatever their concurrency, batch size and interleaving. -/
theorem scheduling_does_not_change_the_result
    {deployment : Deployment} {start : World} {plan plan' : RunPlan}
    {actions actions' : List ProcessAction} {final final' : Process}
    {counts counts' : IngestCounts}
    (ingesting : plan.mode = .ingest) (ingesting' : plan'.mode = .ingest)
    (source : plan'.sourceId = plan.sourceId) (root : plan'.root = plan.root)
    (exec : (machine deployment).exec ⟨start, Run.start plan⟩ actions = some final)
    (exec' : (machine deployment).exec ⟨start, Run.start plan'⟩ actions' = some final')
    (tree : final'.run.files.Perm final.run.files)
    (unedited : ∀ path contents, .edit path contents ∉ actions)
    (unedited' : ∀ path contents, .edit path contents ∉ actions')
    (success : final.run.success? = some counts)
    (success' : final'.run.success? = some counts') :
    (∃ landed landed', final.world.catalog = start.catalog ++ landed ∧
        final'.world.catalog = start.catalog ++ landed' ∧
        (landed.map RowContent.ofRow).Perm (landed'.map RowContent.ofRow)) ∧
      (∀ key, final.world.blobs key ≠ none ↔ final'.world.blobs key ≠ none) ∧
      (Set.InjOn deployment.crypto.sha256 (candidateContents start final.run.files) →
        final.world.blobs = final'.world.blobs) ∧
      counts.observed = counts'.observed ∧ counts.unchanged = counts'.unchanged ∧
      counts.uploaded = counts'.uploaded ∧ counts.alreadyExists = counts'.alreadyExists ∧
      counts.uploaded = (missingHashes deployment start final.run.files).length := by
  have result := result_of_exec ingesting unedited exec success
  have result' := result_of_exec ingesting' unedited' exec' success'
  have due : ∀ path, dueRow? deployment plan' start path = dueRow? deployment plan start path := by
    intro path
    simp only [dueRow?, source, root]
  have rows : (dueRows deployment plan' start final'.run.files).Perm
      (dueRows deployment plan start final.run.files) := by
    rw [dueRows, dueRows, funext due]
    exact tree.filterMap _
  have missing : (missingHashes deployment start final'.run.files).Perm
      (missingHashes deployment start final.run.files) :=
    ((tree.filterMap _).filter _).dedup
  have candidates := tree.length_eq
  have observed : counts.observed = counts'.observed := by
    rw [result.observed, result'.observed, rows.length_eq]
  have uploaded : counts.uploaded = counts'.uploaded := by
    rw [result.uploaded, result'.uploaded, missing.length_eq]
  have paths := result.unchanged
  have paths' := result'.unchanged
  have known := result.alreadyExists
  have known' := result'.alreadyExists
  refine ⟨⟨_, _, catalog_of_exec exec, catalog_of_exec exec', ?_⟩, ?_, ?_, observed, by omega,
    uploaded, by omega, result.uploaded⟩
  · exact result.rows.trans (rows.symm.trans result'.rows.symm)
  · exact fun key => ⟨result.blobs_isSome result' tree, result'.blobs_isSome result tree.symm⟩
  · exact result.blobs_eq result' tree

theorem scheduling_does_not_change_the_result_race :
    ∃ final final' counts counts',
      (Process.machine sampleDeployment).exec ⟨sampleWorld, Run.start (samplePlan 1)⟩
        (racedSchedule 1 1000000) = some final ∧
      (Process.machine sampleDeployment).exec ⟨sampleWorld, Run.start (turnsPlan 2)⟩
        (turnedSchedule 2 2000000) = some final' ∧
      final.run.success? = some counts ∧ final'.run.success? = some counts' ∧
      (∀ key, final.world.blobs key ≠ none ↔ final'.world.blobs key ≠ none) ∧
      counts.uploaded = counts'.uploaded ∧ counts.uploaded = 1 := by
  obtain ⟨final, run, shown⟩ := Option.map_eq_some_iff.mp (show
    ((Process.machine sampleDeployment).exec ⟨sampleWorld, Run.start (samplePlan 1)⟩
      (racedSchedule 1 1000000)).map (fun final =>
        (final.run.files, final.run.success?.isSome)) =
      some ([samplePath "a", samplePath "b"], true) by decide +kernel)
  obtain ⟨final', run', shown'⟩ := Option.map_eq_some_iff.mp (show
    ((Process.machine sampleDeployment).exec ⟨sampleWorld, Run.start (turnsPlan 2)⟩
      (turnedSchedule 2 2000000)).map (fun final =>
        (final.run.files, final.run.success?.isSome)) =
      some ([samplePath "a", samplePath "b"], true) by decide +kernel)
  obtain ⟨files, ended⟩ := Prod.mk.injEq .. ▸ shown
  obtain ⟨files', ended'⟩ := Prod.mk.injEq .. ▸ shown'
  obtain ⟨counts, success⟩ := Option.isSome_iff_exists.mp ended
  obtain ⟨counts', success'⟩ := Option.isSome_iff_exists.mp ended'
  have tree : final'.run.files.Perm final.run.files := by rw [files, files']
  obtain ⟨-, blobs, -, -, -, uploaded, -, missing⟩ :=
    scheduling_does_not_change_the_result (by rfl) (by rfl) (by rfl) (by rfl) run run' tree
      (by simp [racedSchedule, raceSchedule, prologueSchedule, hashSchedule, uploadSchedule,
        requestSchedule, acknowledgeSchedule, concludeSchedule])
      (by simp [turnedSchedule, turnsSchedule, prologueSchedule, hashSchedule, uploadSchedule,
        requestSchedule, acknowledgeSchedule, concludeSchedule])
      success success'
  refine ⟨final, final', counts, counts', run, run', success, success', blobs, uploaded, ?_⟩
  rw [missing, files]
  decide +kernel

end AntiEntropator.Ingest
