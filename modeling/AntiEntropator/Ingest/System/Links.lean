import AntiEntropator.Ingest.Run.Honesty
import AntiEntropator.Ingest.System

/-!
# No dangling catalog row

A row is sent to the catalog only after the blob it names is stored, and blobs
stay: in every state of every interleaving of ingest runs, each catalog row
references an object of its size under the key of its hash.
-/

namespace AntiEntropator.Ingest

open Lakehouse

/-- The row names a stored object: by its hash, and of its size. -/
def RowLinked (deployment : Deployment) (blobs : ObjectStore) (row : CatalogRow) : Prop :=
  ∃ hash object, row.contentHash = some hash.text ∧
    row.objectUri = some (objectUri deployment.bucket hash) ∧
    blobs hash.toObjectKey = some object ∧ row.sizeBytes = object.bytes.length

theorem RowLinked.mono {deployment : Deployment} {blobs later : ObjectStore} {row : CatalogRow}
    (linked : RowLinked deployment blobs row) (grows : WriteOnce.Extends blobs later) :
    RowLinked deployment later row := by
  obtain ⟨hash, object, named, uri, held, size⟩ := linked
  exact ⟨hash, object, named, uri, grows _ _ held, size⟩

theorem rowLinked_push {deployment : Deployment} {ctx : FileContext} {times : List DateTime}
    {path : PathBuf} {info : FileInfo} {blobs : ObjectStore}
    (row : NewRow deployment ctx times path info) (stored : Stored blobs info) :
    RowLinked deployment blobs (CatalogRow.push info) := by
  obtain ⟨hash, relativePath, observes, -⟩ := row
  obtain ⟨other, object, named, held, size⟩ := stored
  rw [observes.contentHash, Option.some.injEq] at named
  subst other
  refine ⟨hash, object, ?_, observes.objectUri, held, ?_⟩
  · simp [CatalogRow.push, observes.contentHash]
  · simp only [CatalogRow.push]
    rw [asI64_of_lt observes.size, size]

/-- Like `Built`, and every row's blob is stored. -/
def Run.Linked (deployment : Deployment) (times : List DateTime) (blobs : ObjectStore)
    (run : Run) : Prop :=
  run.Carries
    (fun path task =>
      task.path = path ∧ task.Valid deployment run.context times ∧ task.Linked blobs)
    (fun path info => NewRow deployment run.context times path info ∧ Stored blobs info)

theorem Run.Linked.mono {deployment : Deployment} {times more : List DateTime}
    {blobs later : ObjectStore} {run : Run} (linked : run.Linked deployment times blobs)
    (grows : WriteOnce.Extends blobs later) (read : times ⊆ more) :
    run.Linked deployment more later := by
  apply Run.Carries.mono linked
  · rintro path task ⟨same, valid, tied⟩
    exact ⟨same, valid.mono read, tied.mono grows⟩
  · rintro path info ⟨row, stored⟩
    exact ⟨row.mono read, stored.mono grows⟩

/-- No stored object collides with one of these streams. -/
def CollisionFree (deployment : Deployment) (streams : List (List UInt8))
    (blobs : ObjectStore) : Prop :=
  ∀ bytes ∈ streams, ∀ key object, blobs key = some object →
    deployment.crypto.sha256 object.bytes = deployment.crypto.sha256 bytes →
    object.bytes = bytes

theorem CollisionFree.mono {deployment : Deployment} {streams more : List (List UInt8)}
    {blobs later : ObjectStore} (free : CollisionFree deployment more later)
    (fewer : streams ⊆ more) (grows : WriteOnce.Extends blobs later) :
    CollisionFree deployment streams blobs :=
  fun bytes member key object held => free bytes (fewer member) key object (grows _ _ held)

namespace Process

def closings (process : Process) : ProcessAction → List (List UInt8)
  | .ingest (.worker index action) =>
      match process.run.pipe.set[index]? with
      | some ⟨_, .running task⟩ => (task.closingStream? action).toList
      | _ => []
  | _ => []

theorem Step.contentAddressed {deployment : Deployment} {times : List DateTime}
    {process next : Process} {action : ProcessAction}
    (built : process.run.Built deployment times)
    (addressed : ContentAddressed deployment process.world.blobs)
    (stepped : Step deployment process action next) :
    ContentAddressed deployment next.world.blobs := by
  rcases stepped.blobs_cases with same | ⟨index, inner, path, task, task', -, found, moved⟩
  · rw [same]
    exact addressed
  · obtain ⟨-, -, valid⟩ := built.judged.tasks.running path task (List.mem_of_getElem? found)
    exact FileTask.contentAddressed_step addressed valid moved

theorem Step.linked {deployment : Deployment} {times : List DateTime} {process next : Process}
    {action : ProcessAction} (fresh : Unrecorded process.run.phase → process.run.Fresh)
    (linked : process.run.Linked deployment times process.world.blobs)
    (ingesting : process.run.plan.mode = .ingest)
    (addressed : ContentAddressed deployment process.world.blobs)
    (free : CollisionFree deployment (process.closings action) process.world.blobs)
    (stepped : Step deployment process action next) :
    next.run.Linked deployment (times ++ process.readings action) next.world.blobs := by
  have grows := stepped.blobs_extends
  by_cases unrecorded : Unrecorded process.run.phase
  · exact stepped.carries_of_fresh (fresh unrecorded) unrecorded
  · have context := stepped.context_eq unrecorded
    unfold Run.Linked
    rw [context]
    have more : times ⊆ times ++ process.readings action := List.subset_append_left _ _
    apply Step.carries fresh linked _ _ _ _ _ stepped
    · rintro path task ⟨same, valid, tied⟩
      exact ⟨same, valid.mono more, tied.mono grows⟩
    · rintro path info ⟨row, stored⟩
      exact ⟨row.mono more, stored.mono grows⟩
    · intro path candidate
      exact ⟨rfl, trivial, trivial⟩
    · rintro path task outcome ⟨rfl, valid, tied⟩ returned info shown
      exact ⟨valid.newRow returned shown, tied.stored returned shown⟩
    · rintro index inner path task blobs task' rfl found ⟨rfl, valid, tied⟩ moved rfl
      refine ⟨FileTask.step_path moved, (valid.mono more).step ?_ moved, ?_⟩
      · intro now read
        apply List.mem_append_right
        simp [readings, read]
      · apply tied.step valid _ _ addressed _ moved
        · simp [Run.context, ingesting, IngestMode.isConnected]
        · simp [Run.context, ingesting, IngestMode.writes]
        · intro bytes closing
          exact free bytes (by simp [closings, found, closing])

theorem linked_landing {deployment : Deployment} {times : List DateTime} {process : Process}
    {blobs : ObjectStore} (linked : process.run.Linked deployment times blobs)
    (action : ProcessAction) :
    ∀ row ∈ process.landing action, RowLinked deployment blobs row := by
  intro row member
  unfold landing at member
  split at member
  · split at member
    next rows flying =>
      obtain ⟨batch, shown, each⟩ := linked.request _ flying
      rw [show rows = filesToBatch batch from shown] at member
      obtain ⟨info, inside, rfl⟩ := List.mem_map.mp member
      obtain ⟨path, built, stored⟩ := each info inside
      exact rowLinked_push built stored
    next => cases member
  · cases member

end Process

namespace System

structure Linked (deployment : Deployment) (system : System) : Prop where
  addressed : ContentAddressed deployment system.world.blobs
  runs : ∀ run ∈ system.runs, ∃ times, run.Linked deployment times system.world.blobs
  rows : ∀ row ∈ system.world.catalog, RowLinked deployment system.world.blobs row

theorem Linked.step {deployment : Deployment} {system next : System} {action : SystemAction}
    (linked : Linked deployment system) (sound : ∀ run ∈ system.runs, Sound deployment run)
    (ingesting : ∀ run ∈ system.runs, run.plan.mode = .ingest)
    (free : CollisionFree deployment (system.view Process.closings action) system.world.blobs)
    (stepped : Step deployment system action next) : Linked deployment next := by
  cases stepped with
  | begin =>
      refine ⟨linked.addressed, ?_, linked.rows⟩
      intro run member
      rcases List.mem_append.mp member with old | new
      · exact linked.runs run old
      · rw [List.mem_singleton.mp new]
        exact ⟨[], (Run.fresh_start _).carries⟩
  | @act index run inner process found taken =>
      have member := List.mem_of_getElem? found
      obtain ⟨times, carried⟩ := linked.runs run member
      obtain ⟨read, built⟩ := (sound run member).built
      have grows : WriteOnce.Extends system.world.blobs process.world.blobs := taken.blobs_extends
      have closing : CollisionFree deployment (Process.closings ⟨system.world, run⟩ inner)
          system.world.blobs := by simpa only [view, found] using free
      constructor
      · exact taken.contentAddressed built linked.addressed
      · intro other inside
        rcases List.mem_or_eq_of_mem_set inside with old | rfl
        · obtain ⟨earlier, kept⟩ := linked.runs other old
          exact ⟨earlier, kept.mono grows (List.Subset.refl _)⟩
        · exact ⟨_, taken.linked (sound run member).fresh carried (ingesting run member)
            linked.addressed closing⟩
      · intro row inside
        rw [taken.catalog_eq] at inside
        rcases List.mem_append.mp inside with old | landed
        · exact (linked.rows row old).mono grows
        · exact (Process.linked_landing carried inner row landed).mono grows

theorem blobs_extends_of_exec {deployment : Deployment} {system final : System}
    {actions : List SystemAction}
    (exec : (machine deployment).exec system actions = some final) :
    WriteOnce.Extends system.world.blobs final.world.blobs := by
  apply (machine deployment).exec_relation
    (fun first last => WriteOnce.Extends first.world.blobs last.world.blobs) _ _ _ exec
  · intro system
    exact WriteOnce.Extends.refl _
  · intro first second third before after
    exact before.trans after
  · intro system action next stepped
    cases Step.of_step stepped with
    | begin => exact WriteOnce.Extends.refl _
    | act found taken => exact taken.blobs_extends

theorem linked_of_exec {deployment : Deployment} {world : World} {actions : List SystemAction}
    {final : System} (ingesting : ∀ plan, .begin plan ∈ actions → plan.mode = .ingest)
    (start : Linked deployment ⟨world, []⟩)
    (exec : (machine deployment).exec ⟨world, []⟩ actions = some final)
    (free : CollisionFree deployment
      ((machine deployment).observe (view Process.closings) ⟨world, []⟩ actions)
      final.world.blobs) : Linked deployment final := by
  have tracked := (machine deployment).exec_induction
    (motive := fun actions system =>
      (∀ plan, .begin plan ∈ actions → plan.mode = .ingest) →
      CollisionFree deployment
        ((machine deployment).observe (view Process.closings) ⟨world, []⟩ actions)
        system.world.blobs → Linked deployment system) ?_ ?_ exec
  · exact tracked ingesting free
  · intro _ _
    exact start
  · intro actions middle action next before linked stepped modes collisions
    have single : (machine deployment).exec middle [action] = some next := by
      simp [GuardedMachine.exec, stepped]
    have grows := blobs_extends_of_exec single
    rw [(machine deployment).observe_snoc _ before stepped] at collisions
    have earlier : ∀ plan, .begin plan ∈ actions → plan.mode = .ingest :=
      fun plan member => modes plan (List.mem_append_left _ member)
    apply (linked earlier (collisions.mono (List.subset_append_left _ _) grows)).step
    · exact sound_of_exec before
    · intro run member
      exact earlier _ (begun_of_exec before run member)
    · exact collisions.mono (List.subset_append_right _ _) grows
    · exact Step.of_step stepped

end System

/-- Start where every catalog row is linked and objects hash to their keys.
Then in every state that any number of ingest runs reaches, however they are
interleaved, killed or fail, and whatever happens to their files, every catalog
row is linked; unless a stored object collides with a stream that was uploaded. -/
theorem no_catalog_row_dangles {deployment : Deployment} {world : World}
    {actions : List SystemAction} {final : System}
    (ingesting : ∀ plan, .begin plan ∈ actions → plan.mode = .ingest)
    (linked : ∀ row ∈ world.catalog, RowLinked deployment world.blobs row)
    (addressed : ContentAddressed deployment world.blobs)
    (exec : (System.machine deployment).exec ⟨world, []⟩ actions = some final)
    (collisionFree : CollisionFree deployment
      ((System.machine deployment).observe (System.view Process.closings) ⟨world, []⟩ actions)
      final.world.blobs) :
    ∀ row ∈ final.world.catalog, RowLinked deployment final.world.blobs row :=
  (System.linked_of_exec ingesting ⟨addressed, by simp, linked⟩ exec collisionFree).rows

theorem sampleCrypto_hello {bytes : List UInt8}
    (same : sampleCrypto.sha256 bytes = sampleCrypto.sha256 (utf8Bytes "hello world")) :
    bytes = utf8Bytes "hello world" := by
  by_contra differs
  simp only [sampleCrypto, if_neg differs, if_true] at same
  split at same <;> cases same

/-- Two runs find the same blob missing; the first one stores it, and the row of
the second lands. -/
def lostRaceSchedule : List SystemAction :=
  [.begin (samplePlan 1), .begin (samplePlan 2)] ++
    ((oneFileSchedule 1 1000000).take 9).map (.act 0) ++
    ((oneFileSchedule 2 2000000).take 17).map (.act 1) ++
    ((oneFileSchedule 1 1000000).drop 9).map (.act 0) ++
    (uploadSchedule 0 2000000 ++ deliverSchedule (sampleRow 2 "a" 2000000) .existing ++
      requestSchedule 2000000 ++ [ProcessAction.land, .kill]).map (.act 1)

theorem no_catalog_row_dangles_lost_race :
    ∃ final row, (System.machine sampleDeployment).exec ⟨sampleWorld, []⟩ lostRaceSchedule =
        some final ∧
      final.world.catalog = [row] ∧ row.runId = some 2 ∧ row.sizeBytes = 11 ∧
      RowLinked sampleDeployment final.world.blobs row := by
  obtain ⟨final, run, shown⟩ := Option.map_eq_some_iff.mp (show
    ((System.machine sampleDeployment).exec ⟨sampleWorld, []⟩ lostRaceSchedule).map (fun final =>
      (final.world.catalog, (System.machine sampleDeployment).observe
        (System.view Process.closings) ⟨sampleWorld, []⟩ lostRaceSchedule)) =
      some ([CatalogRow.push (sampleRow 2 "a" 2000000)],
        [utf8Bytes "hello world", utf8Bytes "hello world"]) by decide +kernel)
  obtain ⟨catalog, streams⟩ := Prod.mk.injEq .. ▸ shown
  have linked := no_catalog_row_dangles
    (by simp [lostRaceSchedule, samplePlan, -List.map_take, -List.map_drop])
    (by simp [sampleWorld]) (fun _ _ held => by cases held) run (by
      rw [streams]
      intro bytes member key object held same
      have hello : bytes = utf8Bytes "hello world" := by simpa using member
      rw [hello] at same ⊢
      exact sampleCrypto_hello same)
  refine ⟨final, _, run, catalog, rfl, by decide +kernel, linked _ ?_⟩
  rw [catalog]
  exact List.mem_singleton.mpr rfl

end AntiEntropator.Ingest
