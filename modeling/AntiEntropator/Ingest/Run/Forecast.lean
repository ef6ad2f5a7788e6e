import AntiEntropator.Ingest.ProcessFile.Forecast
import AntiEntropator.Ingest.Run.Preview
import AntiEntropator.Ingest.Run.Schedules

/-!
# The connected preview predicts the ingest run

Both read the same state, so they observe the same paths.  The preview sees the
store as it was and counts every candidate whose blob is missing; the ingest
run stores each missing blob once.  Candidates that share one are the whole
difference.
-/

namespace AntiEntropator.Ingest

open Lakehouse Pipeline

/-! ## What the preview says -/

def Run.Watches (deployment : Deployment) (start : World) (run : Run) (path : PathBuf)
    (task : FileTask) : Prop :=
  task.path = path ∧ (∃ times, task.Valid deployment run.context times) ∧
    task.Foresees deployment run.context start.files start.blobs

def Run.Foretells (deployment : Deployment) (start : World) (run : Run) (path : PathBuf)
    (outcome : IngestOutcome) : Prop :=
  ∃ contents, start.files path = some contents ∧
    Foretold deployment run.context start.blobs path contents outcome

structure Process.Foreseen (deployment : Deployment) (start : World)
    (outcomes : List (PathBuf × IngestOutcome)) (process : Process) : Prop where
  previewing : process.run.plan.mode = .dryRun
  world : process.world = start
  early : Process.Unrecorded process.run.phase → outcomes = []
  informed : Process.Informed (loadCurrentState start.catalog process.run.plan.sourceId) process.run
  reports : process.run.Reports (process.run.Watches deployment start)
    (process.run.Foretells deployment start) outcomes

namespace Process

section Foreseen

variable {deployment : Deployment} {start : World} {outcomes : List (PathBuf × IngestOutcome)}
  {process next : Process} {action : ProcessAction}

theorem foreseen_start {plan : RunPlan} (previewing : plan.mode = .dryRun) :
    Foreseen deployment start [] ⟨start, Run.start plan⟩ where
  previewing := previewing
  world := rfl
  early _ := rfl
  informed := informed_start (by rw [previewing]; rfl) _
  reports := ⟨(Run.fresh_start plan).judged, by simp⟩

theorem Step.foretells (fresh : Unrecorded process.run.phase → process.run.Fresh)
    (foreseen : Foreseen deployment start outcomes process)
    (stepped : Step deployment process action next) :
    next.run.Reports (next.run.Watches deployment start) (next.run.Foretells deployment start)
      (outcomes ++ process.outcomes action) := by
  by_cases unrecorded : Unrecorded process.run.phase
  · obtain ⟨-, -, none, -⟩ := stepped.untouched (fresh unrecorded) unrecorded
    rw [none, foreseen.early unrecorded]
    exact stepped.reports_of_fresh (fresh unrecorded) unrecorded
  · unfold Run.Watches Run.Foretells
    rw [stepped.context_eq unrecorded]
    apply Step.reports fresh foreseen.reports _ _ _ _ _ stepped
    · exact fun path task watches => watches
    · exact fun path outcome foretells => foretells
    · exact fun path candidate => ⟨rfl, ⟨[], trivial⟩, .inl ⟨trivial, .inl trivial⟩⟩
    · rintro path task outcome ⟨rfl, -, foresees⟩ returned
      exact foresees.foretold returned
    · rintro index inner path task blobs task' rfl - ⟨rfl, ⟨times, valid⟩, foresees⟩ moved -
      refine ⟨FileTask.step_path moved,
        ⟨times ++ (FileTask.observationTime? inner).toList, ?_⟩, ?_⟩
      · apply (valid.mono (List.subset_append_left _ _)).step _ moved
        intro now read
        simp [read]
      · rw [foreseen.world] at moved
        apply foresees.step valid _ _ moved
        · simp [Run.context, foreseen.previewing, IngestMode.isConnected]
        · simp [Run.context, foreseen.previewing, IngestMode.writes]

theorem Step.foreseen (fresh : Unrecorded process.run.phase → process.run.Fresh)
    (previews : process.run.Previews) (foreseen : Foreseen deployment start outcomes process)
    (unedited : ∀ path contents, action ≠ .edit path contents)
    (stepped : Step deployment process action next) :
    Foreseen deployment start (outcomes ++ process.outcomes action) next where
  previewing := by rw [stepped.plan_eq, foreseen.previewing]
  world := by
    have preview : process.run.plan.mode.writes = false := by rw [foreseen.previewing]; rfl
    obtain ⟨-, files, same⟩ := stepped.previews preview fresh previews
    have kept : files = process.world.files := by
      simpa only [same] using stepped.sources_eq unedited
    rw [same, kept, foreseen.world]
  early unrecorded := by
    have before := stepped.unrecorded unrecorded
    obtain ⟨-, -, none, -⟩ := stepped.untouched (fresh before) before
    rw [none, foreseen.early before, List.append_nil]
  informed := by
    rw [stepped.plan_eq]
    refine stepped.informed foreseen.informed fun loading => ?_
    rw [foreseen.world]
  reports := stepped.foretells fresh foreseen

end Foreseen

theorem foreseen_of_exec {deployment : Deployment} {plan : RunPlan} {start : World}
    {actions : List ProcessAction} {final : Process} (previewing : plan.mode = .dryRun)
    (unedited : ∀ path contents, .edit path contents ∉ actions)
    (exec : (machine deployment).exec ⟨start, Run.start plan⟩ actions = some final) :
    Foreseen deployment start
      ((machine deployment).observe Process.outcomes ⟨start, Run.start plan⟩ actions) final := by
  have preview : plan.mode.writes = false := by rw [previewing]; rfl
  refine (machine deployment).exec_induction (motive := fun actions (process : Process) =>
    (∀ path contents, .edit path contents ∉ actions) → Foreseen deployment start
      ((machine deployment).observe Process.outcomes ⟨start, Run.start plan⟩ actions) process)
    ?_ ?_ exec unedited
  · exact fun _ => foreseen_start previewing
  · intro actions middle action next before foreseen stepped untouched
    rw [(machine deployment).observe_snoc _ before stepped]
    refine (Step.of_step stepped).foreseen (fresh_of_exec before)
      (previews_of_exec preview before).1 (foreseen ?_) ?_
    · exact fun path contents member => untouched path contents (List.mem_append_left _ member)
    · rintro path contents rfl
      exact untouched path contents (List.mem_append_right _ List.mem_cons_self)

end Process

/-! ## Preview and ingest run -/

def observedPaths (outcomes : List (PathBuf × IngestOutcome)) : List PathBuf :=
  (outcomes.filter fun entry => (outcomeRow? entry.2).isSome).map Prod.fst

theorem length_observedPaths (outcomes : List (PathBuf × IngestOutcome)) :
    (observedPaths outcomes).length = (outcomeRows outcomes).length := by
  rw [observedPaths, List.length_map, ← List.countP_eq_length_filter, outcomeRows,
    List.length_filterMap_eq_countP]

def missing (deployment : Deployment) (start : World) (path : PathBuf) : Bool :=
  (fileHash deployment start.files path).any fun hash => (start.blobs hash.toObjectKey).isNone

/-- The hashes that the store does not have, candidate by candidate. -/
def absentHashes (deployment : Deployment) (start : World) (candidates : List PathBuf) :
    List ContentHash :=
  (candidates.filterMap (fileHash deployment start.files)).filter fun hash =>
    (start.blobs hash.toObjectKey).isNone

section Paths

variable {deployment : Deployment} {plan : RunPlan} {start : World} {candidates : List PathBuf}
  {outcomes : List (PathBuf × IngestOutcome)}

theorem observedPaths_perm (paths : (outcomes.map Prod.fst).Perm candidates)
    (due : ∀ entry ∈ outcomes, (outcomeRow? entry.2).isSome =
      (dueRow? deployment plan start entry.1).isSome) :
    (observedPaths outcomes).Perm
      (candidates.filter fun path => (dueRow? deployment plan start path).isSome) := by
  have same : observedPaths outcomes =
      (outcomes.map Prod.fst).filter fun path => (dueRow? deployment plan start path).isSome := by
    rw [observedPaths, List.filter_map]
    exact congrArg _ (List.filter_congr due)
  rw [same]
  exact paths.filter _

theorem isSome_dueRow?_iff {path : PathBuf} {contents : Contents} {relativePath : String}
    (held : start.files path = some contents)
    (normalized : normalizeRelativePath (path.stripPrefix plan.root) = .ok relativePath) :
    (dueRow? deployment plan start path).isSome = true ↔
      decide (some (loadCurrentState start.catalog plan.sourceId)) relativePath
        (deployment.contentHash contents).text = .observe := by
  simp only [dueRow?, held, normalized]
  split
  next unchanged => simp [unchanged]
  next observe => simp [observe]

theorem map_absentHashes (candidates : List PathBuf) :
    (absentHashes deployment start candidates).map some =
      (candidates.filter (missing deployment start)).map (fileHash deployment start.files) := by
  induction candidates with
  | nil => rfl
  | cons path candidates inductionHypothesis =>
      simp only [absentHashes] at inductionHypothesis ⊢
      cases hashed : fileHash deployment start.files path with
      | none => simpa [missing, hashed] using inductionHypothesis
      | some hash =>
          cases free : (start.blobs hash.toObjectKey).isNone <;>
            simpa [missing, hashed, free] using inductionHypothesis

theorem length_absentHashes : (absentHashes deployment start candidates).length =
    candidates.countP (missing deployment start) := by
  have same := congrArg List.length (@map_absentHashes deployment start candidates)
  rwa [List.length_map, List.length_map, ← List.countP_eq_length_filter] at same

theorem length_missingHashes_le : (missingHashes deployment start candidates).length ≤
    candidates.countP (missing deployment start) := by
  rw [← length_absentHashes]
  exact (List.dedup_sublist _).length_le

/-- All are distinct exactly if no two candidates share a missing hash. -/
theorem length_missingHashes_eq_iff (distinct : candidates.Nodup) :
    (missingHashes deployment start candidates).length =
        candidates.countP (missing deployment start) ↔
      ∀ path ∈ candidates, ∀ other ∈ candidates, missing deployment start path = true →
        fileHash deployment start.files path = fileHash deployment start.files other →
        path = other := by
  have unrepeated : (missingHashes deployment start candidates).length =
      candidates.countP (missing deployment start) ↔
        (absentHashes deployment start candidates).Nodup := by
    rw [← length_absentHashes]
    constructor
    · intro same
      exact List.dedup_eq_self.mp ((List.dedup_sublist _).eq_of_length same)
    · intro nodup
      exact congrArg List.length nodup.dedup
  rw [unrepeated, ← List.nodup_map_iff (Option.some_injective _), map_absentHashes,
    List.nodup_map_iff_inj_on (distinct.filter _)]
  constructor
  · intro injective path member other member' free same
    have free' : missing deployment start other = true := by
      rw [missing, ← same]
      exact free
    exact injective path (List.mem_filter.mpr ⟨member, free⟩) other
      (List.mem_filter.mpr ⟨member', free'⟩) same
  · intro unshared path member other member' same
    exact unshared path (List.mem_of_mem_filter member) other (List.mem_of_mem_filter member')
      (List.mem_filter.mp member).2 same

end Paths

section Outcomes

variable {deployment : Deployment} {start : World}
  {outcomes : List (PathBuf × IngestOutcome)} {process : Process}

theorem Process.Foreseen.due (foreseen : Process.Foreseen deployment start outcomes process)
    (paths : (outcomes.map Prod.fst).Perm process.run.files) :
    ∀ entry ∈ outcomes,
      (outcomeRow? entry.2).isSome = (dueRow? deployment process.run.plan start entry.1).isSome ∧
        (outcomeBlob entry.2 = .uploaded ↔ missing deployment start entry.1 = true) := by
  intro entry member
  have candidate := paths.mem_iff.mp (List.mem_map_of_mem member)
  have state := foreseen.informed.known.resolve_left (List.ne_nil_of_mem candidate)
  obtain ⟨contents, held, known, relativePath, normalized, observed⟩ :=
    foreseen.reports.each entry member
  constructor
  · rw [Bool.eq_iff_iff, observed, isSome_dueRow?_iff held normalized,
      show process.run.context.state = process.run.state from rfl, state]
  · simp [known, Kept, missing, fileHash, held]

theorem Process.Steady.due (steady : Process.Steady deployment start outcomes process)
    (paths : (outcomes.map Prod.fst).Perm process.run.files) :
    ∀ entry ∈ outcomes, (outcomeRow? entry.2).isSome =
      (dueRow? deployment process.run.plan start entry.1).isSome := by
  intro entry member
  have candidate := paths.mem_iff.mp (List.mem_map_of_mem member)
  have state := steady.informed.known.resolve_left (List.ne_nil_of_mem candidate)
  have connected : process.run.plan.mode.isConnected = true := by
    rw [steady.ingesting]
    rfl
  rw [← Process.due_of_tells connected state (steady.reports.each entry member), Option.isSome_map]

end Outcomes

open Process in
/-- The connected preview predicts the ingest run: from one starting state, over
the same candidates and with files that do not change, both observe the same
paths; the preview counts every candidate whose blob is missing, the ingest run
every missing blob, and all other candidates are counted as stored. -/
theorem preview_predicts_ingest {deployment : Deployment} {start : World} {plan plan' : RunPlan}
    {actions actions' : List ProcessAction} {final final' : Process}
    {counts counts' : IngestCounts} (previewing : plan.mode = .dryRun)
    (ingesting : plan'.mode = .ingest) (source : plan'.sourceId = plan.sourceId)
    (root : plan'.root = plan.root)
    (exec : (machine deployment).exec ⟨start, Run.start plan⟩ actions = some final)
    (exec' : (machine deployment).exec ⟨start, Run.start plan'⟩ actions' = some final')
    (tree : final'.run.files.Perm final.run.files)
    (unedited : ∀ path contents, .edit path contents ∉ actions)
    (unedited' : ∀ path contents, .edit path contents ∉ actions')
    (success : final.run.success? = some counts)
    (success' : final'.run.success? = some counts') :
    counts.observed = counts'.observed ∧ counts.unchanged = counts'.unchanged ∧
      (observedPaths
          ((machine deployment).observe outcomes ⟨start, Run.start plan⟩ actions)).Perm
        (observedPaths
          ((machine deployment).observe outcomes ⟨start, Run.start plan'⟩ actions')) ∧
      counts.uploaded = final.run.files.countP (missing deployment start) ∧
      counts'.uploaded = (missingHashes deployment start final.run.files).length ∧
      counts'.uploaded ≤ counts.uploaded ∧
      (counts'.uploaded = counts.uploaded ↔
        ∀ path ∈ final.run.files, ∀ other ∈ final.run.files,
          missing deployment start path = true →
          fileHash deployment start.files path = fileHash deployment start.files other →
          path = other) ∧
      counts.uploaded + counts.alreadyExists = counts'.uploaded + counts'.alreadyExists := by
  have foreseen := foreseen_of_exec previewing unedited exec
  have steady := steady_of_exec ingesting unedited' exec'
  have result' := result_of_exec ingesting unedited' exec' success'
  obtain ⟨paths, observed, unchanged, uploaded, alreadyExists, -⟩ := succeeded_of_exec exec success
  obtain ⟨paths', observed', unchanged', uploaded', alreadyExists', -⟩ :=
    succeeded_of_exec exec' success'
  have samePlan := plan_of_exec exec
  have samePlan' := plan_of_exec exec'
  have due : ∀ path, dueRow? deployment plan' start path = dueRow? deployment plan start path := by
    intro path
    simp only [dueRow?, source, root]
  have seen := observedPaths_perm paths fun entry member => (foreseen.due paths entry member).1
  have seen' := observedPaths_perm paths' (steady.due paths')
  rw [samePlan] at seen
  rw [samePlan', funext due] at seen'
  have same := seen.trans ((tree.filter _).symm.trans seen'.symm)
  have length := tree.length_eq
  have predicted : counts.uploaded = final.run.files.countP (missing deployment start) := by
    rw [uploaded, ← paths.countP_eq, List.countP_map]
    refine List.countP_congr fun entry member => ?_
    simp [(foreseen.due paths entry member).2]
  have created : counts'.uploaded = (missingHashes deployment start final.run.files).length := by
    rw [result'.uploaded]
    exact ((tree.filterMap _).filter _).dedup.length_eq
  have equal : counts.observed = counts'.observed := by
    rw [observed, observed', ← length_observedPaths, ← length_observedPaths, same.length_eq]
  refine ⟨equal, by omega, same, predicted, created, ?_, ?_, by omega⟩
  · rw [predicted, created]
    exact length_missingHashes_le
  · rw [predicted, created]
    exact length_missingHashes_eq_iff (ends_of_exec exec).1

def previewSchedule (runId : Uuid) (now : DateTime) : List ProcessAction :=
  ([.proceed, .proceed, .proceed, .proceed, .loadState, .list, .report,
    .collect [samplePath "a", samplePath "b"]] : List PrologueAction).map .prologue ++
    ([.spawn, .spawn, .await].map fun action => .ingest (.pipeline action)) ++
    hashSchedule 1 now ++ hashSchedule 0 now ++
    ([.finish 1 (.result (.ok (.observed { sampleRow runId "b" now with ingestedAt := none }
        .uploaded))), .join 1, .await,
      .finish 0 (.result (.ok (.observed { sampleRow runId "a" now with ingestedAt := none }
        .uploaded))), .join 0, .await, .drain].map fun action => .ingest (.pipeline action)) ++
    [.epilogue (.conclude now)]

/-- Two files with one content: the preview counts both, the run stores one blob. -/
theorem preview_predicts_ingest_shared :
    ∃ final final' counts counts',
      (Process.machine sampleDeployment).exec
          ⟨sampleWorld, Run.start { samplePlan 1 with mode := .dryRun }⟩
          (previewSchedule 1 1000000) = some final ∧
      (Process.machine sampleDeployment).exec ⟨sampleWorld, Run.start (samplePlan 2)⟩
        (racedSchedule 2 2000000) = some final' ∧
      final.run.success? = some counts ∧ final'.run.success? = some counts' ∧
      counts.observed = counts'.observed ∧ counts.uploaded = 2 ∧ counts'.uploaded = 1 := by
  obtain ⟨final, run, shown⟩ := Option.map_eq_some_iff.mp (show
    ((Process.machine sampleDeployment).exec
        ⟨sampleWorld, Run.start { samplePlan 1 with mode := .dryRun }⟩
        (previewSchedule 1 1000000)).map (fun final =>
          (final.run.files, final.run.success?.isSome)) =
      some ([samplePath "a", samplePath "b"], true) by decide +kernel)
  obtain ⟨final', run', shown'⟩ := Option.map_eq_some_iff.mp (show
    ((Process.machine sampleDeployment).exec ⟨sampleWorld, Run.start (samplePlan 2)⟩
      (racedSchedule 2 2000000)).map (fun final =>
        (final.run.files, final.run.success?.isSome)) =
      some ([samplePath "a", samplePath "b"], true) by decide +kernel)
  obtain ⟨files, ended⟩ := Prod.mk.injEq .. ▸ shown
  obtain ⟨files', ended'⟩ := Prod.mk.injEq .. ▸ shown'
  obtain ⟨counts, success⟩ := Option.isSome_iff_exists.mp ended
  obtain ⟨counts', success'⟩ := Option.isSome_iff_exists.mp ended'
  have tree : final'.run.files.Perm final.run.files := by rw [files, files']
  obtain ⟨observed, -, -, previewed, created, -⟩ :=
    preview_predicts_ingest (by rfl) (by rfl) (by rfl) (by rfl) run run' tree
      (by simp [previewSchedule, hashSchedule])
      (by simp [racedSchedule, raceSchedule, prologueSchedule, hashSchedule, uploadSchedule,
        requestSchedule, acknowledgeSchedule, concludeSchedule])
      success success'
  refine ⟨final, final', counts, counts', run, run', success, success', observed, ?_, ?_⟩
  · rw [previewed, files]
    decide +kernel
  · rw [created, files]
    decide +kernel

end AntiEntropator.Ingest
