import AntiEntropator.Ingest.Pipeline.Accounting
import AntiEntropator.Ingest.Pipeline.Outcomes

/-!
# Bytes of the uploaded blobs

The path axis and the blob axis of the counts combine freely per file, but only
one arm of `tally` adds to `bytes`.  What it measures is the blobs uploaded for
observed paths; a blob restored for an unchanged path is counted as uploaded
and not measured.
-/

namespace AntiEntropator.Ingest.Pipeline

variable {Future Call : Type}

/-- What `tally` adds to `bytes`. -/
def talliedBytes : IngestOutcome → Nat
  | .observed info .uploaded => info.sizeBytes
  | _ => 0

theorem tally_bytes (counts : IngestCounts) (outcome : IngestOutcome) :
    (tally counts outcome).1.bytes = counts.bytes + UInt64.ofNat (talliedBytes outcome) := by
  rcases outcome with ⟨info, blob⟩ | blob
  · cases blob with
    | uploaded => rfl
    | existing => exact (UInt64.add_zero counts.bytes).symm
  · cases blob <;> exact (UInt64.add_zero counts.bytes).symm

/-- The bytes counted are those tallied for the outcomes so far, modulo 2^64. -/
def Weighed (outcomes : List (PathBuf × IngestOutcome)) (state : State Future Call) : Prop :=
  state.counts.bytes = UInt64.ofNat (outcomes.map fun entry => talliedBytes entry.2).sum

theorem Weighed.step {cfg : PipelineConfig} {parts : Parts Future Call}
    {outcomes : List (PathBuf × IngestOutcome)} {state next : State Future Call} {action : Action}
    (weighed : Weighed outcomes state) (stepped : step cfg parts state action = some next) :
    Weighed (outcomes ++ joined state action) next := by
  unfold Weighed at weighed ⊢
  rw [List.map_append, List.sum_append, UInt64.ofNat_add, ← weighed]
  cases Step.of_step stepped with
  | joinFailed joining found failed =>
      rw [joined_of_failed found failed]
      exact (UInt64.add_zero state.counts.bytes).symm
  | joinQuiet joining found quiet => simp [joined, found, tally_bytes]
  | joinRow joining found rowCase => simp [joined, found, tally_bytes]
  | _ => exact (UInt64.add_zero state.counts.bytes).symm

def outcomesOf (cfg : PipelineConfig) (parts : Parts Future Call) (files : List PathBuf)
    (actions : List Action) : List (PathBuf × IngestOutcome) :=
  (machine cfg parts).observe joined (start parts files) actions

theorem weighed_of_exec {cfg : PipelineConfig} {parts : Parts Future Call}
    {files : List PathBuf} {actions : List Action} {state : State Future Call}
    (run : (machine cfg parts).exec (start parts files) actions = some state) :
    Weighed (outcomesOf cfg parts files actions) state := by
  refine (machine cfg parts).exec_induction
    (motive := fun actions state => Weighed (outcomesOf cfg parts files actions) state)
    (by simp [Weighed, outcomesOf, start]) ?_ run
  intro actions middle action final before weighed stepped
  rw [outcomesOf, (machine cfg parts).observe_snoc joined before stepped]
  exact weighed.step stepped

def uploadedEntries (outcomes : List (PathBuf × IngestOutcome)) :
    List (PathBuf × IngestOutcome) :=
  outcomes.filter fun entry => outcomeBlob entry.2 = .uploaded

/-- What a blob uploaded for an unchanged path weighs. -/
def restoredBytes (size : PathBuf → Nat) (entry : PathBuf × IngestOutcome) : Nat :=
  if entry.2 = .unchanged .uploaded then size entry.1 else 0

section Sized

variable {size : PathBuf → Nat} {outcomes : List (PathBuf × IngestOutcome)}

theorem sum_uploadedEntries_cons (entry : PathBuf × IngestOutcome)
    (rest : List (PathBuf × IngestOutcome)) :
    ((uploadedEntries (entry :: rest)).map fun entry => size entry.1).sum =
      (if outcomeBlob entry.2 = .uploaded then size entry.1 else 0) +
        ((uploadedEntries rest).map fun entry => size entry.1).sum := by
  by_cases stored : outcomeBlob entry.2 = .uploaded <;>
    simp only [uploadedEntries, List.filter_cons, stored, decide_true, decide_false, if_true,
      if_false, Bool.false_eq_true, List.map_cons, List.sum_cons, Nat.zero_add]

theorem uploaded_size_eq {entry : PathBuf × IngestOutcome}
    (sized : ∀ info blob, entry.2 = .observed info blob → info.sizeBytes = size entry.1) :
    (if outcomeBlob entry.2 = .uploaded then size entry.1 else 0) =
      talliedBytes entry.2 + restoredBytes size entry := by
  obtain ⟨path, ⟨info, _ | _⟩ | _ | _⟩ := entry
  · simpa [outcomeBlob, talliedBytes, restoredBytes] using (sized info .uploaded rfl).symm
  · simp [outcomeBlob, talliedBytes, restoredBytes]
  · simp [outcomeBlob, talliedBytes, restoredBytes]
  · simp [outcomeBlob, talliedBytes, restoredBytes]

theorem sum_uploadedEntries
    (sized : ∀ entry ∈ outcomes, ∀ info blob, entry.2 = .observed info blob →
      info.sizeBytes = size entry.1) :
    ((uploadedEntries outcomes).map fun entry => size entry.1).sum =
      (outcomes.map fun entry => talliedBytes entry.2).sum +
        (outcomes.map (restoredBytes size)).sum := by
  induction outcomes with
  | nil => rfl
  | cons entry rest inductionHypothesis =>
      obtain ⟨here, there⟩ := List.forall_mem_cons.mp sized
      rw [sum_uploadedEntries_cons, uploaded_size_eq here, inductionHypothesis there,
        List.map_cons, List.map_cons, List.sum_cons, List.sum_cons]
      omega

theorem sum_restoredBytes_eq_zero_iff :
    (outcomes.map (restoredBytes size)).sum = 0 ↔
      ∀ entry ∈ outcomes, entry.2 = .unchanged .uploaded → size entry.1 = 0 := by
  rw [List.sum_eq_zero_iff_forall_eq_nat, List.forall_mem_map]
  simp [restoredBytes]

/-- `bytes` measures the uploaded blobs exactly when those restored for
unchanged paths are empty and all together fit into 64 bits. -/
theorem bytes_measures_uploaded_blobs_iff {cfg : PipelineConfig} {parts : Parts Future Call}
    {files : List PathBuf} {actions : List Action} {state : State Future Call}
    {report : PipelineReport} (size : PathBuf → Nat)
    (run : (machine cfg parts).exec (start parts files) actions = some state)
    (ended : state.report? = some report)
    (sized : ∀ entry ∈ outcomesOf cfg parts files actions, ∀ info blob,
      entry.2 = .observed info blob → info.sizeBytes = size entry.1) :
    report.counts.bytes.toNat =
        ((uploadedEntries (outcomesOf cfg parts files actions)).map
          fun entry => size entry.1).sum ↔
      (∀ entry ∈ outcomesOf cfg parts files actions,
        entry.2 = .unchanged .uploaded → size entry.1 = 0) ∧
      ((uploadedEntries (outcomesOf cfg parts files actions)).map
        fun entry => size entry.1).sum < 2 ^ 64 := by
  obtain ⟨-, -, counts, -, -⟩ := report?_eq_some_iff.mp ended
  have weighed : state.counts.bytes = _ := weighed_of_exec run
  rw [counts, weighed, UInt64.toNat_ofNat', sum_uploadedEntries sized,
    ← sum_restoredBytes_eq_zero_iff]
  omega

end Sized

/-- One file whose content the catalog knows and the store has lost. -/
def restoringSchedule : List Action :=
  [.spawn, .await, .finish 0 (.result (.ok (.unchanged .uploaded))), .join 0, .await, .drain,
    .recvClosed]

theorem bytes_measures_uploaded_blobs_stopped :
    ∃ state report,
      (machine ⟨2, 1, by decide, by decide⟩ idleParts).exec
        (start idleParts [⟨[[97]]⟩, ⟨[[98]]⟩, ⟨[[99]]⟩, ⟨[[100]]⟩]) stoppedSchedule = some state ∧
      state.report? = some report ∧ report.counts.bytes.toNat = 10 := by
  obtain ⟨state, report, run, ended, outcomes⟩ : ∃ state report,
      (machine ⟨2, 1, by decide, by decide⟩ idleParts).exec
        (start idleParts [⟨[[97]]⟩, ⟨[[98]]⟩, ⟨[[99]]⟩, ⟨[[100]]⟩]) stoppedSchedule = some state ∧
      state.report? = some report ∧
      outcomesOf ⟨2, 1, by decide, by decide⟩ idleParts
          [⟨[[97]]⟩, ⟨[[98]]⟩, ⟨[[99]]⟩, ⟨[[100]]⟩] stoppedSchedule =
        [(⟨[[97]]⟩, .observed (sampleInfo [97] 10) .uploaded),
          (⟨[[99]]⟩, .unchanged .existing)] := ⟨_, _, rfl, rfl, rfl⟩
  refine ⟨state, report, run, ended, ?_⟩
  have measured := (bytes_measures_uploaded_blobs_iff (fun _ => 10) run ended
    (by simp [outcomes, sampleInfo])).mpr (by
      rw [outcomes]
      exact ⟨by simp, by decide⟩)
  rw [measured, outcomes]
  rfl

/-- A blob restored for an unchanged path is counted and not measured. -/
theorem restored_blob_is_not_measured :
    ∃ state report,
      (machine ⟨1, 1, by decide, by decide⟩ idleParts).exec (start idleParts [⟨[[97]]⟩])
        restoringSchedule = some state ∧
      state.report? = some report ∧ report.counts.uploaded = 1 ∧
      report.counts.bytes.toNat ≠
        ((uploadedEntries (outcomesOf ⟨1, 1, by decide, by decide⟩ idleParts [⟨[[97]]⟩]
          restoringSchedule)).map fun _ => 5).sum :=
  ⟨_, _, rfl, rfl, rfl, by decide⟩

end AntiEntropator.Ingest.Pipeline
