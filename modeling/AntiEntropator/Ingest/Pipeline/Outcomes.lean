import AntiEntropator.Ingest.Pipeline.Rows

/-!
# The outcomes a schedule shows

Joining a task hands its path and outcome to the producer.  The candidates are
these paths, the ones that were lost to an error or skipped, and the ones still
to come; the counts are those of the outcomes.
-/

namespace AntiEntropator.Ingest.Pipeline

variable {Future Call : Type}

/-- The outcome that a join hands to the producer, with its path. -/
def joined (state : State Future Call) : Action → List (PathBuf × IngestOutcome)
  | .join index =>
      match state.set[index]? with
      | some ⟨path, .finished (.result (.ok outcome))⟩ => [(path, outcome)]
      | _ => []
  | _ => []

def outcomeRows (outcomes : List (PathBuf × IngestOutcome)) : List FileInfo :=
  outcomes.filterMap fun entry => outcomeRow? entry.2

@[simp]
theorem outcomeRows_nil : outcomeRows [] = [] := rfl

@[simp]
theorem outcomeRows_append (first second : List (PathBuf × IngestOutcome)) :
    outcomeRows (first ++ second) = outcomeRows first ++ outcomeRows second := by
  simp [outcomeRows]

theorem outcomeRows_singleton (path : PathBuf) (outcome : IngestOutcome) :
    outcomeRows [(path, outcome)] = (outcomeRow? outcome).toList := by
  cases shown : outcomeRow? outcome <;> simp [outcomeRows, shown]

theorem joined_of_failed {state : State Future Call} {index : Nat} {path : PathBuf}
    {joined' : Joined} {text : String} (found : state.set[index]? = some ⟨path, .finished joined'⟩)
    (failed : failureText? path joined' = some text) : joined state (.join index) = [] := by
  rcases joined' with ⟨error | outcome⟩ | text
  · simp [joined, found]
  · cases failed
  · simp [joined, found]

/-- Each candidate is in one place, and the counts are those of the outcomes. -/
structure Conserved (files : List PathBuf) (outcomes : List (PathBuf × IngestOutcome))
    (state : State Future Call) : Prop where
  paths : ∃ lost : List PathBuf, lost.length = state.errors.length + state.counts.skipped ∧
    (outcomes.map Prod.fst ++ lost ++ (state.set.map Task.path ++ state.pending)).Perm files
  observed : state.counts.observed = (outcomeRows outcomes).length
  unchanged : state.counts.observed + state.counts.unchanged = outcomes.length
  uploaded : state.counts.uploaded =
    outcomes.countP fun entry => outcomeBlob entry.2 = .uploaded
  alreadyExists : state.counts.uploaded + state.counts.alreadyExists = outcomes.length

theorem conserved_start (parts : Parts Future Call) (files : List PathBuf) :
    Conserved files [] (start parts files) where
  paths := ⟨[], rfl, by simp [start]⟩
  observed := rfl
  unchanged := rfl
  uploaded := rfl
  alreadyExists := rfl

section Step

variable {cfg : PipelineConfig} {parts : Parts Future Call} {files : List PathBuf}
  {outcomes : List (PathBuf × IngestOutcome)} {state next : State Future Call} {action : Action}

theorem map_path_set {set : List (Task Future)} {index : Nat} {task changed : Task Future}
    (found : set[index]? = some task) (same : changed.path = task.path) :
    (set.set index changed).map Task.path = set.map Task.path := by
  obtain ⟨inside, rfl⟩ := List.getElem?_eq_some_iff.mp found
  have there : index < (set.map Task.path).length := by simpa using inside
  have here : (set.map Task.path)[index] = changed.path := by rw [List.getElem_map, same]
  rw [List.map_set, ← here, List.set_getElem_self there]

theorem map_path_eraseIdx {set : List (Task Future)} {index : Nat} {task : Task Future}
    (found : set[index]? = some task) :
    (task.path :: (set.eraseIdx index).map Task.path).Perm (set.map Task.path) := by
  obtain ⟨inside, rfl⟩ := List.getElem?_eq_some_iff.mp found
  exact (List.getElem_cons_eraseIdx_perm inside).map Task.path

theorem Conserved.tally {index : Nat} {path : PathBuf} {outcome : IngestOutcome}
    (conserved : Conserved files outcomes state)
    (found : state.set[index]? = some ⟨path, .finished (.result (.ok outcome))⟩)
    (set : next.set = state.set.eraseIdx index) (pending : next.pending = state.pending)
    (errors : next.errors = state.errors)
    (counts : next.counts = (Pipeline.tally state.counts outcome).1) :
    Conserved files (outcomes ++ [(path, outcome)]) next := by
  have paths := tally_paths state.counts outcome
  have blobs := tally_blobs state.counts outcome
  obtain ⟨lost, length, perm⟩ := conserved.paths
  constructor
  · refine ⟨lost, by rw [length, errors, counts, tally_skipped], ?_⟩
    rw [set, pending]
    refine List.perm_iff_count.mpr fun other => ?_
    have before := List.perm_iff_count.mp perm other
    have here := List.perm_iff_count.mp (map_path_eraseIdx found) other
    simp only [List.map_append, List.map_cons, List.map_nil, List.count_append, List.count_cons,
      List.count_nil] at before here ⊢
    omega
  · rw [counts, outcomeRows_append, outcomeRows_singleton, List.length_append, paths.1,
      conserved.observed]
  · rw [counts, paths.2, conserved.unchanged]
    simp
  · rw [counts, blobs.1, conserved.uploaded, List.countP_append]
    simp [List.countP_cons]
  · rw [counts, blobs.2, conserved.alreadyExists]
    simp

theorem Conserved.move (conserved : Conserved files outcomes state)
    (paths : next.set.map Task.path ++ next.pending = state.set.map Task.path ++ state.pending)
    (errors : next.errors = state.errors) (counts : next.counts = state.counts) :
    Conserved files outcomes next := by
  obtain ⟨⟨lost, length, perm⟩, observed, unchanged, uploaded, alreadyExists⟩ := conserved
  constructor
  · exact ⟨lost, by rw [length, errors, counts], by rw [paths]; exact perm⟩
  · rw [counts, observed]
  · rw [counts, unchanged]
  · rw [counts, uploaded]
  · rw [counts, alreadyExists]

theorem Conserved.step (conserved : Conserved files outcomes state)
    (unskipped : state.producer ≠ .returned → state.counts.skipped = 0)
    (stepped : Pipeline.step cfg parts state action = some next) :
    Conserved files (outcomes ++ joined state action) next := by
  have unjoined : ∀ {shown : List (PathBuf × IngestOutcome)} {later : State Future Call},
      shown = [] → Conserved files outcomes later → Conserved files (outcomes ++ shown) later := by
    rintro shown later rfl same
    rwa [List.append_nil]
  cases Step.of_step stepped with
  | spawn filling pending =>
      refine unjoined rfl (conserved.move ?_ rfl rfl)
      simp [pending]
  | finish found =>
      refine unjoined rfl (conserved.move ?_ rfl rfl)
      exact congrArg (· ++ state.pending) (map_path_set found rfl)
  | @joinFailed index path ended text joining found failed =>
      apply unjoined (joined_of_failed found failed)
      obtain ⟨⟨lost, length, perm⟩, observed, unchanged, uploaded, alreadyExists⟩ := conserved
      refine ⟨⟨lost ++ [path], ?_, ?_⟩, observed, unchanged, uploaded, alreadyExists⟩
      · simp only [List.length_append, length, List.length_singleton]
        omega
      · refine List.perm_iff_count.mpr fun other => ?_
        have before := List.perm_iff_count.mp perm other
        have here := List.perm_iff_count.mp (map_path_eraseIdx found) other
        simp only [List.count_append, List.count_cons, List.count_nil] at before here ⊢
        omega
  | @joinQuiet index path outcome joining found quiet =>
      have shown : joined state (.join index) = [(path, outcome)] := by simp [joined, found]
      rw [shown]
      exact conserved.tally found rfl rfl rfl rfl
  | @joinRow index path outcome row commit joining found rowCase =>
      have shown : joined state (.join index) = [(path, outcome)] := by simp [joined, found]
      rw [shown]
      exact conserved.tally found rfl rfl rfl rfl
  | drain joining empty =>
      apply unjoined rfl
      have none := unskipped (by simp [joining])
      obtain ⟨⟨lost, length, perm⟩, observed, unchanged, uploaded, alreadyExists⟩ := conserved
      refine ⟨⟨lost ++ state.pending, ?_, ?_⟩, observed, unchanged, uploaded, alreadyExists⟩
      · simp only [List.length_append, length, none]
        omega
      · simpa [empty] using perm
  | _ => exact unjoined rfl (conserved.move rfl rfl rfl)

theorem Judged.joined {Running : PathBuf → Future → Prop}
    {Right : PathBuf → IngestOutcome → Prop} (judged : Judged Running Right state) :
    ∀ entry ∈ joined state action, Right entry.1 entry.2 := by
  intro entry member
  unfold Pipeline.joined at member
  split at member
  · split at member
    next path outcome found =>
      rw [List.mem_singleton.mp member]
      exact judged.finished path outcome (List.mem_of_getElem? found)
    next => cases member
  · cases member

end Step

theorem Conserved.complete {files : List PathBuf} {outcomes : List (PathBuf × IngestOutcome)}
    {state : State Future Call} (conserved : Conserved files outcomes state)
    (errors : state.errors = []) (skipped : state.counts.skipped = 0) (set : state.set = [])
    (pending : state.pending = []) : (outcomes.map Prod.fst).Perm files := by
  obtain ⟨lost, length, perm⟩ := conserved.paths
  have none : lost = [] := List.eq_nil_of_length_eq_zero (by rw [length, errors, skipped]; rfl)
  simpa [none, set, pending] using perm

theorem Conserved.nodup {files : List PathBuf} {outcomes : List (PathBuf × IngestOutcome)}
    {state : State Future Call} (conserved : Conserved files outcomes state)
    (distinct : files.Nodup) : (outcomes.map Prod.fst).Nodup := by
  obtain ⟨lost, -, perm⟩ := conserved.paths
  have all := perm.nodup_iff.mpr distinct
  rw [List.append_assoc] at all
  exact all.of_append_left

theorem Conserved.subset {files : List PathBuf} {outcomes : List (PathBuf × IngestOutcome)}
    {state : State Future Call} (conserved : Conserved files outcomes state) :
    outcomes.map Prod.fst ⊆ files := by
  obtain ⟨lost, -, perm⟩ := conserved.paths
  intro path member
  apply perm.subset
  simp only [List.mem_append]
  exact .inl (.inl member)

end AntiEntropator.Ingest.Pipeline
