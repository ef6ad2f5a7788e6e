import AntiEntropator.Ingest.Run.Honesty
import AntiEntropator.Ingest.Run.Outcomes

/-!
# Runs that succeed

A run that exits without an error either had no candidates or an outcome for
each of them, and then all of its rows have landed.
-/

namespace AntiEntropator.Ingest

open Lakehouse Pipeline

/-- The counts that a successful run reports. -/
def Run.success? (run : Run) : Option IngestCounts :=
  match run.phase with
  | .exited (some conclusion) (.ok ()) => some conclusion.summary.counts
  | .exited none (.ok ()) => some {}
  | _ => none

/-- Candidates are distinct, there are none before they are collected, and a
run that ends without a conclusion has none or failed. -/
def Run.Ends (run : Run) : Prop :=
  run.files.Nodup ∧
    match run.phase with
    | .exited (some conclusion) result => result = conclusion.result
    | .exited none result => run.files = [] ∨ ∃ error, result = .error error
    | phase => Process.Early phase → run.files = []

theorem Run.Ends.early {run : Run} (ends : run.Ends) (early : Process.Early run.phase) :
    run.files = [] := by
  obtain ⟨-, ends⟩ := ends
  split at ends
  next phase =>
    rw [phase] at early
    exact early.elim
  next phase =>
    rw [phase] at early
    exact early.elim
  next => exact ends early

/-- What a run that succeeds ends with: an outcome for each candidate, counts
that are those of the outcomes, and their rows in the catalog. -/
structure Run.Succeeded (outcomes : List (PathBuf × IngestOutcome)) (landed : List CatalogRow)
    (counts : IngestCounts) (run : Run) : Prop where
  paths : (outcomes.map Prod.fst).Perm run.files
  observed : counts.observed = (outcomeRows outcomes).length
  unchanged : counts.observed + counts.unchanged = run.files.length
  uploaded : counts.uploaded = outcomes.countP fun entry => outcomeBlob entry.2 = .uploaded
  alreadyExists : counts.uploaded + counts.alreadyExists = run.files.length
  clean : run.pipe.errors = []
  drained : run.pipe.set = []
  delivered : run.plan.mode.writes = true → landed = filesToBatch (outcomeRows outcomes)

theorem succeeded_of_empty {run : Run} {outcomes : List (PathBuf × IngestOutcome)}
    {landed : List CatalogRow} (accounts : run.Accounts outcomes landed) (empty : run.files = []) :
    run.Succeeded outcomes landed {} := by
  obtain ⟨lost, length, perm⟩ := accounts.conserved.paths
  rw [empty, List.perm_nil, List.append_eq_nil_iff, List.append_eq_nil_iff,
    List.append_eq_nil_iff, List.map_eq_nil_iff, List.map_eq_nil_iff] at perm
  obtain ⟨⟨rfl, rfl⟩, drained, -⟩ := perm
  have clean : run.pipe.errors = [] := List.eq_nil_of_length_eq_zero (by
    rw [List.length_nil] at length
    omega)
  refine ⟨?_, rfl, ?_, rfl, ?_, clean, drained, fun writes => ?_⟩
  · rw [empty]
    exact List.Perm.refl _
  · rw [empty]
    rfl
  · rw [empty]
    rfl
  · exact (List.append_eq_nil_iff.mp
      (List.prefix_nil.mp (accounts.delivered writes).initial)).1

namespace Process

section Ends

variable {deployment : Deployment} {process next : Process}

theorem PrologueStep.ends {action : PrologueAction} (ends : process.run.Ends)
    (stepped : PrologueStep process action next) : next.run.Ends := by
  have distinct := ends.1
  have unstarted : ∀ {phase : RunPhase}, process.run.phase = phase → Early phase →
      process.run.files = [] := by
    rintro phase rfl early
    exact ends.early early
  cases stepped with
  | @proceed stage phase =>
      have empty := unstarted phase trivial
      cases stage <;> exact ⟨distinct, fun _ => empty⟩
  | failed => exact ⟨distinct, .inr ⟨_, rfl⟩⟩
  | loadState phase => exact ⟨distinct, fun _ => unstarted phase trivial⟩
  | list phase => exact ⟨distinct, fun _ => unstarted phase trivial⟩
  | load phase => exact ⟨distinct, fun _ => unstarted phase trivial⟩
  | loadFailed phase => exact ⟨distinct, fun _ => unstarted phase trivial⟩
  | report phase =>
      have empty := unstarted phase trivial
      simp only [Process.report]
      split <;> exact ⟨distinct, fun _ => empty⟩
  | count phase => exact ⟨distinct, fun _ => unstarted phase trivial⟩
  | closed phase => exact ⟨distinct, fun _ => unstarted phase trivial⟩
  | closeFailed => exact ⟨distinct, .inr ⟨_, rfl⟩⟩
  | reconciled phase => exact ⟨distinct, fun _ => unstarted phase trivial⟩
  | collected phase below nodup =>
      simp only [Process.collected]
      split
      · exact ⟨distinct, .inl (unstarted phase trivial)⟩
      · refine ⟨nodup, ?_⟩
        cases process.run.plan.mode.writes <;> exact fun early => early.elim
  | started => exact ⟨distinct, fun early => early.elim⟩
  | startFailed => exact ⟨distinct, .inr ⟨_, rfl⟩⟩

theorem Step.ends {action : ProcessAction} (ends : process.run.Ends)
    (stepped : Step deployment process action next) : next.run.Ends := by
  have distinct := ends.1
  cases stepped with
  | prologue taken => exact taken.ends ends
  | ingest taken =>
      have phase := taken.phase_eq.2
      have files : next.run.files = process.run.files := by
        cases taken with
        | commit _ _ _ moved => exact moved.frame.2.1
        | _ => rfl
      rw [Run.Ends, phase, files]
      exact ⟨distinct, fun early => early.elim⟩
  | epilogue taken =>
      cases taken with
      | conclude => exact ⟨distinct, fun early => early.elim⟩
      | concludePreview => exact ⟨distinct, rfl⟩
      | recorded | recordFailed =>
          simp only [afterRecord]
          split
          · exact ⟨distinct, fun early => early.elim⟩
          · exact ⟨distinct, rfl⟩
      | supersede => exact ⟨distinct, fun early => early.elim⟩
      | supersedeFailed => exact ⟨distinct, fun early => early.elim⟩
      | exit => exact ⟨distinct, rfl⟩
  | kill => exact ⟨distinct, fun early => early.elim⟩
  | land => exact ends
  | lose => exact ends
  | edit => exact ends

end Ends

section Success

variable {deployment : Deployment} {plan : RunPlan} {world : World}
  {actions : List ProcessAction} {final : Process}

theorem ends_of_exec
    (exec : (machine deployment).exec ⟨world, Run.start plan⟩ actions = some final) :
    final.run.Ends := by
  refine (machine deployment).exec_invariant (fun process => process.run.Ends) ?_
    (fun _ _ _ ends stepped => (Step.of_step stepped).ends ends) exec
  simp only [Run.start]
  split <;> exact ⟨List.nodup_nil, fun _ => rfl⟩

theorem succeeded_of_exec {counts : IngestCounts}
    (exec : (machine deployment).exec ⟨world, Run.start plan⟩ actions = some final)
    (success : final.run.success? = some counts) :
    final.run.Succeeded
      ((machine deployment).observe Process.outcomes ⟨world, Run.start plan⟩ actions)
      ((machine deployment).observe landing ⟨world, Run.start plan⟩ actions) counts := by
  have ends := (ends_of_exec exec).2
  have accounts := accounts_of_exec exec
  have conserved := accounts.conserved
  unfold Run.success? at success
  split at success
  next conclusion phase =>
    cases success
    simp only [phase] at ends
    have concluded := concluded_of_exec exec
    simp only [Concluded, phase] at concluded
    obtain ⟨report, reported, rfl⟩ := concluded
    obtain ⟨clean, accepted⟩ := (result_eq_ok_iff _ _).mp ends.symm
    obtain ⟨schedule, reached⟩ := pipelineReached_of_exec exec
    have unskipped : report.counts.skipped = 0 := by
      have ended : final.run.pipe.erase.report? = some report := by rw [report?_erase, reported]
      by_contra positive
      have stopped :=
        ((accounted_of_exec reached).report_stop ended).2 (Nat.pos_of_ne_zero positive)
      simp [accepted] at stopped
    obtain ⟨returned, -, counts, -, errors⟩ := report?_eq_some_iff.mp reported
    obtain ⟨drained, exhausted⟩ :=
      drained_of_pipelineReached (pipelineReached_of_exec exec) returned
    rw [errors] at clean
    rw [counts] at unskipped
    have paths := conserved.complete clean unskipped drained exhausted
    have length := paths.length_eq
    rw [List.length_map] at length
    simp only [Conclusion.build, IngestSummary.build, counts]
    exact
      { paths
        observed := conserved.observed
        unchanged := conserved.unchanged.trans length
        uploaded := conserved.uploaded
        alreadyExists := conserved.alreadyExists.trans length
        clean
        drained
        delivered := fun writes => (accounts.delivered writes).complete reported accepted }
  next phase =>
    cases success
    simp only [phase] at ends
    exact succeeded_of_empty accounts (ends.resolve_right (by simp))
  next => cases success

end Success

end Process

end AntiEntropator.Ingest
