import AntiEntropator.Ingest.ProcessFile.Exact

/-!
# The worker of a connected preview

It measures its file as the worker of an ingest run does, looks at the store
once and stops there: what it reports is a function of the contents, the known
state and the store it found.
-/

namespace AntiEntropator.Ingest

/-- What a preview says about a file with these contents. -/
def Foretold (deployment : Deployment) (ctx : FileContext) (store : ObjectStore) (path : PathBuf)
    (contents : Contents) (outcome : IngestOutcome) : Prop :=
  (Pipeline.outcomeBlob outcome = .uploaded ↔ ¬ Kept deployment store contents) ∧
    ∃ relativePath, normalizeRelativePath (path.stripPrefix ctx.root) = .ok relativePath ∧
      ((Pipeline.outcomeRow? outcome).isSome = true ↔
        decide ctx.state relativePath (deployment.contentHash contents).text = .observe)

namespace FileTask

/-- Up to the look at the store. -/
def Measuring : FilePhase → Prop
  | .uploading _ _ | .stamping _ _ | .returned (.ok _) => False
  | _ => True

/-- A preview's worker measures its file, or has foretold its outcome. -/
def Foresees (deployment : Deployment) (ctx : FileContext) (files : SourceFiles)
    (store : ObjectStore) (task : FileTask) : Prop :=
  Measuring task.phase ∧ task.Exact deployment ctx files store ∨
    ∃ outcome contents, task.phase = .returned (.ok outcome) ∧ files task.path = some contents ∧
      Foretold deployment ctx store task.path contents outcome

theorem measuring_identify (ctx : FileContext) (info : FileInfo) :
    Measuring (identify ctx info) := by
  simp only [identify]
  split
  · trivial
  · split <;> trivial

theorem measuring_scanned (ctx : FileContext) (info : FileInfo) :
    Measuring (scanned ctx info) := by
  simp only [scanned]
  split
  · trivial
  · exact measuring_identify ctx info

section Steps

variable {deployment : Deployment} {ctx : FileContext} {files : SourceFiles}
  {store store' : ObjectStore} {task task' : FileTask} {action : FileAction}
  {times : List DateTime}

theorem foresees_conclude {prepared : PreparedFile} {blob : BlobState} {path : PathBuf}
    {attempts : Nat} {contents : Contents} (preview : ctx.mode.writes = false)
    (held : files path = some contents)
    (measured : Measured deployment contents prepared.info prepared.contentHash)
    (normalized : normalizeRelativePath (path.stripPrefix ctx.root) = .ok prepared.relativePath)
    (known : blob = .uploaded ↔ ¬ Kept deployment store contents) :
    Foresees deployment ctx files store ⟨path, attempts, conclude ctx prepared blob⟩ := by
  obtain ⟨-, hash⟩ := measured
  apply Or.inr
  simp only [conclude, preview, Bool.false_eq_true, if_false]
  split
  next unchanged =>
    rw [hash] at unchanged
    exact ⟨_, contents, rfl, held, known, _, normalized, by
      simp [Pipeline.outcomeRow?, unchanged]⟩
  next observe =>
    rw [hash] at observe
    exact ⟨_, contents, rfl, held, known, _, normalized, by
      simp [Pipeline.outcomeRow?, observe]⟩

theorem Foresees.exact (foresees : task.Foresees deployment ctx files store)
    (measuring : Measuring task.phase) : task.Exact deployment ctx files store := by
  rcases foresees with ⟨-, exact⟩ | ⟨outcome, contents, returned, -⟩
  · exact exact
  · rw [returned] at measuring
    exact measuring.elim

theorem Foresees.step (foresees : task.Foresees deployment ctx files store)
    (valid : task.Valid deployment ctx times) (operator : ctx.operator = true)
    (preview : ctx.mode.writes = false)
    (stepped : task.step deployment ctx files store action = some (store', task')) :
    task'.Foresees deployment ctx files store := by
  -- a step before the look
  have measured : ∀ {phase : FilePhase}, task.phase = phase → Measuring phase →
      (∀ prepared, phase ≠ .verifying prepared) → store' = store → Measuring task'.phase →
      task'.Foresees deployment ctx files store := by
    rintro phase rfl measuring unverified same measuring'
    refine .inl ⟨measuring', ?_⟩
    rw [← same]
    exact (foresees.exact measuring).step valid operator
      (fun prepared verifying => (unverified prepared verifying).elim) stepped
  cases Step.of_step stepped with
  | scan here => exact measured here trivial (by simp) rfl (measuring_scanned _ _)
  | scanHash here => exact measured here trivial (by simp) rfl trivial
  | scanHashed here => exact measured here trivial (by simp) rfl (measuring_identify _ _)
  | scanHashFailed here => exact measured here trivial (by simp) rfl (measuring_identify _ _)
  | hash here => exact measured here trivial (by simp) rfl trivial
  | hashed here => exact measured here trivial (by simp) rfl trivial
  | failed => exact .inl ⟨trivial, .inl trivial⟩
  | observe here => exact measured here trivial (by simp) rfl trivial
  | observeOffline here offline => simp [operator] at offline
  | @found prepared verdict verifying verdictCase present =>
      have exact := foresees.exact (by rw [verifying]; trivial)
      simp only [Exact, verifying, Blank, Knows, false_or] at exact
      simp only [Valid, verifying] at valid
      obtain ⟨contents, held, measurement⟩ := exact
      obtain ⟨object, stored, -⟩ := verifyExisting_found verdictCase present
      refine foresees_conclude preview held measurement valid.normalized ?_
      simp [Kept, ← measurement.2, stored]
  | missing here verdictCase writes => simp [preview] at writes
  | @missingPreview prepared verifying verdictCase =>
      have exact := foresees.exact (by rw [verifying]; trivial)
      simp only [Exact, verifying, Blank, Knows, false_or] at exact
      simp only [Valid, verifying] at valid
      obtain ⟨contents, held, measurement⟩ := exact
      refine foresees_conclude preview held measurement valid.normalized ?_
      simp [Kept, ← measurement.2, verifyExisting_missing verdictCase]
  | upload here | uploaded here | stamp here =>
      rcases foresees with ⟨measuring, -⟩ | ⟨outcome, contents, returned, -⟩
      · rw [here] at measuring
        exact measuring.elim
      · rw [here] at returned
        cases returned

theorem Foresees.foretold {outcome : IngestOutcome}
    (foresees : task.Foresees deployment ctx files store)
    (returned : task.result? = some (.ok outcome)) :
    ∃ contents, files task.path = some contents ∧
      Foretold deployment ctx store task.path contents outcome := by
  have phase := result?_eq_some_iff.mp returned
  rcases foresees with ⟨measuring, -⟩ | ⟨other, contents, ended, held, foretold⟩
  · rw [phase] at measuring
    exact measuring.elim
  · rw [phase] at ended
    cases ended
    exact ⟨contents, held, foretold⟩

end Steps

end FileTask

end AntiEntropator.Ingest
