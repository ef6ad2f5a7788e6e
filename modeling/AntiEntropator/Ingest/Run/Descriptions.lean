import AntiEntropator.Domain.Path
import AntiEntropator.FileHash
import AntiEntropator.Ingest.Run.News

/-!
# What the rows say about the files

A worker carries a path by its components and the contents of a file at once,
where the source strips the bytes of a path and reads a file in chunks.  A row
has the identity and the hash that these come to, and a run that succeeds
leaves one for each candidate whose content is not the last known one.
-/

namespace AntiEntropator.Ingest

open Lakehouse

/-- The row of a file with these contents, however the reads on it are cut. -/
structure Describes (deployment : Deployment) (plan : RunPlan) (path : PathBuf)
    (contents : Contents) (row : CatalogRow) : Prop where
  sourceId : row.sourceId = some plan.sourceId
  relativePath : ∃ relativePath, row.relativePath = some relativePath ∧
    Path.relativePath path.bytes plan.root.bytes = .ok relativePath
  contentHash : ∃ hash, row.contentHash = some hash ∧ ∀ reads : Reads String,
    (reads.Succeed → fullSha256 deployment.crypto (.ok ⟨contents.bytes, reads⟩) = .ok hash) ∧
      ∀ other, fullSha256 deployment.crypto (.ok ⟨contents.bytes, reads⟩) = .ok other →
        other = hash
  sizeBytes : row.sizeBytes = contents.bytes.length

section Due

variable {deployment : Deployment} {plan : RunPlan} {start : World} {path : PathBuf}
  {contents : Contents} {relativePath : String} {row : CatalogRow}

/-- The row a candidate is due describes its file, and differs from what is known. -/
theorem describes_of_due (below : PathBuf.Below plan.root path)
    (held : start.files path = some contents)
    (normalized : normalizeRelativePath (path.stripPrefix plan.root) = .ok relativePath)
    (due : dueRow? deployment plan start path = some (RowContent.ofRow row)) :
    Describes deployment plan path contents row ∧
      decide (some (loadCurrentState start.catalog plan.sourceId)) relativePath
        (deployment.contentHash contents).text = .observe := by
  simp only [dueRow?, held, normalized] at due
  split at due
  next => cases due
  next observe =>
    have columns := Option.some.inj due
    simp only [RowContent.ofRow, RowContent.mk.injEq] at columns
    obtain ⟨-, sourceId, named, hashed, size, -⟩ := columns
    refine ⟨⟨sourceId.symm, ⟨relativePath, named.symm, ?_⟩, ⟨_, hashed.symm, ?_⟩, size.symm⟩,
      observe⟩
    · rw [relativePath_bytes below]
      exact normalized
    · exact fun reads => ⟨fullSha256_eq deployment.crypto ⟨contents.bytes, reads⟩,
        fun other => eq_hexDigest_of_fullSha256⟩

end Due

section Runs

variable {deployment : Deployment} {plan : RunPlan} {start : World} {candidates : List PathBuf}
  {counts : IngestCounts} {landed : List CatalogRow} {blobs : ObjectStore}

theorem Result.due (result : Result deployment plan start candidates counts landed blobs)
    {row : CatalogRow} (member : row ∈ landed) :
    ∃ path ∈ candidates, dueRow? deployment plan start path = some (RowContent.ofRow row) :=
  List.mem_filterMap.mp (result.rows.mem_iff.mp (List.mem_map_of_mem member))

theorem Result.exists_landed (result : Result deployment plan start candidates counts landed blobs)
    {path : PathBuf} (candidate : path ∈ candidates)
    {content : RowContent} (due : dueRow? deployment plan start path = some content) :
    ∃ row ∈ landed, RowContent.ofRow row = content :=
  List.mem_map.mp (result.rows.mem_iff.mpr (List.mem_filterMap.mpr ⟨path, candidate, due⟩))

end Runs

open Process in
/-- The rows that a successful run lands describe candidates.  A candidate gets
one exactly if its content is not the last known one, and its blob is in the
store either way. -/
theorem landed_rows_describe_the_files {deployment : Deployment} {plan : RunPlan} {start : World}
    {actions : List ProcessAction} {final : Process} {counts : IngestCounts}
    (ingesting : plan.mode = .ingest)
    (unedited : ∀ path contents, .edit path contents ∉ actions)
    (exec : (machine deployment).exec ⟨start, Run.start plan⟩ actions = some final)
    (success : final.run.success? = some counts) :
    ∃ landed, final.world.catalog = start.catalog ++ landed ∧
      (∀ row ∈ landed, ∃ path ∈ final.run.files, ∃ contents,
        start.files path = some contents ∧ Describes deployment plan path contents row) ∧
      ∀ path ∈ final.run.files, ∃ contents relativePath,
        start.files path = some contents ∧ Kept deployment final.world.blobs contents ∧
        Path.relativePath path.bytes plan.root.bytes = .ok relativePath ∧
        ((∃ row ∈ landed, Describes deployment plan path contents row) ↔
          ∀ known, loadCurrentState start.catalog plan.sourceId relativePath = some known →
            known.contentHash ≠ deployment.crypto.hexDigest contents.bytes) := by
  have result := result_of_exec ingesting unedited exec success
  have below : ∀ path ∈ final.run.files, PathBuf.Below plan.root path := by
    rw [← plan_of_exec exec]
    exact (candidates_of_exec exec).2
  refine ⟨_, catalog_of_exec exec, ?_, ?_⟩
  · intro row member
    obtain ⟨path, candidate, due⟩ := result.due member
    obtain ⟨contents, held, -⟩ := result.kept path candidate
    obtain ⟨relativePath, normalized⟩ := result.named path candidate
    exact ⟨path, candidate, contents, held,
      (describes_of_due (below path candidate) held normalized due).1⟩
  · intro path candidate
    obtain ⟨contents, held, kept⟩ := result.kept path candidate
    obtain ⟨relativePath, normalized⟩ := result.named path candidate
    refine ⟨contents, relativePath, held, kept,
      (relativePath_bytes (below path candidate)).trans normalized, ?_⟩
    have fresh : decide (some (loadCurrentState start.catalog plan.sourceId)) relativePath
        (deployment.contentHash contents).text = .observe ↔ _ := decide_eq_observe_iff
    refine Iff.trans ?_ fresh
    constructor
    · rintro ⟨row, member, describes⟩
      -- the row is due to a candidate of the same identity, hence to this one
      obtain ⟨other, listed, due⟩ := result.due member
      obtain ⟨contents', held', -⟩ := result.kept other listed
      obtain ⟨relativePath', normalized'⟩ := result.named other listed
      obtain ⟨same, news⟩ := describes_of_due (below other listed) held' normalized' due
      obtain ⟨text, named, stripped⟩ := describes.relativePath
      obtain ⟨text', named', stripped'⟩ := same.relativePath
      rw [relativePath_bytes (below path candidate)] at stripped
      rw [relativePath_bytes (below other listed)] at stripped'
      obtain rfl : text = text' := Option.some.inj (named.symm.trans named')
      obtain rfl : other = path := by
        by_contra different
        exact relativePath_ne (below other listed) (below path candidate) different stripped'
          stripped rfl
      obtain rfl : contents' = contents := Option.some.inj (held'.symm.trans held)
      obtain rfl : relativePath' = relativePath := Except.ok.inj (normalized'.symm.trans normalized)
      exact news
    · intro news
      obtain ⟨content, due⟩ :
          ∃ content, dueRow? deployment plan start path = some content := by
        simp [dueRow?, held, normalized, news]
      obtain ⟨row, member, rfl⟩ := result.exists_landed candidate due
      exact ⟨row, member, (describes_of_due (below path candidate) held normalized due).1⟩

/-- The blob of the known file is stored again, and the other file is committed. -/
def repairedSchedule (now : DateTime) : List ProcessAction :=
  reconcileSchedule ["a", "b"] now ++
    ([.spawn, .spawn, .await].map fun action => .ingest (.pipeline action)) ++
    hashSchedule 0 now ++ hashSchedule 1 now ++ (uploadSchedule 0 now).dropLast ++
    uploadSchedule 1 now ++
    ([.finish 0 (.result (.ok (.unchanged .uploaded))), .join 0, .await,
      .finish 0 (.result (.ok (.observed (sampleRow 2 "b" now) .existing))), .join 0, .send,
      .await, .drain, .recv, .recvClosed].map fun action => .ingest (.pipeline action)) ++
    requestSchedule now ++ acknowledgeSchedule now ++ concludeSchedule now ++
    [.epilogue (.supersede now), .epilogue .exit]

theorem landed_rows_describe_the_files_repaired : ∃ final counts landed,
    (Process.machine sampleDeployment).exec ⟨Process.damagedWorld, Run.start (samplePlan 2)⟩
        (repairedSchedule 1000000) = some final ∧
      final.run.success? = some counts ∧
      final.world.catalog = Process.damagedWorld.catalog ++ landed ∧
      ∀ path ∈ [samplePath "a", samplePath "b"], ∃ contents,
        sampleFiles path = some contents ∧
          ((∃ row ∈ landed, Describes sampleDeployment (samplePlan 2) path contents row) ↔
            path = samplePath "b") := by
  obtain ⟨final, exec, shown⟩ := Option.map_eq_some_iff.mp (show
    ((Process.machine sampleDeployment).exec ⟨Process.damagedWorld, Run.start (samplePlan 2)⟩
      (repairedSchedule 1000000)).map (fun final =>
        (final.run.files, final.run.success?.isSome)) =
      some ([samplePath "a", samplePath "b"], true) by decide +kernel)
  obtain ⟨files, ended⟩ := Prod.mk.injEq .. ▸ shown
  obtain ⟨counts, success⟩ := Option.isSome_iff_exists.mp ended
  obtain ⟨landed, grown, -, described⟩ := landed_rows_describe_the_files (by rfl)
    (by simp [repairedSchedule, reconcileSchedule, hashSchedule, uploadSchedule, requestSchedule,
      acknowledgeSchedule, concludeSchedule])
    exec success
  refine ⟨final, counts, landed, exec, success, grown, fun path candidate => ?_⟩
  obtain ⟨contents, relativePath, held, -, stripped, news⟩ := described path (files ▸ candidate)
  refine ⟨contents, held, news.trans ?_⟩
  have text : contents.bytes = utf8Bytes "hello world" := by
    have hello := (if_pos candidate).symm.trans held
    exact (Option.some.inj hello) ▸ rfl
  rw [text]
  rcases List.mem_pair.mp candidate with rfl | rfl
  · obtain rfl : "a" = relativePath := Option.some.inj ((show
      (Path.relativePath (samplePath "a").bytes (samplePlan 2).root.bytes).toOption = some "a"
        by decide +kernel).symm.trans (congrArg Except.toOption stripped))
    refine iff_of_false (fun different => ?_) (by decide +kernel)
    obtain ⟨known, same, hash⟩ := Option.map_eq_some_iff.mp (show
      (loadCurrentState Process.damagedWorld.catalog (samplePlan 2).sourceId "a").map
          KnownPath.contentHash =
        some (sampleDeployment.crypto.hexDigest (utf8Bytes "hello world")) by decide +kernel)
    exact different known same hash
  · obtain rfl : "b" = relativePath := Option.some.inj ((show
      (Path.relativePath (samplePath "b").bytes (samplePlan 2).root.bytes).toOption = some "b"
        by decide +kernel).symm.trans (congrArg Except.toOption stripped))
    refine iff_of_true (fun known found => ?_) rfl
    rw [show loadCurrentState Process.damagedWorld.catalog (samplePlan 2).sourceId "b" = none
      by decide +kernel] at found
    cases found

end AntiEntropator.Ingest
