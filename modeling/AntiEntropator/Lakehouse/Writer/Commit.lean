import AntiEntropator.Lakehouse.Bootstrap
import AntiEntropator.Lakehouse.Writer.Columns

/-!
# Committing files

`commit_files`: one Parquet file and one `fast_append` for a list of files, into
a table whose schema was compared first.
-/

namespace AntiEntropator.Lakehouse

section Commit

variable (libraries : ClientLibraries) (config : LakehouseConfig)

/-- The data files of one batch, written under a fresh name. -/
def writeParquetFile (batch : RecordBatch) : Client (List DataFile) := do
  let fileId ← (Dialogue.query Call.newV4 : Client Uuid)
  let filePath ← Client.demand (.generateLocation (fileId.display ++ ".parquet")) id
  Client.demand (.openParquet filePath) id
  Client.demand (.writeParquet filePath batch) id
  let builders ← Client.demand (.closeParquet filePath) id
  Client.context "Failed to build DataFile" (.ofExcept (builders.mapM id))

/-- Add the new data files; the append itself is made in memory. -/
def commitTransaction (catalog : Properties) (dataFiles : List DataFile) : Client Unit :=
  Client.demand (.commit catalog dataFiles) id

def commitFiles (files : List FileInfo) : Client Unit :=
  if files = [] then return ()
  else do
    let batch ← .ofExcept ((Writer.filesToBatch files).mapError fun error =>
      .msg (libraries.displayArrow error))
    let catalog ← buildRestCatalog libraries config
    let table ← loadTable catalog
    -- The batch has the columns of the code's schema; so must the table.
    .ofExcept (verifyTableSchema libraries.displayType table)
    let dataFiles ← writeParquetFile batch
    commitTransaction catalog dataFiles

/-! ## Two halves -/

/-- The half of `commit_files` that only looks: the catalog, with its table checked. -/
def checkedCatalog : Client Properties := do
  let catalog ← buildRestCatalog libraries config
  let table ← loadTable catalog
  .ofExcept (verifyTableSchema libraries.displayType table)
  return catalog

def appendBatch (batch : RecordBatch) (catalog : Properties) : Client Unit := do
  let dataFiles ← writeParquetFile batch
  commitTransaction catalog dataFiles

theorem commitFiles_eq {files : List FileInfo} (nonempty : files ≠ []) :
    commitFiles libraries config files =
      checkedCatalog libraries config >>= appendBatch (Writer.catalogBatch files) := by
  have batch : ((Writer.filesToBatch files).mapError fun error =>
      Error.msg (libraries.displayArrow error)) = .ok (Writer.catalogBatch files) := by
    rw [Writer.filesToBatch_eq_ok]
    rfl
  rw [commitFiles, if_neg nonempty, batch]
  simp only [checkedCatalog, bind_assoc, pure_bind]
  rfl

end Commit

end AntiEntropator.Lakehouse
