import AntiEntropator.Lakehouse.Client

/-!
# The state file

The project's id is kept in a file of the platform's data directory; an older
one in the working directory is still read.
-/

namespace AntiEntropator.Lakehouse

open Ingest (readString)

def legacyStateFile : String := ".lakehouse_state.json"

def stateDocument (projectId : String) : Json := .object [("project_id", .string projectId)]

section State

variable (libraries : ClientLibraries)

def readState (content : Option (List UInt8)) : Option String :=
  ((content.bind libraries.json.fromSlice).bind (getMember "project_id")).bind readString

theorem readState_stateDocument (projectId : String) :
    readState libraries (some (libraries.json.toVecPretty (stateDocument projectId))) =
      some projectId := by
  have plain : (stateDocument projectId).All Ingest.Plain := by
    simp [stateDocument, Json.All, Json.AllMembers, Ingest.Plain]
  have shallow : (stateDocument projectId).nesting < 128 := by
    simp [stateDocument, Json.nesting, Json.nestingMembers]
  rw [readState, Option.bind_some, libraries.json.fromSlice_toVecPretty _ plain shallow]
  rfl

def saveState (path projectId : String) : Client Unit := do
  Client.context "Failed to create state file directory"
    (Client.demand (.createParents path) id)
  Client.context "Failed to write lakehouse state file"
    (Client.demand (.writeFile path (libraries.json.toVecPretty (stateDocument projectId))) id)

def loadStateFromPath (path : String) : Client (Option String) := do
  let content ← (Dialogue.query (Call.readFile path) : Client (Option (List UInt8)))
  return readState libraries content

/-- Load a project ID, with the legacy path as fallback. -/
def loadState (newPath legacyPath : String) : Client (Option String) := do
  match ← loadStateFromPath libraries newPath with
  | some id => return some id
  | none => loadStateFromPath libraries legacyPath

def saveProjectIdToState (projectId : String) : Client Unit :=
  match libraries.stateFilePath with
  | some path => saveState libraries path projectId
  | none => .throw (.msg "Could not determine platform data directory for state file")

def loadProjectIdFromState : Client (Option String) :=
  match libraries.stateFilePath with
  | some newPath => loadState libraries newPath legacyStateFile
  | none => return none

/-- The project ID of a command that does not create one. -/
def resolveProjectId (config : LakehouseConfig) : Client String := do
  match config.projectId with
  | some id => return id
  | none =>
      match ← loadProjectIdFromState libraries with
      | some id => return id
      | none => .throw (.msg ("No Lakekeeper project ID found. " ++
          "Run `anti_entropator init` first, or set ANTI_ENTROPATOR_PROJECT_ID in your environment."))

end State

end AntiEntropator.Lakehouse
