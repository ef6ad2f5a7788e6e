import AntiEntropator.Domain.Lexical
import AntiEntropator.Lakehouse.Signature
import AntiEntropator.Lakehouse.StateFile

/-!
# Bringing up the lakehouse

`init` creates bucket, project, warehouse, namespace and table, each only where
a check does not find it; `check_up` asks whether the services are there.
-/

namespace AntiEntropator.Lakehouse

open Ingest (readString)

def projectName : String := "anti-entropator"
def namespaceName : String := "anti_entropator"
def fileCatalogTable : String := "file_catalog"

/-- Credentials come from the process environment only. -/
def validateS3Credentials (config : LakehouseConfig) : Except Error Unit :=
  if trim config.s3AccessKey = "" ∨ trim config.s3SecretKey = "" then
    .error (.msg ("Missing S3 credentials: RUSTFS_ACCESS_KEY and RUSTFS_SECRET_KEY are not set " ++
      "in the environment. The CLI does not read .env itself; export it first: " ++
      "`set -a; source .env; set +a` (the Makefile targets do this)"))
  else .ok ()

/-- The answer came and it is a success. -/
def succeeded : Except Error HttpResponse → Bool
  | .ok response => response.isSuccess
  | .error _ => false

def projectHeader (projectId : String) : String × String := ("X-Project-Id", projectId)

/-! ## Connectivity -/

/-- Whether an unauthenticated request's status proves the endpoint is up: 403
counts, since the server answered. -/
def rustfsStatusIsReachable (response : HttpResponse) : Bool :=
  response.isSuccess || response.status = 403

section Checks

variable (libraries : ClientLibraries) (config : LakehouseConfig)

def rustfsRequest : HttpRequest where
  method := .get
  url := config.s3Endpoint

def checkRustfs : Client Unit := do
  Client.buildClient 5
  let response ← Client.context "Cannot connect to RustFS" (Client.send (rustfsRequest config))
  if rustfsStatusIsReachable response then return ()
  else .throw (.msg ("RustFS returned unexpected status: " ++
    libraries.displayStatus response.status))

def swaggerRequest : HttpRequest where
  method := .get
  url := trimEndSlashes config.catalogEndpoint ++ "/swagger-ui/"

def checkCatalog : Client Unit := do
  Client.buildClient 5
  let response ← Client.context "Cannot connect to Lakekeeper"
    (Client.send (swaggerRequest config))
  if response.isSuccess then return ()
  else .throw (.msg ("Lakekeeper returned unexpected status: " ++
    libraries.displayStatus response.status))

/-- Check if the lakehouse stack is up and running: both services are asked. -/
def checkUp : Client Unit := do
  let rustfs ← Client.attempt (checkRustfs libraries config)
  let catalog ← Client.attempt (checkCatalog libraries config)
  match rustfs, catalog with
  | .ok (), .ok () => return ()
  | _, _ => .throw (.msg
      "Some services are not available. Run `docker compose up -d` to start them.")

/-! ## Bucket -/

/-- Create the S3 bucket unless it exists; whether it was created. -/
def createBucket : Client Bool := do
  Client.buildClient 10
  let bucketUrl := trimEndSlashes config.s3Endpoint ++ "/" ++ config.bucket
  let host := s3HostFromEndpoint config.s3Endpoint
  let head ← Client.attempt
    (sendSignedS3 libraries config "HEAD" bucketUrl host ("/" ++ config.bucket))
  if succeeded head then return false
  else
    -- Whatever else the check said, the creation decides.
    let response ← Client.context "Failed to create bucket"
      (sendSignedS3 libraries config "PUT" bucketUrl host ("/" ++ config.bucket))
    if response.isSuccess then return true
    else if response.status = 409 then return false
    else .throw (response.failure libraries "Failed to create bucket")

/-! ## Project -/

def projectUrl : String := trimEndSlashes config.catalogEndpoint ++ "/management/v1/project"

def verifyProjectRequest (projectId : String) : HttpRequest where
  method := .get
  url := projectUrl config
  headers := [projectHeader projectId]

def verifyProjectExists (projectId : String) : Client Bool := do
  match ← Client.attempt (Client.buildClient 5) with
  | .error _ => return false
  | .ok () =>
      let reply ← Client.attempt (Client.send (verifyProjectRequest config projectId))
      return succeeded reply

def createProjectRequest : HttpRequest where
  method := .post
  url := projectUrl config
  body := some (.object [("project-name", .string projectName)])

def readProjectResponse (value : Json) : Option String := do
  match ← structFields ["project-id"] value with
  | [id] => readString id
  | _ => none

/-- Ensure the Lakekeeper project exists: its id, and whether it was created. -/
def ensureProject : Client (String × Bool) := do
  Client.buildClient 10
  let response ← Client.context "Failed to create project"
    (Client.send (createProjectRequest config))
  if response.status = 200 ∨ response.status = 201 then
    let id ← Client.context "Failed to parse project response"
      (.ofExcept (response.json libraries readProjectResponse))
    return (id, true)
  else if response.status = 409 then
    let body := response.jsonOrNull libraries
    match (getMember "project-id" body).bind readString with
    | some id => return (id, false)
    | none => .throw (.msg ("Project already exists but could not extract project-id from " ++
        "response: " ++ libraries.displayJson body))
  else .throw (response.failure libraries "Failed to create project")

/-! ## Warehouse -/

def warehousesUrl : String := trimEndSlashes config.catalogEndpoint ++ "/management/v1/warehouse"

def listWarehousesRequest (projectId : String) : HttpRequest where
  method := .get
  url := warehousesUrl config
  headers := [projectHeader projectId]

/-- `build_create_warehouse_request`, as it is serialized. -/
def buildCreateWarehouseRequest : Json :=
  .object [
    ("warehouse-name", .string config.warehouse),
    ("storage-profile", .object [
      ("type", .string "s3"),
      ("bucket", .string config.bucket),
      ("region", .string config.s3Region),
      ("endpoint", .string config.s3EndpointInternal),
      ("path-style-access", .bool true),
      ("key-prefix", .string "warehouse"),
      ("sts-enabled", .bool false)]),
    ("storage-credential", .object [
      ("type", .string "s3"),
      ("credential-type", .string "access-key"),
      ("aws-access-key-id", .string config.s3AccessKey),
      ("aws-secret-access-key", .string config.s3SecretKey)])]

def createWarehouseRequest (projectId : String) : HttpRequest where
  method := .post
  url := warehousesUrl config
  headers := [projectHeader projectId]
  body := some (buildCreateWarehouseRequest config)

def readWarehouseNames (value : Json) : Option (List String) := do
  match ← structFields ["warehouses"] value with
  | [.array warehouses] => warehouses.mapM fun warehouse => do
      match ← structFields ["name"] warehouse with
      | [name] => readString name
      | _ => none
  | _ => none

/-- The warehouses in an answer; one that is no success lists none. -/
def listedWarehouses (list : HttpResponse) : Client (List String) :=
  if list.isSuccess then
    Client.context "Failed to parse warehouses list"
      (.ofExcept (list.json libraries readWarehouseNames))
  else return []

/-- What a `POST` that creates something says: whether it was created. -/
def created (text : String) (response : HttpResponse) : Client Bool :=
  if response.status = 200 ∨ response.status = 201 then return true
  else if response.status = 409 then return false
  else .throw (response.failure libraries text)

def ensureWarehouse (projectId : String) : Client Bool := do
  Client.buildClient 10
  let list ← Client.context "Failed to list warehouses"
    (Client.send (listWarehousesRequest config projectId))
  let names ← listedWarehouses libraries list
  if config.warehouse ∈ names then return false
  else
    let response ← Client.context "Failed to create warehouse"
      (Client.send (createWarehouseRequest config projectId))
    created libraries "Failed to create warehouse" response

/-! ## The catalog's configuration -/

structure CatalogConfigResult where
  /-- The warehouse prefix used in API paths. -/
  warehousePrefix : String
  uri : String
  projectId : String

def catalogConfigRequest (projectId : String) : Except Error HttpRequest :=
  match libraries.parseUrl (trimEndSlashes config.catalogEndpoint ++ "/catalog/v1/config") with
  | .error error => .error (error.context ("Invalid catalog endpoint: " ++ config.catalogEndpoint))
  | .ok url => .ok {
      method := .get
      url := url
      query := [("warehouse", config.warehouse)]
      headers := [projectHeader projectId] }

/-- `CatalogConfig`: defaults and overrides. -/
def readCatalogConfig (value : Json) : Option (List (String × String) × List (String × String)) := do
  match ← structFields ["defaults", "overrides"] value with
  | [defaults, overrides] => return (← readStringMap defaults, ← readStringMap overrides)
  | _ => none

def getWarehousePrefix : Client CatalogConfigResult := do
  let projectId ← resolveProjectId libraries config
  Client.buildClient 10
  let request ← .ofExcept (catalogConfigRequest libraries config projectId)
  let response ← Client.context "Failed to get catalog config" (Client.send request)
  if response.isSuccess then
    let (defaults, overrides) ← Client.context "Failed to parse catalog config"
      (.ofExcept (response.json libraries readCatalogConfig))
    match mapGet "prefix" defaults with
    | none => .throw (.msg "No prefix in catalog config")
    | some warehousePrefix =>
        return ⟨warehousePrefix, (mapGet "uri" overrides).getD config.catalogEndpoint, projectId⟩
  else .throw (response.failure libraries "Failed to get catalog config")

/-! ## Namespace and table -/

/-- What follows the catalog's base in the paths of a warehouse. -/
def namespacesUrl (catalogConfig : CatalogConfigResult) : String :=
  trimEndSlashes config.catalogEndpoint ++ "/catalog/v1/" ++ catalogConfig.warehousePrefix ++
    "/namespaces"

def namespaceUrl (catalogConfig : CatalogConfigResult) : String :=
  namespacesUrl config catalogConfig ++ "/" ++ namespaceName

def tablesUrl (catalogConfig : CatalogConfigResult) : String :=
  namespaceUrl config catalogConfig ++ "/tables"

def tableUrl (catalogConfig : CatalogConfigResult) : String :=
  tablesUrl config catalogConfig ++ "/" ++ fileCatalogTable

def createNamespaceRequest (catalogConfig : CatalogConfigResult) : HttpRequest where
  method := .post
  url := namespacesUrl config catalogConfig
  headers := [projectHeader catalogConfig.projectId]
  body := some (.object [("namespace", .array [.string namespaceName])])

def createTableRequest (catalogConfig : CatalogConfigResult) (schemaJson : Json) : HttpRequest where
  method := .post
  url := tablesUrl config catalogConfig
  headers := [projectHeader catalogConfig.projectId]
  body := some (.object [("name", .string fileCatalogTable), ("schema", schemaJson)])

def headRequest (url projectId : String) : HttpRequest where
  method := .head
  url := url
  headers := [projectHeader projectId]

/-- A `HEAD` that finds something; a failure is like an absence. -/
def headFinds (url projectId : String) : Client Bool := do
  let reply ← Client.attempt (Client.send (headRequest url projectId))
  return succeeded reply

def createNamespace : Client Bool := do
  let catalogConfig ← getWarehousePrefix libraries config
  Client.buildClient 10
  if ← headFinds (namespaceUrl config catalogConfig) catalogConfig.projectId then return false
  else
    let response ← Client.context "Failed to create namespace"
      (Client.send (createNamespaceRequest config catalogConfig))
    created libraries "Failed to create namespace" response

def createFileCatalogTable : Client Bool := do
  let catalogConfig ← getWarehousePrefix libraries config
  Client.buildClient 30
  if ← headFinds (tableUrl config catalogConfig) catalogConfig.projectId then return false
  else
    let schemaJson ← Client.context "Failed to serialize schema"
      (.ofExcept (libraries.schemaToValue buildFileCatalogSchema))
    let response ← Client.context "Failed to create table"
      (Client.send (createTableRequest config catalogConfig schemaJson))
    created libraries "Failed to create table" response

/-! ## The table's schema -/

/-- Properties of the catalog client: the host-accessible S3 endpoint, not the
catalog's internal one. -/
def buildRestCatalogProps (catalogConfig : CatalogConfigResult) : Properties :=
  [("uri", catalogConfig.uri),
    ("prefix", catalogConfig.warehousePrefix),
    ("warehouse", config.warehouse),
    ("header.X-Project-Id", catalogConfig.projectId),
    ("s3.endpoint", config.s3Endpoint),
    ("s3.access-key-id", config.s3AccessKey),
    ("s3.secret-access-key", config.s3SecretKey),
    ("s3.region", config.s3Region),
    ("s3.path-style-access", "true"),
    ("s3.allow-http", "true"),
    ("s3.remote-signing-enabled", "false")]

/-- Build a `RestCatalog`: the properties it was loaded with. -/
def buildRestCatalog : Client Properties := do
  let catalogConfig ← getWarehousePrefix libraries config
  let properties := buildRestCatalogProps config catalogConfig
  Client.context "Failed to build RestCatalog"
    (Client.demand (.loadCatalog "anti_entropator" properties) id)
  return properties

def loadTable (catalog : Properties) : Client Schema :=
  Client.context "Failed to load table"
    (Client.demand (.loadTable catalog namespaceName fileCatalogTable) id)

def checkTableSchema : Client Unit := do
  let catalog ← buildRestCatalog libraries config
  let schema ← loadTable catalog
  .ofExcept (verifyTableSchema libraries.displayType schema)

/-! ## Initialization -/

/-- The project: the known one while it is valid, else ours, created if need be. -/
def findProject : Client String := do
  let loadedId ← loadProjectIdFromState libraries
  match config.projectId.or loadedId with
  | some id =>
      if ← verifyProjectExists config id then return id
      else
        let (newId, _) ← ensureProject libraries config
        return newId
  | none =>
      let (id, _) ← ensureProject libraries config
      return id

def initProject (projectId : String) : Client Unit := do
  -- A state file that cannot be written is only a warning.
  let _ ← Client.attempt (saveProjectIdToState libraries projectId)
  let _ ← ensureWarehouse libraries config projectId
  let _ ← createNamespace libraries config
  let _ ← createFileCatalogTable libraries config
  checkTableSchema libraries config

def init : Client Unit := do
  .ofExcept (validateS3Credentials config)
  Client.context "RustFS not available. Run `docker compose up -d`" (checkRustfs libraries config)
  Client.context "Lakekeeper not available. Run `docker compose up -d`"
    (checkCatalog libraries config)
  let _ ← createBucket libraries config
  let projectId ← findProject libraries config
  initProject libraries { config with projectId := some projectId } projectId

end Checks

end AntiEntropator.Lakehouse
