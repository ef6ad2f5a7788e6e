import AntiEntropator.Lakehouse.Bootstrap

/-!
# The services behind the client

What exists in the object store and in the catalog, and what their answers say
about it.  A request may be refused, lost, or carried out without the client
learning of it; but what an answer says is true, and nothing is taken away.
-/

namespace AntiEntropator.Lakehouse

/-- What the services can hold. -/
inductive Resource where
  | bucket (url : String)
  | project (id : String)
  | warehouse (projectId name : String)
  /-- The prefix of a warehouse in API paths. -/
  | route (projectId warehouse warehousePrefix : String)
  | «namespace» (warehousePrefix name : String)
  | table (warehousePrefix namespaceName name : String) (schema : Schema)

/-- The services and the local files, as the world around a command. -/
structure Services (World : Type) where
  answers : Dialogue.Answers World Call.Reply
  holds : World → Resource → Prop
  file : World → String → Option (List UInt8)

def bucketUrl (config : LakehouseConfig) : String :=
  trimEndSlashes config.s3Endpoint ++ "/" ++ config.bucket

def bucketRequest (libraries : ClientLibraries) (config : LakehouseConfig) (instant : DateTime)
    (method : String) : HttpRequest :=
  signedS3Request libraries config instant method (bucketUrl config)
    (s3HostFromEndpoint config.s3Endpoint) ("/" ++ config.bucket)

/-- The status of a request that created something, or found it there. -/
def HttpResponse.Settled (response : HttpResponse) : Prop :=
  response.status = 200 ∨ response.status = 201 ∨ response.status = 409

def catalogTable (warehousePrefix : String) (schema : Schema) : Resource :=
  .table warehousePrefix namespaceName fileCatalogTable schema

section Laws

variable {World : Type} (services : Services World) (libraries : ClientLibraries)
  (config : LakehouseConfig)

/-- What the answers of the services mean. -/
structure Services.Truthful : Prop where
  /-- Nothing is taken away. -/
  kept : ∀ {world call reply after resource}, services.answers world call reply after →
    services.holds world resource → services.holds after resource
  route_unique : ∀ {world projectId warehouse first second},
    services.holds world (.route projectId warehouse first) →
    services.holds world (.route projectId warehouse second) → first = second
  table_unique : ∀ {world warehousePrefix namespaceName name first second},
    services.holds world (.table warehousePrefix namespaceName name first) →
    services.holds world (.table warehousePrefix namespaceName name second) → first = second
  bucket_head : ∀ {world instant response after},
    services.answers world (.send (bucketRequest libraries config instant "HEAD")) (.ok response)
      after → response.isSuccess = true → services.holds after (.bucket (bucketUrl config))
  bucket_put : ∀ {world instant response after},
    services.answers world (.send (bucketRequest libraries config instant "PUT")) (.ok response)
      after → response.isSuccess = true ∨ response.status = 409 →
    services.holds after (.bucket (bucketUrl config))
  project_get : ∀ {world projectId response after},
    services.answers world (.send (verifyProjectRequest config projectId)) (.ok response) after →
    response.isSuccess = true → services.holds after (.project projectId)
  project_post : ∀ {world response after projectId},
    services.answers world (.send (createProjectRequest config)) (.ok response) after →
    response.status = 200 ∨ response.status = 201 →
    response.json libraries readProjectResponse = .ok projectId →
    services.holds after (.project projectId)
  project_conflict : ∀ {world response after projectId},
    services.answers world (.send (createProjectRequest config)) (.ok response) after →
    response.status = 409 →
    (getMember "project-id" (response.jsonOrNull libraries)).bind Ingest.readString =
      some projectId →
    services.holds after (.project projectId)
  warehouse_list : ∀ {world projectId response after names name},
    services.answers world (.send (listWarehousesRequest config projectId)) (.ok response) after →
    response.isSuccess = true → response.json libraries readWarehouseNames = .ok names →
    name ∈ names → services.holds after (.warehouse projectId name)
  warehouse_post : ∀ {world projectId response after},
    services.answers world (.send (createWarehouseRequest config projectId)) (.ok response) after →
    response.Settled → services.holds after (.warehouse projectId config.warehouse)
  route_get : ∀ {world projectId request response after defaults overrides warehousePrefix},
    catalogConfigRequest libraries config projectId = .ok request →
    services.answers world (.send request) (.ok response) after → response.isSuccess = true →
    response.json libraries readCatalogConfig = .ok (defaults, overrides) →
    mapGet "prefix" defaults = some warehousePrefix →
    services.holds after (.route projectId config.warehouse warehousePrefix)
  namespace_head : ∀ {world} {catalogConfig : CatalogConfigResult} {response after},
    services.answers world (.send (headRequest (namespaceUrl config catalogConfig)
      catalogConfig.projectId)) (.ok response) after → response.isSuccess = true →
    services.holds after (.namespace catalogConfig.warehousePrefix namespaceName)
  namespace_post : ∀ {world} {catalogConfig : CatalogConfigResult} {response after},
    services.answers world (.send (createNamespaceRequest config catalogConfig)) (.ok response)
      after → response.Settled →
    services.holds after (.namespace catalogConfig.warehousePrefix namespaceName)
  table_head : ∀ {world} {catalogConfig : CatalogConfigResult} {response after},
    services.answers world (.send (headRequest (tableUrl config catalogConfig)
      catalogConfig.projectId)) (.ok response) after → response.isSuccess = true →
    ∃ schema, services.holds after (catalogTable catalogConfig.warehousePrefix schema)
  table_post : ∀ {world} {catalogConfig : CatalogConfigResult} {schemaJson response after},
    services.answers world (.send (createTableRequest config catalogConfig schemaJson))
      (.ok response) after → response.Settled →
    ∃ schema, services.holds after (catalogTable catalogConfig.warehousePrefix schema)
  table_load : ∀ {world catalogConfig schema after},
    services.answers world (.loadTable (buildRestCatalogProps config catalogConfig) namespaceName
      fileCatalogTable) (.ok schema) after →
    services.holds after (catalogTable catalogConfig.warehousePrefix schema)
  /-- A table only ever appears by a request to its place, with the schema asked for. -/
  table_appears : ∀ {world call reply after warehousePrefix schema},
    services.answers world call reply after →
    services.holds after (catalogTable warehousePrefix schema) →
    services.holds world (catalogTable warehousePrefix schema) ∨
      ∃ request catalogConfig, call = .send request ∧ request.method = .post ∧
        request.url = tablesUrl config catalogConfig ∧
        ∀ schemaJson, libraries.schemaToValue buildFileCatalogSchema = .ok schemaJson →
          request.body = (createTableRequest config catalogConfig schemaJson).body →
          schema = buildFileCatalogSchema
  /-- A file that can be read has what is read. -/
  file_read : ∀ {world path bytes after}, services.answers world (.readFile path) (some bytes) after →
    services.file world path = some bytes
  file_written : ∀ {world path bytes after},
    services.answers world (.writeFile path bytes) (.ok ()) after →
    services.file after path = some bytes
  /-- Only writing a file changes it. -/
  file_kept : ∀ {world call reply after path}, services.answers world call reply after →
    (∀ bytes, call ≠ .writeFile path bytes) → services.file after path = services.file world path

/-- A lakehouse that ingest can work with, in a project. -/
structure Ready (projectId : String) (world : World) : Prop where
  bucket : services.holds world (.bucket (bucketUrl config))
  project : services.holds world (.project projectId)
  warehouse : services.holds world (.warehouse projectId config.warehouse)
  catalog : ∃ warehousePrefix schema,
    services.holds world (.route projectId config.warehouse warehousePrefix) ∧
    services.holds world (.namespace warehousePrefix namespaceName) ∧
    services.holds world (catalogTable warehousePrefix schema) ∧
    verifyTableSchema libraries.displayType schema = .ok ()

end Laws

end AntiEntropator.Lakehouse
