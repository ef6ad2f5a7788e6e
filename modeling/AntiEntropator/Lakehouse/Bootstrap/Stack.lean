import AntiEntropator.Ingest.Journal.Storage
import AntiEntropator.Lakehouse.Bootstrap.Dependencies
import AntiEntropator.Lakehouse.Bootstrap.Memory

/-!
# A stack that keeps the laws

The services as one state: what was created of a bucket, a project, a warehouse
in it, a namespace and the table.  A request in its place is carried out; one
that is out of place is not found.
-/

namespace AntiEntropator.Lakehouse

open Dialogue

/-- What there is, and the local files. -/
structure Stack where
  bucket : Bool := false
  project : Bool := false
  warehouse : Bool := false
  «namespace» : Bool := false
  table : Bool := false
  files : String → Option (List UInt8) := fun _ => none
  /-- What was written to Parquet files. -/
  written : String → List RecordBatch := fun _ => []
  /-- What transactions have appended. -/
  landed : List (List RecordBatch) := []

section Serve

variable (libraries : ClientLibraries) (config : LakehouseConfig)
  (projectId warehousePrefix : String)

def Stack.holds (stack : Stack) : Resource → Prop
  | .bucket url => stack.bucket = true ∧ url = bucketUrl config
  | .project id => stack.project = true ∧ id = projectId
  | .warehouse id name => stack.warehouse = true ∧ id = projectId ∧ name = config.warehouse
  | .route id name path =>
      stack.warehouse = true ∧ id = projectId ∧ name = config.warehouse ∧ path = warehousePrefix
  | .namespace path name =>
      stack.namespace = true ∧ path = warehousePrefix ∧ name = namespaceName
  | .table path space name schema =>
      stack.table = true ∧ path = warehousePrefix ∧ space = namespaceName ∧
        name = fileCatalogTable ∧ schema = buildFileCatalogSchema

def respond (status : Nat) (value : Json) : HttpResponse where
  status := status
  body := .ok (libraries.json.toVecPretty value)

/-- The answer of an endpoint that creates: a conflict where it was there. -/
def createdOr (there : Bool) (value : Json) : HttpResponse :=
  respond libraries (if there then 409 else 201) value

def foundOr (there : Bool) (value : Json) : HttpResponse :=
  if there then respond libraries 200 value else respond libraries 404 .null

def projectDocument : Json := .object [("project-id", .string projectId)]

def warehousesDocument (stack : Stack) : Json :=
  .object [("warehouses", .array
    (if stack.warehouse then [.object [("name", .string config.warehouse)]] else []))]

def configDocument : Json :=
  .object [("defaults", .object [("prefix", .string warehousePrefix)]), ("overrides", .object [])]

def catalogAt : CatalogConfigResult := ⟨warehousePrefix, config.catalogEndpoint, projectId⟩

def Stack.serveHead (stack : Stack) (request : HttpRequest) : HttpResponse :=
  if request.headers.length = 4 then foundOr libraries stack.bucket .null
  else if request.url = namespaceUrl config (catalogAt config projectId warehousePrefix) then
    foundOr libraries stack.namespace .null
  else foundOr libraries
    (stack.table && request.url = tableUrl config (catalogAt config projectId warehousePrefix)) .null

def Stack.serveGet (stack : Stack) (request : HttpRequest) : HttpResponse :=
  if request.headers = [] then respond libraries 200 .null
  else if request.headers ≠ [projectHeader projectId] then respond libraries 404 .null
  else if request.query ≠ [] then
    foundOr libraries stack.warehouse (configDocument warehousePrefix)
  else if request.url = projectUrl config then
    foundOr libraries stack.project (projectDocument projectId)
  else foundOr libraries stack.project (warehousesDocument config stack)

def Stack.servePost (stack : Stack) (request : HttpRequest) : HttpResponse × Stack :=
  match request.body with
  | some (.object ((name, _) :: _)) =>
      if name = "project-name" then
        (createdOr libraries stack.project (projectDocument projectId), { stack with project := true })
      else if name = "warehouse-name" ∧ request.headers = [projectHeader projectId] ∧ stack.project then
        (createdOr libraries stack.warehouse .null, { stack with warehouse := true })
      else if name = "namespace" ∧ stack.warehouse ∧
          request.url = namespacesUrl config (catalogAt config projectId warehousePrefix) then
        (createdOr libraries stack.namespace .null, { stack with «namespace» := true })
      else if name = "name" ∧ stack.namespace ∧
          request.url = tablesUrl config (catalogAt config projectId warehousePrefix) then
        (createdOr libraries stack.table .null, { stack with table := true })
      else (respond libraries 404 .null, stack)
  | _ => (respond libraries 404 .null, stack)

def Stack.serve (stack : Stack) (request : HttpRequest) : HttpResponse × Stack :=
  match request.method with
  | .put => (createdOr libraries stack.bucket .null, { stack with bucket := true })
  | .head => (stack.serveHead libraries config projectId warehousePrefix request, stack)
  | .get => (stack.serveGet libraries config projectId warehousePrefix request, stack)
  | .post => stack.servePost libraries config projectId warehousePrefix request

def Stack.answer (stack : Stack) : (call : Call) → call.Reply × Stack
  | .buildClient _ => (.ok (), stack)
  | .send request =>
      let (response, after) := stack.serve libraries config projectId warehousePrefix request
      (.ok response, after)
  | .now => ((0 : Int), stack)
  | .readFile path => (stack.files path, stack)
  | .createParents _ => (.ok (), stack)
  | .writeFile path bytes =>
      (.ok (), { stack with files := Function.update stack.files path (some bytes) })
  | .loadCatalog _ _ => (.ok (), stack)
  | .loadTable properties _ _ =>
      (if stack.table ∧ mapGet "prefix" properties = some warehousePrefix then
        .ok buildFileCatalogSchema
      else .error (.msg "table does not exist"), stack)
  | .newV4 => ((0 : Uuid), stack)
  | .generateLocation fileName => (.ok ("s3://anti-entropator/warehouse/data/" ++ fileName), stack)
  | .openParquet path => (.ok (), { stack with written := Function.update stack.written path [] })
  | .writeParquet path batch =>
      (.ok (), { stack with
        written := Function.update stack.written path (stack.written path ++ [batch]) })
  | .closeParquet path =>
      (.ok [.ok ⟨path, ((stack.written path).map RecordBatch.numRows).sum⟩], stack)
  | .commit _ dataFiles =>
      (.ok (), { stack with
        landed := stack.landed ++ [dataFiles.flatMap fun file => stack.written file.path] })

def stackServices : Services Stack where
  answers stack call reply after :=
    stack.answer libraries config projectId warehousePrefix call = (reply, after)
  holds := Stack.holds config projectId warehousePrefix
  file := Stack.files

end Serve

section Laws

variable {libraries : ClientLibraries} {config : LakehouseConfig}
  {projectId warehousePrefix : String}

@[simp]
theorem catalogAt_warehousePrefix :
    (catalogAt config projectId warehousePrefix).warehousePrefix = warehousePrefix := rfl

theorem respond_json {α : Type} {status : Nat} {value : Json} {read : Json → Option α}
    (plain : value.All Ingest.Plain) (shallow : value.nesting < 128) {result : α}
    (reads : read value = some result) :
    (respond libraries status value).json libraries read = .ok result := by
  rw [HttpResponse.json, respond]
  dsimp only
  rw [libraries.json.fromSlice_toVecPretty value plain shallow, Option.bind_some, reads]

theorem isSuccess_foundOr {there : Bool} {value : Json} :
    (foundOr libraries there value).isSuccess = there := by
  cases there <;> rfl

theorem plain_projectDocument : (projectDocument projectId).All Ingest.Plain := by
  simp [projectDocument, Json.All, Json.AllMembers, Ingest.Plain]

theorem read_projectDocument {status : Nat} :
    (respond libraries status (projectDocument projectId)).json libraries readProjectResponse =
      .ok projectId :=
  respond_json plain_projectDocument (by
    simp [projectDocument, Json.nesting, Json.nestingMembers]) rfl

theorem member_projectDocument {status : Nat} :
    (getMember "project-id"
        ((respond libraries status (projectDocument projectId)).jsonOrNull libraries)).bind
      Ingest.readString = some projectId := by
  have whole : (respond libraries status (projectDocument projectId)).json libraries some =
      .ok (projectDocument projectId) :=
    respond_json plain_projectDocument (by
      simp [projectDocument, Json.nesting, Json.nestingMembers]) rfl
  rw [HttpResponse.jsonOrNull, whole]
  rfl

theorem read_warehousesDocument {status : Nat} {stack : Stack} :
    (respond libraries status (warehousesDocument config stack)).json libraries
      readWarehouseNames = .ok (if stack.warehouse then [config.warehouse] else []) := by
  refine respond_json ?_ ?_ ?_
  · cases there : stack.warehouse <;> simp [warehousesDocument, there, Json.All, Json.AllMembers,
      Json.AllItems, Ingest.Plain]
  · cases there : stack.warehouse <;> simp [warehousesDocument, there, Json.nesting,
      Json.nestingMembers, Json.nestingItems]
  · cases there : stack.warehouse <;> simp [warehousesDocument, there, readWarehouseNames,
      structFields, Ingest.field, Ingest.readString]

theorem read_configDocument {status : Nat} :
    (respond libraries status (configDocument warehousePrefix)).json libraries readCatalogConfig =
      .ok ([("prefix", warehousePrefix)], []) := by
  refine respond_json ?_ ?_ ?_
  · simp [configDocument, Json.All, Json.AllMembers, Ingest.Plain]
  · simp [configDocument, Json.nesting, Json.nestingMembers]
  · simp [configDocument, readCatalogConfig, readStringMap, structFields, Ingest.field,
      Ingest.readString]

theorem mapGet_buildRestCatalogProps {catalogConfig : CatalogConfigResult} :
    mapGet "prefix" (buildRestCatalogProps config catalogConfig) =
      some catalogConfig.warehousePrefix := by
  simp [mapGet, buildRestCatalogProps]

/-! ## One endpoint each -/

theorem namespaceUrl_eq_iff {first second : CatalogConfigResult} :
    namespaceUrl config first = namespaceUrl config second ↔
      first.warehousePrefix = second.warehousePrefix := by
  constructor
  · intro same
    have texts := congrArg String.toList same
    simp only [namespaceUrl, String.toList_append, List.append_assoc] at texts
    have base : namespacesUrl config first = namespacesUrl config second :=
      String.toList_injective (List.append_cancel_right texts)
    exact namespacesUrl_injective base
  · intro same
    rw [namespaceUrl, namespaceUrl, namespacesUrl, namespacesUrl, same]

theorem tableUrl_eq_iff {first second : CatalogConfigResult} :
    tableUrl config first = tableUrl config second ↔
      first.warehousePrefix = second.warehousePrefix := by
  constructor
  · intro same
    have texts := congrArg String.toList same
    simp only [tableUrl, String.toList_append, List.append_assoc] at texts
    have base : tablesUrl config first = tablesUrl config second :=
      String.toList_injective (List.append_cancel_right texts)
    exact tablesUrl_injective base
  · intro same
    rw [tableUrl, tableUrl, tablesUrl, tablesUrl, namespaceUrl_eq_iff.mpr same]

theorem tableUrl_ne_namespaceUrl (first second : CatalogConfigResult) :
    tableUrl config first ≠ namespaceUrl config second := by
  intro same
  have texts := congrArg (fun text => text.toList.getLast?) same
  simp [tableUrl, namespaceUrl, namespaceName, fileCatalogTable] at texts

variable {stack : Stack}

theorem serve_bucketHead {instant : DateTime} :
    stack.serve libraries config projectId warehousePrefix
        (bucketRequest libraries config instant "HEAD") =
      (foundOr libraries stack.bucket .null, stack) := rfl

theorem serve_bucketPut {instant : DateTime} :
    stack.serve libraries config projectId warehousePrefix
        (bucketRequest libraries config instant "PUT") =
      (createdOr libraries stack.bucket .null, { stack with bucket := true }) := rfl

theorem serve_verifyProject {id : String} :
    stack.serve libraries config projectId warehousePrefix (verifyProjectRequest config id) =
      (if id = projectId then foundOr libraries stack.project (projectDocument projectId)
        else respond libraries 404 .null, stack) := by
  by_cases same : id = projectId <;>
    simp [Stack.serve, Stack.serveGet, verifyProjectRequest, projectHeader, same]

theorem serve_listWarehouses {id : String} :
    stack.serve libraries config projectId warehousePrefix (listWarehousesRequest config id) =
      (if id = projectId then foundOr libraries stack.project (warehousesDocument config stack)
        else respond libraries 404 .null, stack) := by
  have other : warehousesUrl config ≠ projectUrl config := by
    intro same
    have texts := congrArg String.toList same
    simp [warehousesUrl, projectUrl] at texts
  by_cases same : id = projectId <;>
    simp [Stack.serve, Stack.serveGet, listWarehousesRequest, projectHeader, same, other]

theorem serve_catalogConfig {id : String} {request : HttpRequest}
    (built : catalogConfigRequest libraries config id = .ok request) :
    stack.serve libraries config projectId warehousePrefix request =
      (if id = projectId then foundOr libraries stack.warehouse (configDocument warehousePrefix)
        else respond libraries 404 .null, stack) := by
  unfold catalogConfigRequest at built
  split at built
  next => cases built
  next url _ =>
    cases built
    by_cases same : id = projectId <;> simp [Stack.serve, Stack.serveGet, projectHeader, same]

theorem serve_namespaceHead {catalogConfig : CatalogConfigResult} :
    stack.serve libraries config projectId warehousePrefix
        (headRequest (namespaceUrl config catalogConfig) catalogConfig.projectId) =
      (foundOr libraries (decide (catalogConfig.warehousePrefix = warehousePrefix) &&
        stack.namespace) .null, stack) := by
  have other : namespaceUrl config catalogConfig ≠
      tableUrl config (catalogAt config projectId warehousePrefix) :=
    (tableUrl_ne_namespaceUrl _ _).symm
  by_cases same : catalogConfig.warehousePrefix = warehousePrefix <;>
    simp [Stack.serve, Stack.serveHead, headRequest, namespaceUrl_eq_iff, same, other]

theorem serve_tableHead {catalogConfig : CatalogConfigResult} :
    stack.serve libraries config projectId warehousePrefix
        (headRequest (tableUrl config catalogConfig) catalogConfig.projectId) =
      (foundOr libraries (decide (catalogConfig.warehousePrefix = warehousePrefix) &&
        stack.table) .null, stack) := by
  have other : tableUrl config catalogConfig ≠
      namespaceUrl config (catalogAt config projectId warehousePrefix) :=
    tableUrl_ne_namespaceUrl _ _
  by_cases same : catalogConfig.warehousePrefix = warehousePrefix <;>
    simp [Stack.serve, Stack.serveHead, headRequest, tableUrl_eq_iff, same, other]

theorem serve_createProject :
    stack.serve libraries config projectId warehousePrefix (createProjectRequest config) =
      (createdOr libraries stack.project (projectDocument projectId),
        { stack with project := true }) := rfl

theorem serve_createWarehouse {id : String} :
    stack.serve libraries config projectId warehousePrefix (createWarehouseRequest config id) =
      if id = projectId ∧ stack.project then
        (createdOr libraries stack.warehouse .null, { stack with warehouse := true })
      else (respond libraries 404 .null, stack) := by
  simp [Stack.serve, Stack.servePost, createWarehouseRequest, buildCreateWarehouseRequest,
    projectHeader]

theorem serve_createNamespace {catalogConfig : CatalogConfigResult} :
    stack.serve libraries config projectId warehousePrefix
        (createNamespaceRequest config catalogConfig) =
      if stack.warehouse ∧ catalogConfig.warehousePrefix = warehousePrefix then
        (createdOr libraries stack.namespace .null, { stack with «namespace» := true })
      else (respond libraries 404 .null, stack) := by
  have urls : namespacesUrl config catalogConfig =
        namespacesUrl config (catalogAt config projectId warehousePrefix) ↔
      catalogConfig.warehousePrefix = warehousePrefix :=
    ⟨namespacesUrl_injective, fun same => by
      rw [namespacesUrl, namespacesUrl, same, catalogAt_warehousePrefix]⟩
  simp [Stack.serve, Stack.servePost, createNamespaceRequest, urls]

theorem serve_createTable {catalogConfig : CatalogConfigResult} {schemaJson : Json} :
    stack.serve libraries config projectId warehousePrefix
        (createTableRequest config catalogConfig schemaJson) =
      if stack.namespace ∧ catalogConfig.warehousePrefix = warehousePrefix then
        (createdOr libraries stack.table .null, { stack with table := true })
      else (respond libraries 404 .null, stack) := by
  have urls : tablesUrl config catalogConfig =
        tablesUrl config (catalogAt config projectId warehousePrefix) ↔
      catalogConfig.warehousePrefix = warehousePrefix :=
    ⟨tablesUrl_injective, fun same => congrArg (· ++ "/tables") (namespaceUrl_eq_iff.mpr same)⟩
  simp [Stack.serve, Stack.servePost, createTableRequest, urls]

/-! ## The laws -/

/-- What a request changes: a `POST` at most one thing, and only ever to being there. -/
theorem serve_grows (stack : Stack) (request : HttpRequest) {resource : Resource}
    (held : stack.holds config projectId warehousePrefix resource) :
    (stack.serve libraries config projectId warehousePrefix request).2.holds config projectId
      warehousePrefix resource := by
  have put : ∀ {after : Stack}, (stack.bucket = true → after.bucket = true) →
      (stack.project = true → after.project = true) →
      (stack.warehouse = true → after.warehouse = true) →
      (stack.namespace = true → after.namespace = true) →
      (stack.table = true → after.table = true) →
      after.holds config projectId warehousePrefix resource := by
    intro after bucket project warehouse named table
    cases resource with
    | bucket url => exact ⟨bucket held.1, held.2⟩
    | project id => exact ⟨project held.1, held.2⟩
    | warehouse id name => exact ⟨warehouse held.1, held.2⟩
    | route id name path => exact ⟨warehouse held.1, held.2⟩
    | «namespace» path name => exact ⟨named held.1, held.2⟩
    | table path space name schema => exact ⟨table held.1, held.2⟩
  unfold Stack.serve
  split
  · exact put (fun _ => rfl) id id id id
  · exact held
  · exact held
  · unfold Stack.servePost
    split
    · split_ifs
      · exact put id (fun _ => rfl) id id id
      · exact put id id (fun _ => rfl) id id
      · exact put id id id (fun _ => rfl) id
      · exact put id id id id fun _ => rfl
      · exact held
    · exact held

theorem answers_send_iff {request : HttpRequest} {reply : Except Error HttpResponse}
    {after : Stack} :
    (stackServices libraries config projectId warehousePrefix).answers stack (.send request) reply
        after ↔
      reply = .ok (stack.serve libraries config projectId warehousePrefix request).1 ∧
      after = (stack.serve libraries config projectId warehousePrefix request).2 := by
  simp only [stackServices, Stack.answer, Prod.mk.injEq]
  exact and_congr eq_comm eq_comm

theorem answers_send {request : HttpRequest} {reply : Except Error HttpResponse}
    {response : HttpResponse} {served after : Stack}
    (serves : stack.serve libraries config projectId warehousePrefix request = (response, served))
    (answered : (stackServices libraries config projectId warehousePrefix).answers stack
      (.send request) reply after) : reply = .ok response ∧ after = served := by
  obtain ⟨same, stays⟩ := answers_send_iff.mp answered
  rw [serves] at same stays
  exact ⟨same, stays⟩

/-- Something is created only where it has its place. -/
theorem placed_of_settled {request : HttpRequest} {response made : HttpResponse}
    {served after : Stack} {placed : Prop} [Decidable placed]
    (serves : stack.serve libraries config projectId warehousePrefix request =
      if placed then (made, served) else (respond libraries 404 .null, stack))
    (answered : (stackServices libraries config projectId warehousePrefix).answers stack
      (.send request) (.ok response) after) (settled : response.Settled) :
    placed ∧ after = served := by
  rw [answers_send_iff, serves] at answered
  split_ifs at answered with place
  · exact ⟨place, answered.2⟩
  · obtain ⟨same, -⟩ := answered
    cases same
    simp [HttpResponse.Settled, respond] at settled

theorem serve_leaves (stack : Stack) (request : HttpRequest) :
    (stack.serve libraries config projectId warehousePrefix request).2.files = stack.files ∧
      (stack.serve libraries config projectId warehousePrefix request).2.landed =
        stack.landed := by
  unfold Stack.serve
  split
  · exact ⟨rfl, rfl⟩
  · exact ⟨rfl, rfl⟩
  · exact ⟨rfl, rfl⟩
  · unfold Stack.servePost
    split
    · split_ifs <;> exact ⟨rfl, rfl⟩
    · exact ⟨rfl, rfl⟩

theorem serve_table (stack : Stack) (request : HttpRequest)
    (there : (stack.serve libraries config projectId warehousePrefix request).2.table = true) :
    stack.table = true ∨ request.method = .post ∧
      request.url = tablesUrl config (catalogAt config projectId warehousePrefix) := by
  unfold Stack.serve at there
  split at there
  · exact .inl there
  · exact .inl there
  · exact .inl there
  · next posted =>
      unfold Stack.servePost at there
      split at there
      · split_ifs at there with project warehouse named table
        · exact .inl there
        · exact .inl there
        · exact .inl there
        · exact .inr ⟨posted, table.2.2⟩
        · exact .inl there
      · exact .inl there

theorem answer_files (stack : Stack) (call : Call) {path : String}
    (other : ∀ bytes, call ≠ .writeFile path bytes) :
    (stack.answer libraries config projectId warehousePrefix call).2.files path =
      stack.files path := by
  cases call with
  | send request => exact congrFun (serve_leaves stack request).1 path
  | writeFile written bytes =>
      refine Function.update_of_ne (fun same => other bytes ?_) _ _
      rw [same]
  | _ => rfl

theorem answer_grows (stack : Stack) (call : Call) {resource : Resource}
    (held : stack.holds config projectId warehousePrefix resource) :
    (stack.answer libraries config projectId warehousePrefix call).2.holds config projectId
      warehousePrefix resource := by
  cases call with
  | send request => exact serve_grows stack request held
  | writeFile path bytes => cases resource <;> exact held
  | _ => exact held

theorem stackServices_truthful :
    (stackServices libraries config projectId warehousePrefix).Truthful libraries config where
  kept := fun {world call reply after resource} answered held => by
    have grown : (world.answer libraries config projectId warehousePrefix call).2.holds config
        projectId warehousePrefix resource := answer_grows world call held
    rw [show world.answer libraries config projectId warehousePrefix call = (reply, after) from
      answered] at grown
    exact grown
  route_unique := fun first second => first.2.2.2.trans second.2.2.2.symm
  table_unique := fun first second => first.2.2.2.2.trans second.2.2.2.2.symm
  bucket_head := by
    intro world instant response after answered success
    obtain ⟨same, rfl⟩ := answers_send serve_bucketHead answered
    cases same
    exact ⟨isSuccess_foundOr.symm.trans success, rfl⟩
  bucket_put := by
    intro world instant response after answered settled
    obtain ⟨same, rfl⟩ := answers_send serve_bucketPut answered
    exact ⟨rfl, rfl⟩
  project_get := by
    intro world id response after answered success
    obtain ⟨same, rfl⟩ := answers_send serve_verifyProject answered
    cases same
    split_ifs at success with named
    · exact ⟨isSuccess_foundOr.symm.trans success, named⟩
    · cases success
  project_post := by
    intro world response after id answered settled read
    obtain ⟨same, rfl⟩ := answers_send serve_createProject answered
    cases same
    exact ⟨rfl, Except.ok.inj (read.symm.trans read_projectDocument)⟩
  project_conflict := by
    intro world response after id answered settled read
    obtain ⟨same, rfl⟩ := answers_send serve_createProject answered
    cases same
    exact ⟨rfl, Option.some.inj (read.symm.trans member_projectDocument)⟩
  warehouse_list := by
    intro world id response after names name answered success read member
    obtain ⟨same, rfl⟩ := answers_send serve_listWarehouses answered
    cases same
    split_ifs at success read with named
    · rw [isSuccess_foundOr] at success
      rw [foundOr, if_pos success, read_warehousesDocument] at read
      cases read
      split_ifs at member with there
      · exact ⟨there, named, List.mem_singleton.mp member⟩
      · cases member
    · cases success
  warehouse_post := by
    intro world id response after answered settled
    obtain ⟨placed, rfl⟩ := placed_of_settled serve_createWarehouse answered settled
    exact ⟨rfl, placed.1, rfl⟩
  route_get := by
    intro world id request response after defaults overrides path built answered success read found
    obtain ⟨same, rfl⟩ := answers_send (serve_catalogConfig built) answered
    cases same
    split_ifs at success read with named
    · rw [isSuccess_foundOr] at success
      rw [foundOr, if_pos success, read_configDocument] at read
      cases read
      exact ⟨success, named, rfl, (Option.some.inj found).symm⟩
    · cases success
  namespace_head := by
    intro world catalogConfig response after answered success
    obtain ⟨same, rfl⟩ := answers_send serve_namespaceHead answered
    cases same
    rw [isSuccess_foundOr, Bool.and_eq_true, decide_eq_true_eq] at success
    exact ⟨success.2, success.1, rfl⟩
  namespace_post := by
    intro world catalogConfig response after answered settled
    obtain ⟨placed, rfl⟩ := placed_of_settled serve_createNamespace answered settled
    exact ⟨rfl, placed.2, rfl⟩
  table_head := by
    intro world catalogConfig response after answered success
    obtain ⟨same, rfl⟩ := answers_send serve_tableHead answered
    cases same
    rw [isSuccess_foundOr, Bool.and_eq_true, decide_eq_true_eq] at success
    exact ⟨_, success.2, success.1, rfl, rfl, rfl⟩
  table_post := by
    intro world catalogConfig schemaJson response after answered settled
    obtain ⟨placed, rfl⟩ := placed_of_settled serve_createTable answered settled
    exact ⟨_, rfl, placed.2, rfl, rfl, rfl⟩
  table_load := by
    intro world catalogConfig schema after answered
    obtain ⟨loaded, rfl⟩ := Prod.mk.inj answered
    simp only [mapGet_buildRestCatalogProps, Option.some.injEq] at loaded
    split_ifs at loaded with there
    cases loaded
    exact ⟨there.1, there.2, rfl, rfl, rfl⟩
  table_appears := by
    intro world call reply after path schema answered held
    obtain ⟨there, samePath, -, -, sameSchema⟩ := held
    have appeared : (world.answer libraries config projectId warehousePrefix call).2.table =
        true := by
      rw [show world.answer libraries config projectId warehousePrefix call = (reply, after) from
        answered]
      exact there
    by_cases before : world.table = true
    · exact .inl ⟨before, samePath, rfl, rfl, sameSchema⟩
    · cases call with
      | send request =>
          obtain ⟨posted, url⟩ := (serve_table world request appeared).resolve_left before
          exact .inr ⟨request, _, rfl, posted, url, fun _ _ _ => sameSchema⟩
      | _ => exact absurd appeared before
  file_read := by
    intro world path bytes after answered
    exact congrArg Prod.fst answered
  file_written := by
    rintro world path bytes after ⟨⟩
    simp [stackServices]
  file_kept := by
    intro world call reply after path answered other
    have kept : (world.answer libraries config projectId warehousePrefix call).2.files path =
        world.files path := answer_files world call other
    rw [show world.answer libraries config projectId warehousePrefix call = (reply, after) from
      answered] at kept
    exact kept

/-! ## The further laws -/

theorem isSuccess_createdOr {there : Bool} {value : Json} :
    (createdOr libraries there value).isSuccess = true ∨
      (createdOr libraries there value).status = 409 := by
  cases there
  · exact .inl rfl
  · exact .inr rfl

theorem settled_createdOr {there : Bool} {value : Json} :
    (createdOr libraries there value).Settled := by
  cases there
  · exact .inr (.inl rfl)
  · exact .inr (.inr rfl)

theorem stackServices_healthy
    (endpoint : ∀ id, ∃ request, catalogConfigRequest libraries config id = .ok request)
    (value : ∃ schemaJson, libraries.schemaToValue buildFileCatalogSchema = .ok schemaJson) :
    (stackServices libraries config projectId warehousePrefix).Healthy libraries config where
  client := fun answered => (congrArg Prod.fst answered).symm
  rustfs := fun answered => ⟨_, (answers_send_iff.mp answered).1, rfl⟩
  lakekeeper := fun answered => ⟨_, (answers_send_iff.mp answered).1, rfl⟩
  bucket_put := fun answered => ⟨_, (answers_send serve_bucketPut answered).1, isSuccess_createdOr⟩
  project_post := by
    intro world reply after answered
    refine ⟨_, (answers_send serve_createProject answered).1, ?_⟩
    cases world.project
    · exact .inl ⟨.inr rfl, _, read_projectDocument⟩
    · exact .inr ⟨rfl, _, member_projectDocument⟩
  warehouse_list := by
    rintro world id reply after ⟨there, rfl⟩ answered
    refine ⟨_, (answers_send serve_listWarehouses answered).1, ?_⟩
    rw [if_pos rfl, there]
    exact ⟨rfl, _, read_warehousesDocument⟩
  warehouse_post := by
    rintro world id reply after ⟨there, rfl⟩ answered
    refine ⟨_, (answers_send_iff.mp answered).1, ?_⟩
    rw [serve_createWarehouse, if_pos ⟨rfl, there⟩]
    exact settled_createdOr
  endpoint := endpoint
  route_get := by
    rintro world id request reply after ⟨there, rfl, -⟩ built answered
    refine ⟨_, (answers_send (serve_catalogConfig built) answered).1, ?_⟩
    rw [if_pos rfl, there]
    exact ⟨rfl, _, _, warehousePrefix, read_configDocument, by simp [mapGet]⟩
  namespace_post := by
    rintro world catalogConfig reply after ⟨there, -, -, same⟩ answered
    refine ⟨_, (answers_send_iff.mp answered).1, ?_⟩
    rw [serve_createNamespace, if_pos ⟨there, same⟩]
    exact settled_createdOr
  schema_value := value
  table_post := by
    rintro world catalogConfig schemaJson reply after ⟨there, same, -⟩ answered
    refine ⟨_, (answers_send_iff.mp answered).1, ?_⟩
    rw [serve_createTable, if_pos ⟨there, same⟩]
    exact settled_createdOr
  catalog_load := fun answered => (congrArg Prod.fst answered).symm
  table_load := by
    rintro world catalogConfig schema reply after ⟨there, same, -, -, rfl⟩ answered
    obtain ⟨loaded, -⟩ := Prod.mk.inj answered
    simp only [mapGet_buildRestCatalogProps, Option.some.injEq] at loaded
    rw [if_pos ⟨there, same⟩] at loaded
    exact loaded.symm

theorem responds_foundOr {request : HttpRequest} {there : Bool} {value : Json} {served after : Stack}
    {reply : Except Error HttpResponse}
    (serves : stack.serve libraries config projectId warehousePrefix request =
      (foundOr libraries there value, served)) (found : there = true)
    (answered : (stackServices libraries config projectId warehousePrefix).answers stack
      (.send request) reply after) :
    Responds (fun response => response.isSuccess = true) reply :=
  ⟨_, (answers_send serves answered).1, isSuccess_foundOr.trans found⟩

theorem stackServices_observant :
    (stackServices libraries config projectId warehousePrefix).Observant libraries config where
  bucket_head := fun held answered => responds_foundOr serve_bucketHead held.1 answered
  project_get := by
    rintro world id reply after ⟨there, rfl⟩ answered
    exact responds_foundOr (serve_verifyProject.trans (by rw [if_pos rfl])) there answered
  warehouse_list := by
    rintro world id reply after ⟨project, rfl⟩ ⟨there, -⟩ answered
    refine ⟨_, (answers_send serve_listWarehouses answered).1, ?_⟩
    rw [if_pos rfl, project]
    refine ⟨rfl, _, read_warehousesDocument, ?_⟩
    rw [if_pos there]
    exact List.mem_singleton.mpr rfl
  namespace_head := by
    rintro world catalogConfig reply after ⟨there, same, -⟩ answered
    exact responds_foundOr serve_namespaceHead (by simp [there, same]) answered
  table_head := by
    rintro world catalogConfig schema reply after ⟨there, same, -⟩ answered
    exact responds_foundOr serve_tableHead (by simp [there, same]) answered

theorem stackServices_readable :
    (stackServices libraries config projectId warehousePrefix).Readable :=
  fun answered => (congrArg Prod.fst answered).symm

theorem stackServices_writable :
    (stackServices libraries config projectId warehousePrefix).Writable where
  directory := fun answered => (congrArg Prod.fst answered).symm
  write := fun answered => (congrArg Prod.fst answered).symm

theorem stackServices_total (stack : Stack) (call : Call) :
    ∃ reply after,
      (stackServices libraries config projectId warehousePrefix).answers stack call reply after :=
  ⟨_, _, rfl⟩

end Laws

/-! ## Lost answers -/

section Losing

variable {World : Type} {services : Services World} {libraries : ClientLibraries}
  {config : LakehouseConfig}

/-- A request fails before it is carried out, or behind. -/
inductive Lost (services : Services World) (failure : Error) :
    Dialogue.Answers World Call.Reply where
  | before {world : World} {request : HttpRequest} {reply : Except Error HttpResponse} :
      reply = .error failure → Lost services failure world (.send request) reply world
  | behind {world after : World} {request : HttpRequest} {other reply : Except Error HttpResponse} :
      services.answers world (.send request) other after → reply = .error failure →
      Lost services failure world (.send request) reply after

/-- The services, where answers to requests get lost. -/
def Services.losing (services : Services World) (failure : Error) : Services World :=
  services.within fun world call reply after =>
    services.answers world call reply after ∨ Lost services failure world call reply after

theorem Lost.response {failure : Error} {world after : World} {request : HttpRequest}
    {response : HttpResponse} (lost : Lost services failure world (.send request) (.ok response) after) :
    False := by
  cases lost with
  | before failed => cases failed
  | behind answered failed => cases failed

theorem Services.Truthful.losing (truthful : services.Truthful libraries config)
    (failure : Error) : (services.losing failure).Truthful libraries config where
  kept := fun {world call reply after resource} answered held => by
    rcases answered with answered | lost
    · exact truthful.kept answered held
    · cases lost with
      | before failed => exact held
      | behind answered failed => exact truthful.kept answered held
  route_unique := truthful.route_unique
  table_unique := truthful.table_unique
  bucket_head := fun answered => truthful.bucket_head (answered.resolve_right Lost.response)
  bucket_put := fun answered => truthful.bucket_put (answered.resolve_right Lost.response)
  project_get := fun answered => truthful.project_get (answered.resolve_right Lost.response)
  project_post := fun answered => truthful.project_post (answered.resolve_right Lost.response)
  project_conflict := fun answered =>
    truthful.project_conflict (answered.resolve_right Lost.response)
  warehouse_list := fun answered => truthful.warehouse_list (answered.resolve_right Lost.response)
  warehouse_post := fun answered => truthful.warehouse_post (answered.resolve_right Lost.response)
  route_get := fun built answered =>
    truthful.route_get built (answered.resolve_right Lost.response)
  namespace_head := fun answered => truthful.namespace_head (answered.resolve_right Lost.response)
  namespace_post := fun answered => truthful.namespace_post (answered.resolve_right Lost.response)
  table_head := fun answered => truthful.table_head (answered.resolve_right Lost.response)
  table_post := fun answered => truthful.table_post (answered.resolve_right Lost.response)
  table_load := fun answered => truthful.table_load (answered.resolve_right nofun)
  table_appears := fun {world call reply after warehousePrefix schema} answered held => by
    rcases answered with answered | lost
    · exact truthful.table_appears answered held
    · cases lost with
      | before failed => exact .inl held
      | behind answered failed => exact truthful.table_appears answered held
  file_read := fun answered => truthful.file_read (answered.resolve_right nofun)
  file_written := fun answered => truthful.file_written (answered.resolve_right nofun)
  file_kept := fun {world call reply after path} answered other => by
    rcases answered with answered | lost
    · exact truthful.file_kept answered other
    · cases lost with
      | before failed => rfl
      | behind answered failed => exact truthful.file_kept answered nofun

end Losing

/-! ## A stack of its own -/

def primitiveName : PrimitiveType → String
  | .boolean => "boolean"
  | .int => "int"
  | .long => "long"
  | .string => "string"
  | .uuid => "uuid"
  | .timestamptz => "timestamptz"
  | _ => "binary"

/-- The JSON of a schema of primitive fields. -/
def schemaDocument (schema : Schema) : Json :=
  .object [
    ("type", .string "struct"),
    ("schema-id", .integer 0),
    ("fields", .array (schema.fields.map fun field => .object [
      ("id", .integer field.id),
      ("name", .string field.name),
      ("required", .bool field.isRequired),
      ("type", .string (match field.fieldType with
        | .primitive type => primitiveName type
        | _ => "struct"))]))]

def stackLibraries : ClientLibraries where
  json := Ingest.textCodec
  complaint _ := "error decoding response body"
  bodyText bytes := (OsString.toStr? bytes).getD ""
  displayJson value := value.toText
  displayStatus status := toString status
  parseUrl := .ok
  displayType
    | .primitive type => primitiveName type
    | _ => "struct"
  displayArrow _ := "Invalid argument error"
  schemaToValue schema := .ok (schemaDocument schema)
  crypto := sampleCrypto
  hmacSha256 _ _ := List.replicate 32 0
  dateStamp _ := "19700101"
  amzDate _ := "19700101T000000Z"
  stateFilePath := some "/home/user/.local/share/anti_entropator/lakehouse_state.json"

def stackConfig : LakehouseConfig :=
  .ofEnvironment fun name =>
    if name = "RUSTFS_ACCESS_KEY" then some "rustfsadmin"
    else if name = "RUSTFS_SECRET_KEY" then some "rustfspassword"
    else none

def freshStack : Services Stack :=
  stackServices stackLibraries stackConfig "0198c3f0-0000-7000-8000-000000000000" "b7a1f2"

theorem credentials_stackConfig : validateS3Credentials stackConfig = .ok () := by decide

theorem freshStack_truthful : freshStack.Truthful stackLibraries stackConfig :=
  stackServices_truthful

theorem freshStack_healthy : freshStack.Healthy stackLibraries stackConfig :=
  stackServices_healthy (fun _ => ⟨_, rfl⟩) ⟨_, rfl⟩

theorem accepting_freshStack (stack : Stack) : Accepting freshStack stackLibraries stack := by
  rintro path schema ⟨-, -, -, -, rfl⟩
  exact (verifyTableSchema_eq_ok_iff stackLibraries.displayType).mpr fun field member =>
    ⟨field, member, rfl, rfl, rfl⟩

theorem freshStack_total (stack : Stack) (call : Call) :
    ∃ reply after, freshStack.answers stack call reply after := stackServices_total stack call

theorem freshStack_init : ∃ exchanges final,
    Runs freshStack.answers (init stackLibraries stackConfig) {} exchanges (some (.ok ())) final ∧
    final.bucket = true := by
  obtain ⟨exchanges, ended, final, runs⟩ :=
    exists_runs freshStack_total (init stackLibraries stackConfig) {}
  have steady : Steady freshStack stackLibraries :=
    fun _ _ _ after _ _ => accepting_freshStack after
  have alive : Yields freshStack.answers Free False
      (fun _ after => ∃ projectId, Ready freshStack stackLibraries stackConfig projectId after)
      (init stackLibraries stackConfig) {} :=
    freshStack_healthy.init_alive freshStack_truthful steady credentials_stackConfig
      (accepting_freshStack {})
  have ends := alive.runs runs
  cases ended with
  | ok result =>
      obtain ⟨projectId, ready⟩ := ends
      exact ⟨exchanges, final, runs, ready.bucket.1⟩
  | error error => exact ends.elim

theorem freshStack_silent :
    Respected (Asked freshStack.answers Silent) fun stack after => after.bucket = stack.bucket where
  refl := fun _ => rfl
  trans := fun first second => second.trans first
  answer := fun {stack call reply after} ⟨silent, answered⟩ => by
    have same : after = (stack.answer stackLibraries stackConfig _ _ call).2 :=
      (congrArg Prod.snd answered).symm
    rw [same]
    cases call with
    | send request =>
        show (stack.serve stackLibraries stackConfig _ _ request).2.bucket = _
        unfold Stack.serve
        rw [Silent, change?] at silent
        cases posted : request.method with
        | get => rfl
        | head => rfl
        | put => simp [posted] at silent
        | post => simp [posted] at silent
    | _ => rfl

/-- The stack once it is up, with the project's id in the state file. -/
def readyStack : Stack where
  bucket := true
  project := true
  warehouse := true
  «namespace» := true
  table := true
  files path :=
    if path = "/home/user/.local/share/anti_entropator/lakehouse_state.json" then
      some (Ingest.textCodec.toVecPretty (stateDocument "0198c3f0-0000-7000-8000-000000000000"))
    else none

theorem ready_readyStack : Ready freshStack stackLibraries stackConfig
    "0198c3f0-0000-7000-8000-000000000000" readyStack where
  bucket := ⟨rfl, rfl⟩
  project := ⟨rfl, rfl⟩
  warehouse := ⟨rfl, rfl, rfl⟩
  catalog := by
    have table : freshStack.holds readyStack (catalogTable "b7a1f2" buildFileCatalogSchema) :=
      ⟨rfl, rfl, rfl, rfl, rfl⟩
    exact ⟨"b7a1f2", buildFileCatalogSchema, ⟨rfl, rfl, rfl, rfl⟩, ⟨rfl, rfl, rfl⟩, table,
      accepting_freshStack readyStack _ _ table⟩

theorem known_readyStack :
    stackConfig.projectId.or (freshStack.savedId stackLibraries readyStack) =
      some "0198c3f0-0000-7000-8000-000000000000" := by
  have read := readState_stateDocument stackLibraries "0198c3f0-0000-7000-8000-000000000000"
  have saved : freshStack.savedId stackLibraries readyStack =
      some "0198c3f0-0000-7000-8000-000000000000" := congrArg (Option.or · none) read
  rw [saved]
  rfl

end AntiEntropator.Lakehouse
