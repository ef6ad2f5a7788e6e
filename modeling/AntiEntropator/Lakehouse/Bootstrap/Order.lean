import AntiEntropator.Dialogue.Sending
import AntiEntropator.Lakehouse.Bootstrap.Services

/-!
# What a bootstrap changes

At most one request for each of bucket and project, then the state file, then at
most one request for each of warehouse, namespace and table: nothing else is
asked for, whatever the services answer, and wherever the run stops.
-/

namespace AntiEntropator.Lakehouse

open Dialogue

/-- What a call asks to change. -/
inductive Change where
  | request (request : HttpRequest)
  | file (path : String) (bytes : List UInt8)
  | parquet (path : String) (batch : RecordBatch)
  | append (dataFiles : List DataFile)

def change? : Call → Option Change
  | .send request =>
      match request.method with
      | .put | .post => some (.request request)
      | .get | .head => none
  | .writeFile path bytes => some (.file path bytes)
  | .writeParquet path batch => some (.parquet path batch)
  | .commit _ dataFiles => some (.append dataFiles)
  | _ => none

/-- The request for the table, where its schema can be written. -/
def tableChanges (libraries : ClientLibraries) (config : LakehouseConfig)
    (catalogConfig : CatalogConfigResult) : List Change :=
  match libraries.schemaToValue buildFileCatalogSchema with
  | .ok schemaJson => [.request (createTableRequest config catalogConfig schemaJson)]
  | .error _ => []

def stateChanges (libraries : ClientLibraries) (projectId : String) : List Change :=
  match libraries.stateFilePath with
  | some path => [.file path (libraries.json.toVecPretty (stateDocument projectId))]
  | none => []

variable {libraries : ClientLibraries} {config : LakehouseConfig}

/-! ## Steps that ask for no change -/

theorem sends_demand {α : Type} {language : List Change → Prop} {call : Call}
    {result : call.Reply → Except Error α} (nothing : language [])
    (asked : language (change? call).toList) :
    Sends change? language (fun _ => True) (Client.demand call result) := by
  refine (sends_query nothing asked).bind (fun reply _ => ?_) fun _ sent => sent
  exact sends_ofExcept (fun before sent => by rwa [List.append_nil]) fun _ _ => trivial

theorem demand_sends {α : Type} {call : Call} {result : call.Reply → Except Error α}
    (reading : change? call = none) :
    Sends change? Nothing (fun _ => True) (Client.demand call result) :=
  sends_demand rfl (by rw [reading]; rfl)

theorem buildClient_sends (seconds : Nat) :
    Sends change? Nothing (fun _ => True) (Client.buildClient seconds) :=
  demand_sends rfl

theorem send_sends {request : HttpRequest} (reading : change? (.send request) = none) :
    Sends change? Nothing (fun _ => True) (Client.send request) :=
  demand_sends reading

theorem context_sends {α : Type} {text : String} {client : Client α}
    {language : List Change → Prop} {known : α → Prop}
    (sends : Sends change? language known client) :
    Sends change? language known (Client.context text client) := sends.mapFailure

theorem throw_sends {α : Type} {error : Error} {known : α → Prop} :
    Sends change? Nothing known (Client.throw error) := sends_fail rfl

theorem ofExcept_sends {α : Type} {ended : Except Error α} :
    Sends change? Nothing (fun _ => True) (.ofExcept ended : Client α) :=
  sends_ofExcept rfl fun _ _ => trivial

theorem pure_sends {α : Type} {result : α} :
    Sends change? Nothing (fun _ => True) (pure result : Client α) := sends_done rfl trivial

theorem attempt_sends {α : Type} {client : Client α}
    {language : List Change → Prop}
    (sends : Sends change? language (fun _ => True) client) :
    Sends change? language (fun _ => True) (Client.attempt client) :=
  sends.attempt.mono (fun _ sent => sent) fun _ _ => trivial

theorem query_sends {α : Type} {call : Call} {rest : call.Reply → Client α}
    (reading : change? call = none)
    (silent : ∀ reply, Sends change? Nothing (fun _ => True) (rest reply)) :
    Sends change? Nothing (fun _ => True) (Dialogue.query call >>= rest) := by
  have asked : Sends change? Nothing (fun _ => True)
      (Dialogue.query call : Client call.Reply) := sends_query rfl (by rw [reading]; rfl)
  exact asked.then (fun reply _ => silent reply) rfl

theorem checkRustfs_sends :
    Sends change? Nothing (fun _ => True) (checkRustfs libraries config) := by
  refine (buildClient_sends 5).then (fun _ _ => ?_) rfl
  refine (context_sends (send_sends rfl)).then (fun response _ => ?_) rfl
  split
  · exact pure_sends
  · exact throw_sends

theorem checkCatalog_sends :
    Sends change? Nothing (fun _ => True) (checkCatalog libraries config) := by
  refine (buildClient_sends 5).then (fun _ _ => ?_) rfl
  refine (context_sends (send_sends rfl)).then (fun response _ => ?_) rfl
  split
  · exact pure_sends
  · exact throw_sends

theorem verifyProjectExists_sends (projectId : String) :
    Sends change? Nothing (fun _ => True) (verifyProjectExists config projectId) := by
  refine (attempt_sends (buildClient_sends 5)).then (fun built _ => ?_) rfl
  cases built with
  | error error => exact pure_sends
  | ok _ => exact (attempt_sends (send_sends rfl)).then (fun reply _ => pure_sends) rfl

theorem loadProjectIdFromState_sends :
    Sends change? Nothing (fun _ => True) (loadProjectIdFromState libraries) := by
  have loaded : ∀ path, Sends change? Nothing (fun _ => True)
      (loadStateFromPath libraries path) :=
    fun path => query_sends rfl fun content => pure_sends
  unfold loadProjectIdFromState
  split
  · refine (loaded _).then (fun id _ => ?_) rfl
    split
    · exact pure_sends
    · exact loaded _
  · exact pure_sends

theorem listedWarehouses_sends (list : HttpResponse) :
    Sends change? Nothing (fun _ => True) (listedWarehouses libraries list) := by
  unfold listedWarehouses
  split
  · exact context_sends ofExcept_sends
  · exact pure_sends

theorem headFinds_sends (url projectId : String) :
    Sends change? Nothing (fun _ => True) (headFinds url projectId) :=
  (attempt_sends (send_sends rfl)).then (fun _ _ => pure_sends) rfl

theorem created_sends {text : String} {response : HttpResponse} :
    Sends change? Nothing (fun _ => True) (created libraries text response) := by
  unfold created
  split
  · exact pure_sends
  · split
    · exact pure_sends
    · exact throw_sends

theorem resolveProjectId_sends :
    Sends change? Nothing (fun id => ∀ projectId, config.projectId = some projectId → id = projectId)
      (resolveProjectId libraries config) := by
  unfold resolveProjectId
  cases config.projectId with
  | some id => exact sends_done rfl fun _ same => Option.some.inj same
  | none =>
      refine loadProjectIdFromState_sends.then (fun loadedId _ => ?_) rfl
      split
      · exact sends_done rfl nofun
      · exact throw_sends

/-- The catalog's configuration is asked for with the project that is known, if one is. -/
theorem getWarehousePrefix_sends :
    Sends change? Nothing
      (fun result => ∀ projectId, config.projectId = some projectId → result.projectId = projectId)
      (getWarehousePrefix libraries config) := by
  refine resolveProjectId_sends.then (fun id same => ?_) rfl
  refine (buildClient_sends 10).then (fun _ _ => ?_) rfl
  have request : Sends change? Nothing
      (fun request => change? (.send request) = none)
      (Dialogue.ofExcept (catalogConfigRequest libraries config id) : Client HttpRequest) := by
    refine sends_ofExcept rfl fun request built => ?_
    unfold catalogConfigRequest at built
    split at built
    · cases built
    · cases built
      rfl
  refine request.then (fun request reading => ?_) rfl
  refine (context_sends (send_sends reading)).then (fun response _ => ?_) rfl
  split
  · refine (context_sends ofExcept_sends).then (fun parts _ => ?_) rfl
    obtain ⟨defaults, overrides⟩ := parts
    dsimp only
    split
    · exact throw_sends
    · exact sends_done rfl same
  · exact throw_sends

theorem buildRestCatalog_sends :
    Sends change? Nothing (fun _ => True) (buildRestCatalog libraries config) := by
  refine getWarehousePrefix_sends.then (fun catalogConfig _ => ?_) rfl
  exact (context_sends (demand_sends rfl)).then (fun _ _ => pure_sends) rfl

theorem loadTable_sends (catalog : Properties) :
    Sends change? Nothing (fun _ => True) (loadTable catalog) := context_sends (demand_sends rfl)

theorem checkTableSchema_sends :
    Sends change? Nothing (fun _ => True) (checkTableSchema libraries config) := by
  refine buildRestCatalog_sends.then (fun catalog _ => ?_) rfl
  exact (loadTable_sends catalog).then (fun schema _ => ofExcept_sends) rfl

def Silent {World : Type} : World → Call → Prop :=
  fun _ call => change? call = none

theorem silent_of_nothing {World α : Type} {answers : Answers World Call.Reply} {client : Client α}
    {known : α → Prop} {failing : Prop} {post : α → World → Prop} {world : World}
    (sends : Sends change? Nothing known client)
    (yields : Yields answers Free failing post client world) :
    Yields answers Silent failing post client world := by
  have asking : Yields answers (fun _ call => ∀ change, change? call = some change → False) failing
      post client world :=
    sends.asking (fun sent none item member => by
      rw [none] at member
      cases member) yields
  exact Ensures.mono asking (fun _ _ asked => Option.eq_none_iff_forall_ne_some.mpr asked)
    fun _ _ holds => holds

/-! ## Steps that ask for a change -/

theorem change_sends {α : Type} {request : HttpRequest} {text : String}
    {rest : HttpResponse → Client α}
    (silent : ∀ response, Sends change? Nothing (fun _ => True) (rest response)) :
    Sends change? (AtMost [.request request]) (fun _ => True)
      (Client.context text (Client.send request) >>= rest) := by
  have sent : Sends change? (AtMost [.request request]) (fun _ => True)
      (Client.context text (Client.send request)) := by
    refine context_sends (sends_demand (atMost_nil _) ?_)
    rw [AtMost, change?]
    cases request.method <;> simp
  refine sent.bind (fun response _ => ?_) fun _ sent => sent
  refine (silent response).mono (fun after none before sent => ?_) fun _ _ => trivial
  rw [none, List.append_nil]
  exact sent

theorem createBucket_sends :
    Sends change?
      (fun sent => ∃ instant, AtMost [.request (bucketRequest libraries config instant "PUT")] sent)
      (fun _ => True) (createBucket libraries config) := by
  refine (buildClient_sends 10).then (fun _ _ => ?_) ⟨0, atMost_nil _⟩
  have checked : Sends change? Nothing (fun _ => True)
      (sendSignedS3 libraries config "HEAD" (bucketUrl config)
        (s3HostFromEndpoint config.s3Endpoint) ("/" ++ config.bucket)) :=
    query_sends rfl fun instant => send_sends rfl
  refine (attempt_sends checked).then (fun head _ => ?_) ⟨0, atMost_nil _⟩
  split
  · exact sends_done ⟨0, atMost_nil _⟩ trivial
  · have put : Sends change?
        (fun sent =>
          ∃ instant, AtMost [.request (bucketRequest libraries config instant "PUT")] sent)
        (fun _ => True)
        (sendSignedS3 libraries config "PUT" (bucketUrl config)
          (s3HostFromEndpoint config.s3Endpoint) ("/" ++ config.bucket)) := by
      have read : Sends change? Nothing (fun _ => True)
          (Dialogue.query Call.now : Client DateTime) := sends_query rfl rfl
      refine read.then (fun instant _ => ?_) ⟨0, atMost_nil _⟩
      exact sends_demand ⟨instant, atMost_nil _⟩ ⟨instant, List.Sublist.refl _⟩
    refine (context_sends put).bind (fun response _ => ?_) fun _ sent => sent
    have silent : Sends change? Nothing (fun _ => True)
        (if response.isSuccess = true then pure true
          else if response.status = 409 then pure false
          else .throw (response.failure libraries "Failed to create bucket") : Client Bool) := by
      split
      · exact pure_sends
      · split
        · exact pure_sends
        · exact throw_sends
    refine silent.mono (fun after none before sent => ?_) fun _ _ => trivial
    rw [none, List.append_nil]
    exact sent

theorem ensureProject_sends :
    Sends change? (AtMost [.request (createProjectRequest config)]) (fun _ => True)
      (ensureProject libraries config) := by
  refine (buildClient_sends 10).then (fun _ _ => ?_) (atMost_nil _)
  refine change_sends fun response => ?_
  split
  · exact (context_sends ofExcept_sends).then (fun _ _ => pure_sends) rfl
  · split
    · dsimp only
      split
      · exact pure_sends
      · exact throw_sends
    · exact throw_sends

theorem findProject_sends :
    Sends change? (AtMost [.request (createProjectRequest config)]) (fun _ => True)
      (findProject libraries config) := by
  have ensured : Sends change? (AtMost [.request (createProjectRequest config)]) (fun _ => True)
      (ensureProject libraries config >>= fun project => pure project.1) := by
    refine ensureProject_sends.bind (fun project _ => ?_) fun _ sent => sent
    refine pure_sends.mono (fun after none before sent => ?_) fun _ _ => trivial
    rw [none, List.append_nil]
    exact sent
  refine loadProjectIdFromState_sends.then (fun loadedId _ => ?_) (atMost_nil _)
  split
  · refine (verifyProjectExists_sends _).then (fun valid _ => ?_) (atMost_nil _)
    split
    · exact sends_done (atMost_nil _) trivial
    · exact ensured
  · exact ensured

theorem ensureWarehouse_sends (projectId : String) :
    Sends change? (AtMost [.request (createWarehouseRequest config projectId)]) (fun _ => True)
      (ensureWarehouse libraries config projectId) := by
  refine (buildClient_sends 10).then (fun _ _ => ?_) (atMost_nil _)
  refine (context_sends (send_sends rfl)).then (fun list _ => ?_) (atMost_nil _)
  refine (listedWarehouses_sends list).then (fun names _ => ?_) (atMost_nil _)
  split
  · exact sends_done (atMost_nil _) trivial
  · exact change_sends fun response => created_sends

theorem createNamespace_sends {projectId : String} (known : config.projectId = some projectId) :
    Sends change? (fun sent => ∃ catalogConfig : CatalogConfigResult,
        catalogConfig.projectId = projectId ∧
        AtMost [.request (createNamespaceRequest config catalogConfig)] sent)
      (fun _ => True) (createNamespace libraries config) := by
  refine getWarehousePrefix_sends.then (fun catalogConfig same => ?_)
    ⟨⟨"", "", projectId⟩, rfl, atMost_nil _⟩
  suffices sends : Sends change? (AtMost [.request (createNamespaceRequest config catalogConfig)])
      (fun _ => True) _ from
    sends.mono (fun sent atMost => ⟨catalogConfig, same projectId known, atMost⟩) fun _ _ => trivial
  refine (buildClient_sends 10).then (fun _ _ => ?_) (atMost_nil _)
  refine (headFinds_sends _ _).then (fun finds _ => ?_) (atMost_nil _)
  split
  · exact sends_done (atMost_nil _) trivial
  · exact change_sends fun response => created_sends

theorem createFileCatalogTable_sends {projectId : String}
    (known : config.projectId = some projectId) :
    Sends change? (fun sent => ∃ catalogConfig : CatalogConfigResult,
        catalogConfig.projectId = projectId ∧
        AtMost (tableChanges libraries config catalogConfig) sent)
      (fun _ => True) (createFileCatalogTable libraries config) := by
  refine getWarehousePrefix_sends.then (fun catalogConfig same => ?_)
    ⟨⟨"", "", projectId⟩, rfl, atMost_nil _⟩
  suffices sends : Sends change? (AtMost (tableChanges libraries config catalogConfig))
      (fun _ => True) _ from
    sends.mono (fun sent atMost => ⟨catalogConfig, same projectId known, atMost⟩) fun _ _ => trivial
  refine (buildClient_sends 30).then (fun _ _ => ?_) (atMost_nil _)
  refine (headFinds_sends _ _).then (fun finds _ => ?_) (atMost_nil _)
  split
  · exact sends_done (atMost_nil _) trivial
  · have written : Sends change? Nothing
        (fun value => libraries.schemaToValue buildFileCatalogSchema = .ok value)
        (Client.context "Failed to serialize schema"
          (.ofExcept (libraries.schemaToValue buildFileCatalogSchema))) :=
      context_sends (sends_ofExcept rfl fun value written => written)
    refine written.then (fun value written => ?_) (atMost_nil _)
    rw [tableChanges, written]
    exact change_sends fun response => created_sends

theorem saveProjectIdToState_sends (projectId : String) :
    Sends change? (AtMost (stateChanges libraries projectId)) (fun _ => True)
      (saveProjectIdToState libraries projectId) := by
  have saved : ∀ path, Sends change?
      (AtMost [.file path (libraries.json.toVecPretty (stateDocument projectId))])
      (fun _ => True) (saveState libraries path projectId) := by
    intro path
    refine (context_sends (demand_sends rfl)).then (fun _ _ => ?_) (atMost_nil _)
    exact context_sends (sends_demand (atMost_nil _) (List.Sublist.refl _))
  unfold saveProjectIdToState stateChanges
  cases libraries.stateFilePath with
  | some path => exact saved path
  | none => exact sends_fail (atMost_nil _)

/-! ## The whole -/

/-- All that `init` may change in a project, in its order. -/
def projectChanges (libraries : ClientLibraries) (config : LakehouseConfig) (projectId : String)
    (namespaceConfig tableConfig : CatalogConfigResult) : List Change :=
  stateChanges libraries projectId ++
    ([.request (createWarehouseRequest config projectId)] ++
      ([.request (createNamespaceRequest config namespaceConfig)] ++
        tableChanges libraries config tableConfig))

theorem initProject_sends {projectId : String} (known : config.projectId = some projectId) :
    Sends change?
      (fun sent => ∃ namespaceConfig tableConfig : CatalogConfigResult,
        namespaceConfig.projectId = projectId ∧ tableConfig.projectId = projectId ∧
        AtMost (projectChanges libraries config projectId namespaceConfig tableConfig) sent)
      (fun _ => True) (initProject libraries config projectId) := by
  -- Where nothing was sent, any configuration will do.
  have anyConfig : ∃ catalogConfig : CatalogConfigResult, catalogConfig.projectId = projectId :=
    ⟨⟨"", "", projectId⟩, rfl⟩
  obtain ⟨idle, idleSame⟩ := anyConfig
  refine (attempt_sends (saveProjectIdToState_sends projectId)).bind (fun _ _ => ?_)
    fun sent saved => ⟨idle, idle, idleSame, idleSame, saved.trans (List.sublist_append_left _ _)⟩
  refine (ensureWarehouse_sends projectId).bind (fun _ _ => ?_) fun housed house saved save =>
    ⟨idle, idle, idleSame, idleSame,
      save.append (house.trans (List.sublist_append_left _ _))⟩
  refine (createNamespace_sends known).bind (fun _ _ => ?_) ?_
  · refine (createFileCatalogTable_sends known).bind (fun _ _ => ?_) ?_
    · refine checkTableSchema_sends.mono (fun after none => ?_) fun _ _ => trivial
      rintro tabled ⟨tableConfig, tableSame, table⟩ named ⟨namespaceConfig, same, name⟩ housed
        house saved save
      refine ⟨namespaceConfig, tableConfig, same, tableSame, ?_⟩
      rw [none, List.append_nil]
      exact save.append (house.append (name.append table))
    · rintro tabled ⟨tableConfig, tableSame, table⟩ named ⟨namespaceConfig, same, name⟩ housed
        house saved save
      exact ⟨namespaceConfig, tableConfig, same, tableSame,
        save.append (house.append (name.append table))⟩
  · rintro named ⟨namespaceConfig, same, name⟩ housed house saved save
    exact ⟨namespaceConfig, idle, same, idleSame,
      save.append (house.append (name.trans (List.sublist_append_left _ _)))⟩

/-- Bucket and project, then what the project gets: these changes, or fewer, in this order. -/
def InitChanges (libraries : ClientLibraries) (config : LakehouseConfig)
    (sent : List Change) : Prop :=
  ∃ instant projectId, ∃ namespaceConfig tableConfig : CatalogConfigResult,
    namespaceConfig.projectId = projectId ∧ tableConfig.projectId = projectId ∧
    AtMost ([.request (bucketRequest libraries config instant "PUT")] ++
      ([.request (createProjectRequest config)] ++
        projectChanges libraries config projectId namespaceConfig tableConfig)) sent

theorem init_sends :
    Sends change? (InitChanges libraries config) (fun _ => True) (init libraries config) := by
  have nothing : InitChanges libraries config [] :=
    ⟨0, "", ⟨"", "", ""⟩, ⟨"", "", ""⟩, rfl, rfl, atMost_nil _⟩
  refine ofExcept_sends.then (fun _ _ => ?_) nothing
  refine (context_sends checkRustfs_sends).then (fun _ _ => ?_) nothing
  refine (context_sends checkCatalog_sends).then (fun _ _ => ?_) nothing
  refine createBucket_sends.bind (fun _ _ => ?_) fun stored ⟨instant, put⟩ =>
    ⟨instant, "", ⟨"", "", ""⟩, ⟨"", "", ""⟩, rfl, rfl,
      put.trans (List.sublist_append_left _ _)⟩
  refine findProject_sends.bind (fun projectId _ => ?_) ?_
  · have known : ({ config with projectId := some projectId } : LakehouseConfig).projectId =
        some projectId := rfl
    refine (initProject_sends known).mono (fun after later => ?_) fun _ _ => trivial
    rintro found project stored ⟨instant, put⟩
    obtain ⟨namespaceConfig, tableConfig, same, tableSame, rest⟩ := later
    exact ⟨instant, projectId, namespaceConfig, tableConfig, same, tableSame,
      put.append (project.append rest)⟩
  · rintro found project stored ⟨instant, put⟩
    exact ⟨instant, "", ⟨"", "", ""⟩, ⟨"", "", ""⟩, rfl, rfl,
      put.append (project.trans (List.sublist_append_left _ _))⟩

end AntiEntropator.Lakehouse
