import AntiEntropator.Doctor
import AntiEntropator.Lakehouse.Bootstrap.Stack

/-!
# Doctor foretells the bootstrap

`doctor`, `up` and `init` ask the services the same questions.  While the
answers stay as they are, `up` succeeds where doctor has both services Ok, and
`init` goes beyond its checks where doctor has the credentials Ok as well.
-/

namespace AntiEntropator.Doctor

open Dialogue Lakehouse

variable {World : Type} {answers : Answers World Call.Reply} {libraries : ClientLibraries}
  {isConnect : Error → Bool} {environment : Environment} {config : LakehouseConfig}
  {failing : Prop} {world : World}

/-- What an answer is worth to a check. -/
def grade (accepts : HttpResponse → Bool) : Except Error HttpResponse → CheckStatus
  | .ok response => if accepts response then .ok else .warning
  | .error _ => .error

/-- Services whose answers to the checks stay the same, as far as they matter. -/
structure Unchanging (answers : Answers World Call.Reply) (config : LakehouseConfig) where
  /-- Whether an HTTP client can be built. -/
  client : Bool
  rustfs : CheckStatus
  catalog : CheckStatus
  client_eq : ∀ {world reply after}, answers world (.buildClient 5) reply after →
    reply.isOk = client
  rustfs_eq : ∀ {world reply after}, answers world (.send (rustfsRequest config)) reply after →
    grade rustfsStatusIsReachable reply = rustfs
  catalog_eq : ∀ {world reply after}, answers world (.send (swaggerRequest config)) reply after →
    grade HttpResponse.isSuccess reply = catalog

def Unchanging.status (unchanging : Unchanging answers config) (service : CheckStatus) :
    CheckStatus :=
  if unchanging.client then service else .error

def Connecting (config : LakehouseConfig) (_ : World) (call : Call) : Prop :=
  call = .buildClient 5 ∨ call = .send (rustfsRequest config) ∨
    call = .send (swaggerRequest config)

/-! ## One service -/

theorem serviceResult_name {texts : ServiceTexts} {accepts : HttpResponse → Bool}
    {answer : Except Error HttpResponse} :
    (serviceResult libraries isConnect texts accepts answer).name = texts.name := by
  unfold serviceResult
  split <;> split <;> rfl

theorem serviceResult_status {texts : ServiceTexts} {accepts : HttpResponse → Bool}
    {answer : Except Error HttpResponse} :
    (serviceResult libraries isConnect texts accepts answer).status = grade accepts answer := by
  cases answer with
  | ok response =>
      by_cases accepted : accepts response = true <;>
        simp [serviceResult, grade, accepted, CheckResult.ok, CheckResult.warn]
  | error error =>
      by_cases connect : isConnect error = true <;>
        simp [serviceResult, grade, connect, CheckResult.error]

theorem checkService_yields (unchanging : Unchanging answers config) {texts : ServiceTexts}
    {accepts : HttpResponse → Bool} {request : HttpRequest} {service : CheckStatus}
    (connecting : ∀ world : World, Connecting config world (.send request))
    (graded : ∀ {world reply after}, answers world (.send request) reply after →
      grade accepts reply = service) :
    Yields answers (Connecting config) failing
      (fun result _ => result.name = texts.name ∧ result.status = unchanging.status service)
      (checkService libraries isConnect texts accepts request) world := by
  refine ⟨.inl rfl, fun reply after answered => ?_⟩
  have built := unchanging.client_eq answered
  cases reply with
  | error error =>
      refine yields_pure.mpr ⟨rfl, ?_⟩
      rw [Unchanging.status, ← built]
      rfl
  | ok client =>
      refine ⟨connecting after, fun answer final given => ?_⟩
      have status : (serviceResult libraries isConnect texts accepts answer).status =
          unchanging.status service := by
        rw [serviceResult_status, graded given, Unchanging.status, ← built]
        rfl
      cases answer with
      | ok response => exact yields_pure.mpr ⟨serviceResult_name, status⟩
      | error error => exact yields_pure.mpr ⟨serviceResult_name, status⟩

/-- What `init` and `up` make of the same service. -/
theorem ensures_connected (unchanging : Unchanging answers config)
    {accepts : HttpResponse → Bool} {request : HttpRequest} {service : CheckStatus}
    {text : String} {refusal : HttpResponse → Error}
    (connecting : ∀ world : World, Connecting config world (.send request))
    (graded : ∀ {world reply after}, answers world (.send request) reply after →
      grade accepts reply = service) :
    Ensures answers (Connecting config)
      (fun ended _ => ended.isOk = decide (unchanging.status service = .ok))
      (do
        Client.buildClient 5
        let response ← Client.context text (Client.send request)
        if accepts response then return ()
        else Client.throw (refusal response) : Client Unit) world := by
  refine ⟨.inl rfl, fun reply after answered => ?_⟩
  have built := unchanging.client_eq answered
  cases reply with
  | error error =>
      have status : unchanging.status service = .error := by
        rw [Unchanging.status, ← built]
        rfl
      rw [status]
      exact rfl
  | ok client =>
      refine ⟨connecting after, fun answer final given => ?_⟩
      have status : unchanging.status service = grade accepts answer := by
        rw [Unchanging.status, ← built, graded given]
        rfl
      rw [status]
      cases answer with
      | error error => exact rfl
      | ok response =>
          change Ensures answers (Connecting config) _
            (if accepts response then return () else Client.throw (refusal response) : Client Unit)
            final
          by_cases accepted : accepts response = true
          · rw [if_pos accepted]
            show true = decide (grade accepts (.ok response) = .ok)
            simp [grade, accepted]
          · rw [if_neg accepted]
            show false = decide (grade accepts (.ok response) = .ok)
            simp [grade, accepted]

/-! ## Both services -/

theorem checkRustfs_yields (unchanging : Unchanging answers (.ofEnvironment environment)) :
    Yields answers (Connecting (.ofEnvironment environment)) failing
      (fun result _ => result.name = "RustFS" ∧
        result.status = unchanging.status unchanging.rustfs)
      (checkRustfs libraries isConnect environment) world := by
  have yields : Yields answers (Connecting (.ofEnvironment environment)) failing
      (fun result _ => result.name = (rustfsTexts (s3Endpoint environment)).name ∧
        result.status = unchanging.status unchanging.rustfs)
      (checkRustfs libraries isConnect environment) world :=
    checkService_yields unchanging (fun _ => .inr (.inl rfl)) unchanging.rustfs_eq
  exact yields

theorem checkCatalog_yields (unchanging : Unchanging answers (.ofEnvironment environment))
    (same : catalogEndpoint environment = defaultCatalogEndpoint environment) :
    Yields answers (Connecting (.ofEnvironment environment)) failing
      (fun result _ => result.name = "Lakekeeper" ∧
        result.status = unchanging.status unchanging.catalog)
      (checkCatalog libraries isConnect environment) world := by
  unfold checkCatalog
  rw [same]
  have yields : Yields answers (Connecting (.ofEnvironment environment)) failing
      (fun result _ => result.name = (catalogTexts (defaultCatalogEndpoint environment)).name ∧
        result.status = unchanging.status unchanging.catalog)
      (checkService libraries isConnect (catalogTexts (defaultCatalogEndpoint environment))
        HttpResponse.isSuccess (swaggerRequest (.ofEnvironment environment))) world :=
    checkService_yields unchanging (fun _ => .inr (.inr rfl)) unchanging.catalog_eq
  exact yields

theorem checkRustfs_ensures (unchanging : Unchanging answers config) :
    Ensures answers (Connecting config)
      (fun ended _ => ended.isOk = decide (unchanging.status unchanging.rustfs = .ok))
      (Lakehouse.checkRustfs libraries config) world :=
  ensures_connected unchanging (fun _ => .inr (.inl rfl)) unchanging.rustfs_eq

theorem checkCatalog_ensures (unchanging : Unchanging answers config) :
    Ensures answers (Connecting config)
      (fun ended _ => ended.isOk = decide (unchanging.status unchanging.catalog = .ok))
      (Lakehouse.checkCatalog libraries config) world :=
  ensures_connected unchanging (fun _ => .inr (.inr rfl)) unchanging.catalog_eq

/-! ## Doctor as a whole -/

/-- A check of this name came out Ok. -/
def Passed (name : String) (results : List CheckResult) : Prop :=
  ∃ result ∈ results, result.name = name ∧ result.status = .ok

/-- What doctor reports, in the order of its checks. -/
def Report (machine : Machine) (unchanging : Unchanging answers (.ofEnvironment environment))
    (results : List CheckResult) : Prop :=
  ∃ rustfs catalog, rustfs.name = "RustFS" ∧ catalog.name = "Lakekeeper" ∧
    rustfs.status = unchanging.status unchanging.rustfs ∧
    catalog.status = unchanging.status unchanging.catalog ∧
    results = [checkDocker machine, checkCredentials (.ofEnvironment environment), rustfs,
      catalog] ++ checkPorts machine ++ checkExternalTools machine

theorem checks_yields {machine : Machine}
    (unchanging : Unchanging answers (.ofEnvironment environment))
    (same : catalogEndpoint environment = defaultCatalogEndpoint environment) :
    Yields answers (Connecting (.ofEnvironment environment)) False
      (fun results _ => Report machine unchanging results)
      (checks libraries isConnect environment machine) world := by
  refine (checkRustfs_yields unchanging).bind fun rustfs middle ⟨rustfsName, rustfsStatus⟩ => ?_
  refine (checkCatalog_yields unchanging same).bind fun catalog final ⟨name, status⟩ => ?_
  exact yields_pure.mpr ⟨rustfs, catalog, rustfsName, name, rustfsStatus, status, rfl⟩

theorem checkDocker_name (machine : Machine) : (checkDocker machine).name = "Docker" := by
  unfold checkDocker
  split <;> rfl

theorem checkPort_name (machine : Machine) (port : Nat) (description : String) :
    (checkPort machine port description).name = "Port " ++ toString port := by
  unfold checkPort
  dsimp only
  split <;> rfl

theorem checkExternalTool_name (machine : Machine) (tool description installHint : String) :
    (checkExternalTool machine tool description installHint).name = tool := by
  unfold checkExternalTool
  split <;> rfl

theorem checkCredentials_name (config : LakehouseConfig) :
    (checkCredentials config).name = "Credentials" := by
  unfold checkCredentials
  split <;> rfl

theorem checkCredentials_status (config : LakehouseConfig) :
    (checkCredentials config).status = .ok ↔ validateS3Credentials config = .ok () := by
  unfold checkCredentials
  split
  next valid => simp [CheckResult.ok, valid]
  next invalid => simp [CheckResult.error, invalid]

/-- The checks of the stack have names of their own. -/
theorem Report.passed {machine : Machine}
    {unchanging : Unchanging answers (.ofEnvironment environment)} {results : List CheckResult}
    (report : Report machine unchanging results) :
    (Passed "Credentials" results ↔ validateS3Credentials (.ofEnvironment environment) = .ok ()) ∧
    (Passed "RustFS" results ↔ unchanging.status unchanging.rustfs = .ok) ∧
    (Passed "Lakekeeper" results ↔ unchanging.status unchanging.catalog = .ok) := by
  obtain ⟨rustfs, catalog, rustfsName, catalogName, rustfsStatus, catalogStatus, rfl⟩ := report
  have ports : ("Port " ++ toString 8100, "Port " ++ toString 8200, "Port " ++ toString 8210,
      "Port " ++ toString 8300) = ("Port 8100", "Port 8200", "Port 8210", "Port 8300") := by
    decide
  simp only [Prod.mk.injEq] at ports
  simp only [Passed, checkPorts, checkExternalTools, List.cons_append, List.nil_append,
    List.mem_cons, List.not_mem_nil, or_false, exists_eq_or_imp, exists_eq_left,
    checkDocker_name, checkCredentials_name, checkPort_name, checkExternalTool_name, rustfsName,
    catalogName, ports, rustfsStatus, catalogStatus, checkCredentials_status]
  simp

/-! ## What follows doctor -/

theorem checkUp_ensures (unchanging : Unchanging answers config) :
    Ensures answers (Connecting config)
      (fun ended _ => ended.isOk = (decide (unchanging.status unchanging.rustfs = .ok) &&
        decide (unchanging.status unchanging.catalog = .ok)))
      (checkUp libraries config) world := by
  unfold checkUp
  refine Ensures.bind (checkRustfs_ensures unchanging).attempt (fun rustfs middle first => ?_) ?_
  · obtain ⟨inner, same, first⟩ := first
    cases same
    refine Ensures.bind (checkCatalog_ensures unchanging).attempt
      (fun catalog final second => ?_) ?_
    · obtain ⟨inner, same, second⟩ := second
      cases same
      rw [← first, ← second]
      rcases rustfs with error | done <;> rcases catalog with other | settled <;> exact rfl
    · rintro failure final ⟨-, ⟨⟩, -⟩
  · rintro failure final ⟨-, ⟨⟩, -⟩

theorem ensures_context {client : Client Unit} {text : String} {good : Bool}
    (ensures : Ensures answers (Connecting config) (fun ended _ => ended.isOk = good) client world) :
    Ensures answers (Connecting config) (fun ended _ => ended.isOk = good)
      (Client.context text client) world := by
  refine ensures.mapFailure fun ended final holds => ?_
  cases ended <;> exact holds

theorem yields_of_isOk {client : Client Unit}
    (ensures : Ensures answers (Connecting config) (fun ended _ => ended.isOk = true) client
      world) : Yields answers (Connecting config) False (fun _ _ => True) client world := by
  refine ensures.mono (fun _ _ asked => asked) fun ended final holds => ?_
  cases ended with
  | ok result => trivial
  | error error => cases holds

theorem of_connecting {α : Type} {client : Client α} {post : Except Error α → World → Prop}
    (ensures : Ensures answers (Connecting config) post client world)
    {exchanges : List (Sigma Call.Reply)} {ending : Option (Except Error α)} {final : World}
    (runs : Runs answers client world exchanges ending final) {exchange : Sigma Call.Reply}
    (member : exchange ∈ exchanges) :
    change? exchange.1 = none ∧ exchange.1 ≠ .buildClient 10 := by
  obtain ⟨before, after, rfl⟩ := List.append_of_mem member
  obtain ⟨middle, -, same | same | same⟩ := ensures.asked runs
  · rw [same]
    exact ⟨rfl, by simp⟩
  · rw [same]
    exact ⟨rfl, nofun⟩
  · rw [same]
    exact ⟨rfl, nofun⟩

theorem init_refused (unchanging : Unchanging answers config)
    (refused : ¬ (validateS3Credentials config = .ok () ∧
      unchanging.status unchanging.rustfs = .ok ∧ unchanging.status unchanging.catalog = .ok))
    {exchanges : List (Sigma Call.Reply)} {ending : Option (Except Error Unit)} {final : World}
    (runs : Runs answers (init libraries config) world exchanges ending final) :
    (∀ exchange ∈ exchanges, change? exchange.1 = none ∧ exchange.1 ≠ .buildClient 10) ∧
      ∀ ended, ending = some ended → ended.isOk = false := by
  have failing : Ensures answers (Connecting config) (fun ended _ => ended.isOk = false)
      (init libraries config) world := by
    unfold init
    cases valid : validateS3Credentials config with
    | error error => exact rfl
    | ok nothing =>
        have credentials : Ensures answers (Connecting config) (fun ended _ => ended = .ok ())
            (Dialogue.ofExcept (.ok nothing) : Client Unit) world := rfl
        refine credentials.bind (fun _ start _ => ?_) fun _ _ failed => by cases failed
        refine (ensures_context (checkRustfs_ensures unchanging)).bind
          (fun _ middle first => ?_) fun _ _ _ => rfl
        refine (ensures_context (checkCatalog_ensures unchanging)).bind
          (fun _ _ second => ?_) fun _ _ _ => rfl
        have rustfs := of_decide_eq_true first.symm
        exact absurd ⟨valid, rustfs, of_decide_eq_true second.symm⟩ refused
  refine ⟨fun exchange member => of_connecting failing runs member, ?_⟩
  rintro ended rfl
  exact failing.runs runs

theorem init_connected (unchanging : Unchanging answers config)
    (valid : validateS3Credentials config = .ok ())
    (rustfs : unchanging.status unchanging.rustfs = .ok)
    (catalog : unchanging.status unchanging.catalog = .ok) {exchanges : List (Sigma Call.Reply)}
    {ended : Except Error Unit} {final : World}
    (runs : Runs answers (init libraries config) world exchanges (some ended) final) :
    ∃ answer, ⟨.buildClient 10, answer⟩ ∈ exchanges := by
  unfold init at runs
  rw [valid] at runs
  have credentials : Yields answers Free False (fun _ _ => True)
      (Dialogue.ofExcept (.ok ()) : Client Unit) world := trivial
  obtain ⟨_, start, before, behind, _, checking, rfl⟩ := credentials.runs_bind runs
  have first : Ensures answers (Connecting config) (fun ended _ => ended.isOk = true)
      (Client.context "RustFS not available. Run `docker compose up -d`"
        (Lakehouse.checkRustfs libraries config)) start := by
    simpa only [rustfs, decide_true] using ensures_context (checkRustfs_ensures unchanging)
  obtain ⟨_, middle, early, late, _, asking, rfl⟩ := (yields_of_isOk first).runs_bind checking
  have second : Ensures answers (Connecting config) (fun ended _ => ended.isOk = true)
      (Client.context "Lakekeeper not available. Run `docker compose up -d`"
        (Lakehouse.checkCatalog libraries config)) middle := by
    simpa only [catalog, decide_true] using ensures_context (checkCatalog_ensures unchanging)
  obtain ⟨_, connected, asked, last, _, making, rfl⟩ :=
    (yields_of_isOk second).runs_bind asking
  -- The bucket's client is the first thing that is asked for.
  cases making with
  | @ask _ _ answer =>
      refine ⟨answer, List.mem_append_right before (List.mem_append_right early ?_)⟩
      exact List.mem_append_right asked List.mem_cons_self

/-! ## Agreement -/

theorem checkDocker_status (machine : Machine) :
    (checkDocker machine).status = .error ↔ machine.dockerInfo ≠ some true := by
  unfold checkDocker
  split
  next running => simp [CheckResult.ok, running]
  next stopped => simp [CheckResult.error, stopped]
  next missing => simp [CheckResult.error, missing]

theorem checkPort_status (machine : Machine) (port : Nat) (description : String) :
    (checkPort machine port description).status ≠ .error := by
  unfold checkPort
  dsimp only
  split <;> simp [CheckResult.ok, CheckResult.warn]

theorem checkExternalTool_status (machine : Machine) (tool description installHint : String) :
    (checkExternalTool machine tool description installHint).status ≠ .error := by
  unfold checkExternalTool
  split <;> simp [CheckResult.ok, CheckResult.warn]

theorem checkCredentials_failed (config : LakehouseConfig) :
    (checkCredentials config).status = .error ↔ validateS3Credentials config ≠ .ok () := by
  unfold checkCredentials
  split
  next valid => simp [CheckResult.ok, valid]
  next invalid => simp [CheckResult.error, invalid]

theorem doctorOutcome_eq_ok_iff {results : List CheckResult} :
    doctorOutcome results = .ok () ↔ ∀ result ∈ results, result.status ≠ .error := by
  unfold doctorOutcome hasErrors
  split
  next failed =>
    obtain ⟨result, member, status⟩ := List.any_eq_true.mp failed
    exact iff_of_false nofun fun fine => fine result member (of_decide_eq_true status)
  next fine =>
    refine iff_of_true rfl fun result member status => fine ?_
    exact List.any_eq_true.mpr ⟨result, member, decide_eq_true status⟩

/-- Neither ports nor tools, nor the status a service answers with, fail doctor. -/
theorem Report.outcome {machine : Machine}
    {unchanging : Unchanging answers (.ofEnvironment environment)} {results : List CheckResult}
    (report : Report machine unchanging results) :
    doctorOutcome results = .ok () ↔ machine.dockerInfo = some true ∧
      validateS3Credentials (.ofEnvironment environment) = .ok () ∧
      unchanging.status unchanging.rustfs ≠ .error ∧
      unchanging.status unchanging.catalog ≠ .error := by
  obtain ⟨rustfs, catalog, -, -, rustfsStatus, catalogStatus, rfl⟩ := report
  rw [doctorOutcome_eq_ok_iff]
  simp only [checkPorts, checkExternalTools, List.cons_append, List.nil_append, List.mem_cons,
    List.not_mem_nil, or_false, forall_eq_or_imp, forall_eq, ne_eq, checkDocker_status,
    checkCredentials_failed, not_not, rustfsStatus, catalogStatus]
  have ports := checkPort_status machine
  have tools := checkExternalTool_status machine
  simp only [ne_eq] at ports tools
  simp [ports, tools]

/-- While the services' answers stay as they are, what doctor reports foretells `up` and `init`:
`up` is fine with the services that passed, and `init` goes on to the bucket exactly if the
credentials passed, too.  Otherwise it fails, without a request that changes anything.  Doctor's
own result counts no warnings. -/
theorem doctor_foretells_init (unchanging : Unchanging answers (.ofEnvironment environment))
    (same : catalogEndpoint environment = defaultCatalogEndpoint environment) {machine : Machine}
    {world final : World} {exchanges : List (Sigma Call.Reply)} {results : List CheckResult}
    (runs : Runs answers (checks libraries isConnect environment machine) world exchanges
      (some (.ok results)) final) :
    Runs answers (run libraries isConnect environment machine) world exchanges
      (some (doctorOutcome results)) final ∧
    (verdictLine results = "Some checks failed. Please fix the issues above before proceeding." ↔
      doctorOutcome results ≠ .ok ()) ∧
    (doctorOutcome results = .ok () ↔ machine.dockerInfo = some true ∧
      validateS3Credentials (.ofEnvironment environment) = .ok () ∧
      unchanging.status unchanging.rustfs ≠ .error ∧
      unchanging.status unchanging.catalog ≠ .error) ∧
    (∀ start asked ended stop,
      Runs answers (checkUp libraries (.ofEnvironment environment)) start asked (some ended) stop →
      (ended.isOk = true ↔ Passed "RustFS" results ∧ Passed "Lakekeeper" results)) ∧
    (∀ start asked ended stop,
      Runs answers (init libraries (.ofEnvironment environment)) start asked (some ended) stop →
      ((∃ answer, ⟨.buildClient 10, answer⟩ ∈ asked) ↔ Passed "Credentials" results ∧
        Passed "RustFS" results ∧ Passed "Lakekeeper" results)) ∧
    (∀ start asked ending stop,
      Runs answers (init libraries (.ofEnvironment environment)) start asked ending stop →
      ¬ (Passed "Credentials" results ∧ Passed "RustFS" results ∧ Passed "Lakekeeper" results) →
      marks change? asked = [] ∧ ∀ ended, ending = some ended → ended.isOk = false) := by
  have report : Report machine unchanging results := (checks_yields unchanging same).runs runs
  obtain ⟨credentials, rustfs, catalog⟩ := report.passed
  rw [credentials, rustfs, catalog]
  refine ⟨?_, verdictLine_eq_iff results, report.outcome, ?_, ?_, ?_⟩
  · have ended : Runs answers (ofExcept (doctorOutcome results) : Client Unit) final []
        (some (doctorOutcome results)) final := by
      cases doctorOutcome results with
      | ok => exact .done _ _
      | error error => exact .fail _ _
    exact exchanges.append_nil ▸ runs.continueWith ended
  · intro start asked ended stop up
    have ends := (checkUp_ensures unchanging).runs up
    rw [ends, Bool.and_eq_true, decide_eq_true_iff, decide_eq_true_iff]
  · intro start asked ended stop initialized
    constructor
    · rintro ⟨answer, member⟩
      by_contra refused
      exact ((init_refused unchanging refused initialized).1 _ member).2 rfl
    · rintro ⟨valid, reachable, reached⟩
      exact init_connected unchanging valid reachable reached initialized
  · intro start asked ending stop initialized refused
    obtain ⟨silent, failing⟩ := init_refused unchanging refused initialized
    exact ⟨List.filterMap_eq_nil_iff.mpr fun exchange member => (silent exchange member).1, failing⟩

def Unchanging.ofHealthy {services : Services World}
    (healthy : services.Healthy libraries config) : Unchanging services.answers config where
  client := true
  rustfs := .ok
  catalog := .ok
  client_eq := fun answered => by rw [healthy.client answered]; rfl
  rustfs_eq := fun answered => by
    obtain ⟨response, rfl, reachable⟩ := healthy.rustfs answered
    exact if_pos reachable
  catalog_eq := fun answered => by
    obtain ⟨response, rfl, success⟩ := healthy.lakekeeper answered
    exact if_pos success

def stackEnvironment : Environment := fun name =>
  if name = "RUSTFS_ACCESS_KEY" then some "rustfsadmin"
  else if name = "RUSTFS_SECRET_KEY" then some "rustfspassword"
  else none

def stackMachine : Machine where
  dockerInfo := some true
  which := fun _ => some false
  version := fun _ _ => none
  binds := fun _ => false

theorem doctor_foretells_init_fresh :
    ∃ exchanges results final,
      Runs freshStack.answers (checks stackLibraries (fun _ => false) stackEnvironment stackMachine)
        {} exchanges (some (.ok results)) final ∧
      doctorOutcome results = .ok () ∧
      Passed "Credentials" results ∧ Passed "RustFS" results ∧ Passed "Lakekeeper" results := by
  have healthy : freshStack.Healthy stackLibraries (.ofEnvironment stackEnvironment) :=
    freshStack_healthy
  obtain ⟨exchanges, ended, final, runs⟩ := exists_runs freshStack_total
    (checks stackLibraries (fun _ => false) stackEnvironment stackMachine) {}
  have ends := (checks_yields (.ofHealthy healthy) rfl).runs runs
  cases ended with
  | error error => exact ends.elim
  | ok results =>
      obtain ⟨-, -, outcome, -, -, refused⟩ := doctor_foretells_init (.ofHealthy healthy) rfl runs
      obtain ⟨asked, stop, initialized, -⟩ := freshStack_init
      have passed : Passed "Credentials" results ∧ Passed "RustFS" results ∧
          Passed "Lakekeeper" results := by
        by_contra failed
        cases (refused _ _ _ _ initialized failed).2 _ rfl
      refine ⟨exchanges, results, final, runs, outcome.mpr ?_, passed⟩
      exact ⟨rfl, credentials_stackConfig, nofun, nofun⟩

end AntiEntropator.Doctor
