import AntiEntropator.Lakehouse.Bootstrap
import AntiEntropator.Scan.Enrichers

/-!
# Preflight checks

`doctor`: whether the machine has what the stack needs, and whether the services
answer.  An unexpected status is a warning here, where `init` and `up` give up.
-/

namespace AntiEntropator.Doctor

open Lakehouse

inductive CheckStatus where
  | ok
  | warning
  | error
  deriving DecidableEq

structure CheckResult where
  name : String
  status : CheckStatus
  message : String
  suggestion : Option String
  deriving DecidableEq

namespace CheckResult

def ok (name message : String) : CheckResult := ⟨name, .ok, message, none⟩

def warn (name message suggestion : String) : CheckResult :=
  ⟨name, .warning, message, some suggestion⟩

def error (name message suggestion : String) : CheckResult :=
  ⟨name, .error, message, some suggestion⟩

end CheckResult

def hasErrors (results : List CheckResult) : Bool :=
  results.any fun result => result.status = .error

/-- Whether any check failed; warnings do not count. -/
def doctorOutcome (results : List CheckResult) : Except Error Unit :=
  if hasErrors results then .error (.msg "doctor: one or more checks failed") else .ok ()

/-- The last line of the report. -/
def verdictLine (results : List CheckResult) : String :=
  if hasErrors results then
    "Some checks failed. Please fix the issues above before proceeding."
  else if results.any fun result => result.status = .warning then
    "All critical checks passed; review the warnings above."
  else "All checks passed! Your lakehouse stack is ready."

theorem verdictLine_eq_iff (results : List CheckResult) :
    verdictLine results = "Some checks failed. Please fix the issues above before proceeding." ↔
      doctorOutcome results ≠ .ok () := by
  unfold verdictLine doctorOutcome
  split
  next => simp
  next => split <;> simp

/-! ## The machine -/

/-- What doctor learns from the operating system. -/
structure Machine where
  /-- Whether `docker info` succeeds, if it can be run. -/
  dockerInfo : Option Bool
  /-- Whether `which` finds a tool, if it can be run. -/
  which : String → Option Bool
  /-- What a tool prints when it is asked for its version, if it can be run. -/
  version : String → String → Option OsString
  /-- Whether a local port can be bound. -/
  binds : Nat → Bool

section Machine

variable (machine : Machine)

def checkDocker : CheckResult :=
  match machine.dockerInfo with
  | some true => .ok "Docker" "Docker daemon is running"
  | some false => .error "Docker" "Docker daemon is not running"
      "Start Docker Desktop or run: sudo systemctl start docker"
  | none => .error "Docker" "Docker is not installed"
      "Install Docker from https://docs.docker.com/get-docker/"

/-- The first line of a tool's version. -/
def versionInfo (tool : String) : String :=
  let argument := if tool = "exiftool" then "-ver" else "-version"
  match (machine.version tool argument).bind OsString.toStr? with
  | some text => (Scan.lines text).head?.getD ""
  | none => ""

def checkExternalTool (tool description installHint : String) : CheckResult :=
  if machine.which tool = some true then
    let versionInfo := versionInfo machine tool
    .ok tool (description ++ " - " ++ if versionInfo = "" then "installed" else trim versionInfo)
  else .warn tool (description ++ " - not installed") installHint

def checkExternalTools : List CheckResult :=
  [checkExternalTool machine "ffprobe" "Video/audio metadata extraction"
      "Install FFmpeg: brew install ffmpeg",
    checkExternalTool machine "exiftool" "Image EXIF metadata extraction"
      "Install: brew install exiftool",
    checkExternalTool machine "pdfinfo" "PDF metadata extraction"
      "Install Poppler: brew install poppler"]

def checkPort (port : Nat) (description : String) : CheckResult :=
  let name := "Port " ++ toString port
  if machine.binds port then .ok name (description ++ " is available or in use by our stack")
  else .warn name (description ++ " is busy")
    "This is OK if the stack is already running. If not, another process is using this port."

def checkPorts : List CheckResult :=
  [checkPort machine 8100 "Lakekeeper Catalog", checkPort machine 8200 "RustFS API",
    checkPort machine 8210 "RustFS Console", checkPort machine 8300 "Postgres Backend"]

end Machine

/-! ## The stack -/

/-- Check that S3 credentials are set: presence only. -/
def checkCredentials (config : LakehouseConfig) : CheckResult :=
  match validateS3Credentials config with
  | .ok () => .ok "Credentials"
      "S3 credentials are set in the environment (presence only, not validated)"
  | .error _ => .error "Credentials"
      "RUSTFS_ACCESS_KEY / RUSTFS_SECRET_KEY are not set in the environment"
      ("The CLI does not read .env; run `set -a; source .env; set +a` or use the Makefile " ++
        "targets")

/-- What a service's check says in its cases. -/
structure ServiceTexts where
  name : String
  reachable : String
  statusHint : String
  cannotConnect : String
  startHint : String
  failedHint : String

section Stack

variable (libraries : ClientLibraries) (isConnect : Error → Bool) (environment : Environment)

def serviceResult (texts : ServiceTexts) (accepts : HttpResponse → Bool) :
    Except Error HttpResponse → CheckResult
  | .ok response =>
      if accepts response then .ok texts.name texts.reachable
      else .warn texts.name (texts.name ++ " responded with status " ++
        libraries.displayStatus response.status) texts.statusHint
  | .error error =>
      -- `is_connect`: the connection could not be made.
      if isConnect error then .error texts.name texts.cannotConnect texts.startHint
      else .error texts.name (texts.name ++ " check failed: " ++ error.display) texts.failedHint

def checkService (texts : ServiceTexts) (accepts : HttpResponse → Bool) (request : HttpRequest) :
    Client CheckResult := do
  match ← Client.attempt (Client.buildClient 5) with
  | .error error =>
      return .error texts.name ("Failed to create HTTP client: " ++ error.display)
        "Check your network configuration"
  | .ok () =>
      let answer ← Client.attempt (Client.send request)
      return serviceResult libraries isConnect texts accepts answer

def s3Endpoint : String :=
  (environment "ANTI_ENTROPATOR_S3_ENDPOINT").getD "http://localhost:8200"

def rustfsTexts (endpoint : String) : ServiceTexts where
  name := "RustFS"
  reachable := "RustFS is reachable at " ++ endpoint ++ " (credentials are not validated here)"
  statusHint := "Check RustFS configuration and credentials"
  cannotConnect := "Cannot connect to RustFS at " ++ endpoint
  startHint := "Run: docker compose up -d rustfs"
  failedHint := "Check if RustFS is running and accessible"

def checkRustfs : Client CheckResult :=
  let endpoint := s3Endpoint environment
  checkService libraries isConnect (rustfsTexts endpoint) rustfsStatusIsReachable
    { method := .get, url := endpoint }

/-- Unlike the configuration's, this endpoint has a second variable. -/
def catalogEndpoint : String :=
  ((environment "ANTI_ENTROPATOR_CATALOG_ENDPOINT").or
    (environment "ANTI_ENTROPATOR_LAKEKEEPER_ENDPOINT")).getD "http://localhost:8100"

def catalogTexts (endpoint : String) : ServiceTexts where
  name := "Lakekeeper"
  reachable := "Lakekeeper catalog is reachable at " ++ endpoint
  statusHint := "Check Lakekeeper configuration"
  cannotConnect := "Cannot connect to Lakekeeper catalog"
  startHint := "Run: docker compose up -d lakekeeper"
  failedHint := "Check if Lakekeeper is running and accessible"

def checkCatalog : Client CheckResult :=
  let endpoint := catalogEndpoint environment
  checkService libraries isConnect (catalogTexts endpoint) HttpResponse.isSuccess
    { method := .get, url := trimEndSlashes endpoint ++ "/swagger-ui/" }

variable (machine : Machine)

def checks : Client (List CheckResult) := do
  let rustfs ← checkRustfs libraries isConnect environment
  let catalog ← checkCatalog libraries isConnect environment
  return [checkDocker machine, checkCredentials (.ofEnvironment environment), rustfs, catalog] ++
    checkPorts machine ++ checkExternalTools machine

def run : Client Unit := do
  let results ← checks libraries isConnect environment machine
  .ofExcept (doctorOutcome results)

end Stack

end AntiEntropator.Doctor
