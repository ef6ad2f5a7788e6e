import AntiEntropator.Config
import AntiEntropator.Dialogue.Contract
import AntiEntropator.Ingest.Journal.Encoding
import AntiEntropator.Lakehouse.Schema
import Mathlib.Data.List.DropRight

/-!
# Talking to the services

The stack's commands as dialogues: HTTP requests, the local state file, the
clock and the catalog client.  Whatever they ask may fail.
-/

namespace AntiEntropator.Lakehouse

open Ingest (JsonCodec field readString)

inductive Method where
  | get
  | head
  | put
  | post
  deriving DecidableEq

structure HttpRequest where
  method : Method
  url : String
  /-- Pairs that the `url` crate appends, percent-encoded. -/
  query : List (String × String) := []
  headers : List (String × String) := []
  body : Option Json := none

structure HttpResponse where
  status : Nat
  body : Except Error (List UInt8)

def HttpResponse.isSuccess (response : HttpResponse) : Bool :=
  200 ≤ response.status && response.status < 300

/-- The properties a `RestCatalog` is loaded with. -/
abbrev Properties := List (String × String)

structure DataFile where
  path : String
  recordCount : Nat
  deriving DecidableEq

/-- What a command asks the world. -/
inductive Call where
  /-- `reqwest::Client::builder().timeout(..).build()`. -/
  | buildClient (seconds : Nat)
  | send (request : HttpRequest)
  /-- `Utc::now`. -/
  | now
  /-- `read_to_string`, where it succeeds. -/
  | readFile (path : String)
  /-- `create_dir_all` of a path's parent. -/
  | createParents (path : String)
  | writeFile (path : String) (bytes : List UInt8)
  /-- `RestCatalogBuilder::load`. -/
  | loadCatalog (name : String) (properties : Properties)
  /-- `RestCatalog::load_table`: the current schema of the table. -/
  | loadTable (properties : Properties) (namespaceName table : String)
  /-- `Uuid::new_v4`. -/
  | newV4
  /-- Where a table's location generator puts a file. -/
  | generateLocation (fileName : String)
  /-- A Parquet writer over a new output file. -/
  | openParquet (path : String)
  | writeParquet (path : String) (batch : RecordBatch)
  /-- What the writer made, as far as `DataFileBuilder::build` accepts it. -/
  | closeParquet (path : String)
  /-- `Transaction::commit` of a `fast_append`. -/
  | commit (properties : Properties) (dataFiles : List DataFile)

@[reducible]
def Call.Reply : Call → Type
  | .buildClient _ | .createParents _ | .writeFile _ _ | .loadCatalog _ _ | .openParquet _ |
    .writeParquet _ _ | .commit _ _ => Except Error Unit
  | .send _ => Except Error HttpResponse
  | .now => DateTime
  | .readFile _ => Option (List UInt8)
  | .loadTable _ _ _ => Except Error Schema
  | .newV4 => Uuid
  | .generateLocation _ => Except Error String
  | .closeParquet _ => Except Error (List (Except Error DataFile))

instance (call : Call) : Nonempty call.Reply := by
  cases call with
  | now => exact ⟨(0 : Int)⟩
  | readFile path => exact ⟨none⟩
  | newV4 => exact ⟨(0 : Uuid)⟩
  | _ => exact ⟨.error (.msg "")⟩

/-- A command that talks to the services and may fail. -/
abbrev Client := Dialogue Call.Reply Error

structure ClientLibraries where
  json : JsonCodec
  /-- The error text for a body that is not of the expected form. -/
  complaint : List UInt8 → String
  /-- `Response::text`, by the charset of the response. -/
  bodyText : List UInt8 → String
  /-- A JSON value on one line. -/
  displayJson : Json → String
  /-- A status code with its reason. -/
  displayStatus : Nat → String
  /-- `Url::parse`: the text of the URL. -/
  parseUrl : String → Except Error String
  /-- How an Iceberg type is printed. -/
  displayType : FieldType → String
  /-- How an error of the Arrow library is printed. -/
  displayArrow : ArrowError → String
  /-- `serde_json::to_value` of a schema. -/
  schemaToValue : Schema → Except Error Json
  crypto : Crypto
  /-- HMAC-SHA256 of a message under a key. -/
  hmacSha256 : List UInt8 → List UInt8 → List UInt8
  /-- `%Y%m%d`. -/
  dateStamp : DateTime → String
  /-- `%Y%m%dT%H%M%SZ`. -/
  amzDate : DateTime → String
  /-- The state file in the platform's data directory. -/
  stateFilePath : Option String

namespace Client

def throw {α : Type} (error : Error) : Client α := .fail error

def context {α : Type} (text : String) (client : Client α) : Client α :=
  client.mapFailure fun error => error.context text

/-- `match client.await`: a failure is a result. -/
def attempt {α : Type} (client : Client α) : Client (Except Error α) := Dialogue.attempt client

def demand {α : Type} (call : Call) (result : call.Reply → Except Error α) : Client α :=
  Dialogue.query call >>= fun reply => Dialogue.ofExcept (result reply)

def buildClient (seconds : Nat) : Client Unit := demand (.buildClient seconds) id

def send (request : HttpRequest) : Client HttpResponse := demand (.send request) id

section Yields

open Dialogue

variable {World : Type} {answers : Answers World Call.Reply} {asks : World → Call → Prop}
  {failing : Prop} {world : World}

theorem yields_throw {α : Type} {post : α → World → Prop} {error : Error} :
    Yields answers asks failing post (throw error) world ↔ failing := yields_fail

theorem yields_context {α : Type} {post : α → World → Prop} {text : String} {client : Client α} :
    Yields answers asks failing post (context text client) world ↔
      Yields answers asks failing post client world := yields_mapFailure

theorem yields_demand {α : Type} {post : α → World → Prop} {call : Call}
    {result : call.Reply → Except Error α} :
    Yields answers asks failing post (demand call result) world ↔
      asks world call ∧ ∀ reply after, answers world call reply after →
        Ends failing post (result reply) after := by
  rw [demand, yields_bind, yields_query]
  simp only [yields_ofExcept]

theorem yields_send {post : HttpResponse → World → Prop} {request : HttpRequest} :
    Yields answers asks failing post (send request) world ↔
      asks world (.send request) ∧ ∀ (reply : Except Error HttpResponse) after,
        answers world (.send request) reply after → Ends failing post reply after := yields_demand

theorem demand_free {α : Type} {post : α → World → Prop} {call : Call}
    {result : call.Reply → Except Error α}
    (answered : ∀ reply value after, answers world call reply after → result reply = .ok value →
      post value after) : Yields answers Free True post (demand call result) world :=
  yields_demand.mpr ⟨trivial, fun reply after given =>
    ends_true_iff.mpr fun value same => answered reply value after given same⟩

theorem send_free {post : HttpResponse → World → Prop} {request : HttpRequest}
    (answered : ∀ response after, answers world (.send request) (.ok response) after →
      post response after) : Yields answers Free True post (send request) world :=
  demand_free fun _ response after given same => answered response after (same ▸ given)

theorem sent_free (text : String) (request : HttpRequest) :
    Yields answers Free True
      (fun response after => answers world (.send request) (.ok response) after)
      (context text (send request)) world :=
  yields_context.mpr (send_free fun _ _ answered => answered)

end Yields

end Client

/-! ## Bodies -/

/-- `Value::get` on an object: a repeated key has its last value. -/
def getMember (name : String) : Json → Option Json
  | .object members => (members.reverse.find? fun member => member.1 = name).map Prod.snd
  | _ => none

/-- The values of a plain struct's fields, in order: an object that has each of them once, or
the array of them. -/
def structFields (names : List String) : Json → Option (List Json)
  | .object members => names.mapM fun name => field name members
  | .array items => if items.length = names.length then some items else none
  | _ => none

/-- `HashMap<String, String>`: every value is text; a repeated key has its last value. -/
def readStringMap : Json → Option (List (String × String))
  | .object members => members.mapM fun member => (readString member.2).map (member.1, ·)
  | _ => none

def mapGet (name : String) (map : List (String × String)) : Option String :=
  (map.reverse.find? fun entry => entry.1 = name).map Prod.snd

section Bodies

variable (libraries : ClientLibraries)

def HttpResponse.json {α : Type} (read : Json → Option α) (response : HttpResponse) :
    Except Error α :=
  match response.body with
  | .error error => .error error
  | .ok bytes =>
      match (libraries.json.fromSlice bytes).bind read with
      | some value => .ok value
      | none => .error (.msg (libraries.complaint bytes))

def HttpResponse.jsonOrNull (response : HttpResponse) : Json :=
  match response.json libraries some with
  | .ok value => value
  | .error _ => .null

def HttpResponse.textOrEmpty (response : HttpResponse) : String :=
  match response.body with
  | .ok bytes => libraries.bodyText bytes
  | .error _ => ""

/-- `"{text}: {status} - {body}"`. -/
def HttpResponse.failure (text : String) (response : HttpResponse) : Error :=
  .msg (text ++ ": " ++ libraries.displayStatus response.status ++ " - " ++
    response.textOrEmpty libraries)

end Bodies

def trimEndSlashes (text : String) : String :=
  String.ofList (text.toList.rdropWhile fun character => character = '/')

end AntiEntropator.Lakehouse
