import ProxyConfig.Admin.MediaType
import ProxyConfig.Admin.Message
import ProxyConfig.Admin.Multipart
import ProxyConfig.Admin.Query
import ProxyConfig.Caddyfile.Compile
import ProxyConfig.Lint.Checks
import ProxyConfig.Metrics
import ProxyConfig.Proxy.Program
import ProxyConfig.Store.Basic

/-!
The administration interface: the stored document and text, certificates, commands to the proxy, and
metrics.  `Service.handle` answers one request and gives the state after it.
-/

namespace ProxyConfig.Admin

/-- What answers a command; it may count what it does. -/
abbrev Control := Proxy.Command → Metrics → Except Proxy.ControlError Proxy.Output × Metrics

/-- A program as a control: each command is counted with its outcome. -/
def Control.ofRunner (r : Proxy.Runner) : Control := fun c m =>
  let result := r.run c
  (result, m.recordCommand c (Proxy.isSuccess result))

/-- What stays the same while requests are answered. -/
structure Service where
  paths : Store.Paths
  /-- The directory that rendered certificates are referred to from. -/
  certsDir : String
  control : Control
  showsMetrics : Bool

structure State where
  files : FileTree
  metrics : Metrics := {}

structure RawConfig where
  content : String
  deriving DecidableEq

namespace RawConfig

def record : Record (Option String) where
  name := "RawConfig"
  empty := none
  fields := [field "content" ⟨fun _ d => (Codec.readText d).map some, fun s => .text (s.getD "")⟩
    id fun s _ => s]

def read (reach : Reach) (d : Draft) : Decoded RawConfig := do
  match ← record.read reach d, d with
  | some content, _ => pure ⟨content⟩
  | none, .list _ _ => .fail (.wrongLength 0 "struct RawConfig with 1 element")
  | none, _ => .fail (.missingField "content")

def toJson (c : RawConfig) : Json.Value := .mapping [("content", .text c.content)]

end RawConfig

/-- The number of bytes that a body may have. -/
def bodyLimit : Nat := 10 <<< 20

inductive BodyFault where
  | notJson
  | tooLong
  | fault (f : DocumentFault)
  deriving DecidableEq

def BodyFault.message : BodyFault → String
  | notJson => "Expected request with `Content-Type: application/json`"
  | tooLong => "Failed to buffer the request body: length limit exceeded"
  | fault f =>
    match f.problem with
    | .broken _ => "Failed to parse the request body as JSON"
    | _ => "Failed to deserialize the JSON body into the target type: " ++ f.located

def readBody (read : Reach → Draft → Decoded α) (r : Request) : Except BodyFault α :=
  if !((r.header? "content-type").bind MediaType.ofText?).any MediaType.isJson then .error .notJson
  else if bodyLimit < r.body.size then .error .tooLong
  else (Json.decode read (Text.pieces r.body)).mapError .fault

def BodyFault.response (f : BodyFault) : Response :=
  .badRequest ("Invalid request body: " ++ f.message)

namespace Service

def reading (s : State) (failure : String) (result : Except Store.StoreError α)
    (answer : α → Json.Value) : Response × State :=
  match result with
  | .ok a => (.json (answer a), s)
  | .error _ => (.failure failure, s)

def getText (x : Service) (s : State) : Response × State :=
  reading s "Failed to read Caddyfile" (Store.readCaddyfile x.paths s.files) fun text =>
    (RawConfig.mk text).toJson

def putText (x : Service) (r : Request) (s : State) : Response × State :=
  match readBody RawConfig.read r with
  | .error f => (f.response, s)
  | .ok config =>
    match Store.writeCaddyfile x.paths config.content s.files with
    | (.ok (), files) => (.empty 200, { s with files })
    | (.error _, files) => (.failure "Failed to write Caddyfile", { s with files })

def getDocument (x : Service) (s : State) : Response × State :=
  reading s "Failed to read config" (Store.loadDocument x.paths s.files) Document.toJson

/-- The reply to a saved document: the number of its sites, and all findings. -/
def saveSummary (sites : Nat) (warnings : List Finding) : Json.Value :=
  .mapping [("sites", .number sites),
    ("warnings", .list (warnings.map fun f => .text f.message))]

def putDocument (x : Service) (r : Request) (s : State) : Response × State :=
  match readBody Document.layout.read r with
  | .error f => (f.response, s)
  | .ok doc =>
    match Store.saveDocument x.paths doc s.files with
    | (.error _, files) =>
      (.failure "Failed to save config", { files, metrics := s.metrics.recordSave false })
    | (.ok (), files) =>
      let compiled := Caddyfile.compile x.certsDir doc
      let metrics := s.metrics.recordCompilation compiled.sites
      match Store.writeCaddyfile x.paths compiled.text files with
      | (.error _, files) =>
        (.failure "Failed to write Caddyfile", { files, metrics := metrics.recordSave false })
      | (.ok (), files) =>
        (.json (saveSummary compiled.sites doc.lint), { files, metrics := metrics.recordSave true })

/-- Runs a command; one that could not be run has its error in the reply. -/
def runCommand (x : Service) (c : Proxy.Command) (s : State) : Response × State :=
  let (result, metrics) := x.control c s.metrics
  let output := match result with
    | .ok output => output
    | .error e => ⟨"", e.message⟩
  (.json output.toJson, { s with metrics })

def certificateFailure : Store.StoreError → Response
  | .invalidName _ => .badRequest "Invalid filename"
  | .noSuchFile _ => .text 404 "File not found"
  | _ => .failure "Certificate storage failed"

def certificateReply (s : State) : Store.Outcome Unit → Response × State
  | (.ok (), files) => (.empty 200, { s with files })
  | (.error e, files) => (certificateFailure e, { s with files })

def listCertificates (x : Service) (s : State) : Response × State :=
  reading s "Certificate storage failed" (Store.listCertificates x.paths s.files) fun names =>
    .list (names.map .text)

def baseName (name : String) : String :=
  match (Text.splitAll (fun c => c == '/' || c == '\\') name.toList).getLast? with
  | some last => String.ofList last
  | none => name

def brokenForm : String := "Error parsing `multipart/form-data` request"

def uploadedFile (r : Request) : Except String Multipart.Upload :=
  match ((r.header? "content-type").bind MediaType.ofText?).bind MediaType.boundary? with
  | none => .error "Invalid `boundary` for `multipart/form-data` request"
  | some boundary =>
    if bodyLimit < r.body.size then .error ("Failed to parse form: " ++ brokenForm)
    else (Multipart.file boundary "file" r.body).mapError fun
      | .brokenForm => "Failed to parse form: " ++ brokenForm
      | .brokenFile => "Failed to read file: " ++ brokenForm
      | .noFile => "Failed to get file"

def putCertificate (x : Service) (r : Request) (s : State) : Response × State :=
  match uploadedFile r with
  | .error message => (.badRequest message, s)
  | .ok upload =>
    certificateReply s
      (Store.saveCertificate x.paths (baseName upload.name) upload.content s.files)

def deleteCertificate (x : Service) (r : Request) (s : State) : Response × State :=
  match Query.value r.query "file" with
  | .error f => (.badRequest ("Failed to deserialize query string: " ++ f.message), s)
  | .ok name => certificateReply s (Store.deleteCertificate x.paths name s.files)

def getMetrics (x : Service) (s : State) : Response × State :=
  (if x.showsMetrics then .text 200 s.metrics.text
    else .text 404 "Metrics recorder not installed", s)

abbrev Action := Request → State → Response × State

def routes (x : Service) : List (String × List (String × Action)) :=
  let command (c : Proxy.Command) : String × List (String × Action) :=
    ("/api/" ++ c.toText, [("POST", fun _ => x.runCommand c)])
  [("/api/config", [("GET", fun _ => x.getText), ("POST", x.putText)]),
   ("/api/config/structured", [("GET", fun _ => x.getDocument), ("POST", x.putDocument)]),
   command .validate, command .start, command .stop, command .reload,
   ("/api/certs", [("GET", fun _ => x.listCertificates), ("POST", x.putCertificate),
     ("DELETE", x.deleteCertificate)]),
   ("/metrics", [("GET", fun _ => x.getMetrics)])]

/-- Whether a request may only come from the editing page, which marks its requests. -/
def needsMark (r : Request) : Bool :=
  ["POST", "PUT", "DELETE"].contains r.method && r.path.startsWith "/api/"

def isMarked (r : Request) : Bool := r.header? "x-requested-with" = some "XMLHttpRequest"

/-- Answers a request that is not turned away; `HEAD` is `GET` without the body. -/
def route (x : Service) (r : Request) (s : State) : Response × State :=
  match x.routes.lookup r.path with
  | none => (.empty 404, s)
  | some methods =>
    match methods.lookup r.method with
    | some action => action r s
    | none =>
      match (if r.method = "HEAD" then methods.lookup "GET" else none) with
      | some action =>
        let (response, s) := action r s
        ({ response with body := "" }, s)
      | none => (.empty 405, s)

def handle (x : Service) (r : Request) (s : State) : Response × State :=
  if needsMark r && !isMarked r then
    (.text 403 "CSRF check failed: missing X-Requested-With header", s)
  else x.route r s

end Service

end ProxyConfig.Admin
