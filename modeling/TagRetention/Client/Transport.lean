import TagRetention.Api.Message
import TagRetention.Client.Config
import TagRetention.Text.Blank
import TagRetention.Wire.Catalog
import TagRetention.Wire.Policy
import TagRetention.Wire.Run

/-!
Requests to a service over HTTP: what is sent, and what the replies mean. A status outside the two
hundreds is a rejection with the message of the body, or with the body itself if it has none.
-/

namespace TagRetention.Client

/-- `total` is the header with the size of a listing. -/
structure HttpReply where
  status : Nat
  total : Option String
  body : Api.Body

namespace Transport

open Json.Decode

/-- The base without the slashes at its end. -/
def trimBase (base : String) : String :=
  String.ofList (base.toList.reverse.dropWhile (· == '/')).reverse

def pageQuery (page : PageRequest) : String :=
  "?page=" ++ toString page.page ++ "&page_size=" ++ toString page.pageSize

def retentionPath (id : PolicyId) : String :=
  "/retentions/" ++ toString id

def executionPath (id : PolicyId) (execution : ExecutionId) : String :=
  retentionPath id ++ "/executions/" ++ toString execution

def sending (method path : String) (body : Option Json) : Api.Request where
  method := method
  target := "/api" ++ path
  contentType := body.map fun _ => Api.jsonType
  body := (body.map .document).getD .empty

def message : Request → Api.Request
  | .projectRetention project =>
    sending "GET" ("/projects/" ++ toString project ++ "/retention") none
  | .createPolicy p => sending "POST" "/retentions" (some (Wire.encodePolicy p))
  | .updatePolicy id p => sending "PUT" (retentionPath id) (some (Wire.encodePolicy p))
  | .getPolicy id => sending "GET" (retentionPath id) none
  | .ruleCatalog => sending "GET" "/retentions/metadatas" none
  | .triggerExecution id dryRun =>
    sending "POST" (retentionPath id ++ "/executions") (some (.obj [("dry_run", .bool dryRun)]))
  | .abortExecution id execution =>
    sending "PATCH" (executionPath id execution) (some (.obj [("action", .str "stop")]))
  | .listExecutions id page =>
    sending "GET" (retentionPath id ++ "/executions" ++ pageQuery page) none
  | .listTasks id execution page =>
    sending "GET" (executionPath id execution ++ "/tasks" ++ pageQuery page) none
  | .taskLog id execution task =>
    sending "GET" (executionPath id execution ++ "/tasks/" ++ toString task) none

def url (c : Config) (q : Request) : String :=
  trimBase c.baseUrl ++ (message q).target

def isSuccess (r : HttpReply) : Bool :=
  200 ≤ r.status && r.status < 300

def errorMessage : Json.Decoder String :=
  record (.cons (defaulted "message" text "") .nil) fun (s, _) => s

def rejection (r : HttpReply) : ServiceFault :=
  .rejected r.status <|
    match errorMessage r.body.whole with
    | .ok message => message
    | .error _ => r.body.content

def unreadable : ServiceFault := .http "error decoding response body"

def unreachable : ServiceFault := .http "error sending request"

def decodeBody {α : Type} (d : Json.Decoder α) (r : HttpReply) : Except ServiceFault α :=
  (d r.body.whole).mapError fun _ => unreadable

def isVisible (c : Char) : Bool :=
  (' ' ≤ c && c ≤ '~') || c == '\t'

def hexText (n : Nat) : List Char :=
  Nat.toDigits 16 n

/-- A header in quotes; a byte that is not visible stands as its number. -/
def quoted (header : String) : String :=
  let byte (b : UInt8) : List Char :=
    let c := Char.ofNat b.toNat
    if c = '"' then ['\\', '"'] else if isVisible c then [c] else '\\' :: 'x' :: hexText b.toNat
  String.ofList ('"' :: (header.toUTF8.toList.flatMap byte ++ ['"']))

def totalOf (r : HttpReply) : Except ServiceFault Nat :=
  match r.total with
  | none => .error (.invalidResponse "missing total count header")
  | some header =>
    match header.toList.all isVisible, Text.natural 64 (Text.trim header) with
    | true, .ok n => .ok n
    | _, _ => .error (.invalidResponse ("bad total count: " ++ quoted header))

/-- The total comes from the header, and only then is the body looked at. -/
def pageOf {α : Type} (d : Json.Decoder α) (r : HttpReply) : Except ServiceFault (Page α) := do
  let total ← totalOf r
  let items ← decodeBody (list d) r
  return ⟨items, total⟩

def createdId : Json.Decoder Int :=
  record (.cons (required "id" int64) .nil) fun (id, _) => id

def retentionId : Json.Decoder (Option Int) :=
  record (.cons (optional "retention_id" int64) .nil) fun (id, _) => id

def accepted (r : HttpReply) : (q : Request) → q.Reply
  | .projectRetention _ => decodeBody retentionId r
  | .createPolicy _ => decodeBody createdId r
  | .updatePolicy _ _ => .ok ()
  | .getPolicy _ => decodeBody Wire.policy r
  | .ruleCatalog => decodeBody Wire.catalog r
  | .triggerExecution _ _ => decodeBody createdId r
  | .abortExecution _ _ => .ok ()
  | .listExecutions _ _ => pageOf Wire.execution r
  | .listTasks _ _ _ => pageOf Wire.task r
  | .taskLog _ _ _ => .ok (if r.status = 204 then "" else r.body.content)

/-- What a reply means; `none` is a service that could not be reached. -/
def interpret (q : Request) : Option HttpReply → q.Reply
  | none => .error unreachable
  | some r => if isSuccess r then accepted r q else .error (rejection r)

end Transport

end TagRetention.Client
