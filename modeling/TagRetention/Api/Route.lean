import TagRetention.Api.MediaType
import TagRetention.Api.Message
import TagRetention.Text.Separated
import TagRetention.Wire.Policy
import TagRetention.Wire.Run

/-!
From requests to calls. A path leads to a resource or nowhere, a resource takes some methods, and
then the ids of the path, the query and the body are read, in this order. What cannot be read is
refused with a status of its own.
-/

namespace TagRetention.Api

/-- The ids are as they stand in the path. -/
inductive Resource where
  | health
  | projectRetention (project : String)
  | retentions
  | catalog
  | retention (policy : String)
  | executions (policy : String)
  | execution (policy execution : String)
  | tasks (policy execution : String)
  | task (policy execution task : String)
  deriving DecidableEq, Repr

inductive Call where
  | health
  | projectRetention (project : ProjectId)
  | createPolicy (policy : Policy)
  | catalog
  | getPolicy (id : PolicyId)
  | updatePolicy (id : PolicyId) (policy : Policy)
  | trigger (id : PolicyId) (dryRun : Bool)
  | listExecutions (id : PolicyId) (page : PageRequest)
  | act (id : PolicyId) (execution : ExecutionId) (action : String)
  | listTasks (id : PolicyId) (execution : ExecutionId) (page : PageRequest)
  | taskLog (id : PolicyId) (execution : ExecutionId) (task : TaskId)
  | report (id : PolicyId) (execution : ExecutionId) (task : TaskId) (status : RunStatus)
    (revision : Int) (total retained : Option Int)

inductive Refusal where
  | unknownPath
  | unsupportedMethod
  | badPath
  | badQuery
  | unsupportedMedia
  | malformedBody
  | mismatchedBody
  deriving DecidableEq, Repr

def Refusal.response : Refusal → Response
  | .unknownPath => .bare 404
  | .unsupportedMethod => .bare 405
  | .badPath => .text 400 "Invalid URL"
  | .badQuery => .text 400 "Failed to read the query string"
  | .unsupportedMedia => .text 415 "Expected a body of type application/json"
  | .malformedBody => .text 400 "Failed to read the body as JSON"
  | .mismatchedBody => .text 422 "Failed to read the JSON body as the expected document"

/-- The bytes of a text in which a percent sign stands for two hexadecimal digits. Bytes outside
ASCII do not matter here: no number and no name has one. -/
def percentDecode : List Char → List Char
  | '%' :: a :: b :: r =>
    match Json.hex? a, Json.hex? b with
    | some m, some n => Char.ofNat (m * 16 + n) :: percentDecode r
    | _, _ => '%' :: percentDecode (a :: b :: r)
  | c :: r => c :: percentDecode r
  | [] => []

def pathId (segment : String) : Except Refusal Int :=
  match Text.int64 (String.ofList (percentDecode segment.toList)) with
  | .ok n => .ok n
  | .error _ => .error .badPath

def isSchemeChar (c : Char) : Bool :=
  c.isAlphanum || "+-.~".toList.contains c

/-- What follows scheme and host; a scheme may be empty. A target that neither has a scheme nor
starts with a slash has no path. -/
def localTarget (target : List Char) : List Char :=
  match target with
  | '/' :: _ => target
  | _ =>
    match target.dropWhile isSchemeChar with
    | ':' :: '/' :: '/' :: r => r.dropWhile fun c => c != '/' && c != '?'
    | _ => []

/-- Path and query of a target; a fragment is not part of it. -/
def cutTarget (target : String) : List Char × List Char :=
  let s := localTarget (target.toList.takeWhile (· != '#'))
  let path := s.takeWhile (· != '?')
  (path, s.drop (path.length + 1))

def segments (path : List Char) : List String :=
  (Text.splitChars '/' path).map String.ofList

/-- A path does not end in a slash. An empty segment elsewhere is an id that cannot be read. -/
def resourceOf (segments : List String) : Option Resource :=
  if segments.getLast? = some "" then none
  else
    match segments with
    | ["", "health"] => some .health
    | ["", "api", "projects", project, "retention"] => some (.projectRetention project)
    | ["", "api", "retentions"] => some .retentions
    | ["", "api", "retentions", "metadatas"] => some .catalog
    | ["", "api", "retentions", id] => some (.retention id)
    | ["", "api", "retentions", id, "executions"] => some (.executions id)
    | ["", "api", "retentions", id, "executions", eid] => some (.execution id eid)
    | ["", "api", "retentions", id, "executions", eid, "tasks"] => some (.tasks id eid)
    | ["", "api", "retentions", id, "executions", eid, "tasks", tid] => some (.task id eid tid)
    | _ => none

def queryPairs (query : List Char) : List (List Char × List Char) :=
  ((Text.splitChars '&' query).filter (!·.isEmpty)).map fun piece =>
    let plain (s : List Char) := percentDecode (s.map fun c => if c = '+' then ' ' else c)
    let name := piece.takeWhile (· != '=')
    (plain name, plain (piece.drop (name.length + 1)))

/-- The value of a known name; one that comes twice is refused. -/
def queryNumber (pairs : List (List Char × List Char)) (name : String) (default : Nat) :
    Except Refusal Nat :=
  match pairs.filter (·.1 == name.toList) with
  | [] => .ok default
  | [(_, v)] =>
    match Text.natural 32 (String.ofList v) with
    | .ok n => .ok n
    | .error _ => .error .badQuery
  | _ => .error .badQuery

def pageOf (query : List Char) : Except Refusal PageRequest := do
  let pairs := queryPairs query
  let page ← queryNumber pairs "page" PageRequest.defaultPage
  let pageSize ← queryNumber pairs "page_size" PageRequest.defaultSize
  return ⟨page, pageSize⟩

def bodyOf {α : Type} (r : Request) (d : Json.Decoder α) : Except Refusal α :=
  if (r.contentType.map MediaType.isJson).getD false then
    match d r.body.start with
    | .ok a => .ok a
    | .error .malformed => .error .malformedBody
    | .error .mismatch => .error .mismatchedBody
  else .error .unsupportedMedia

open Json.Decode

def dryRun : Json.Decoder Bool :=
  record (.cons (defaulted "dry_run" bool false) .nil) fun (b, _) => b

def action : Json.Decoder String :=
  record (.cons (required "action" text) .nil) fun (s, _) => s

def statusReport : Json.Decoder (RunStatus × Int × Option Int × Option Int) :=
  record
    (.cons (required "status" Wire.runStatus) <|
      .cons (defaulted "revision" int64 0) <|
      .cons (optional "total" int32) <|
      .cons (optional "retained" int32) .nil)
    fun (status, revision, total, retained, _) => (status, revision, total, retained)

/-- The call that a method makes on a resource. `HEAD` is `GET` here. -/
def callOn (r : Request) (query : List Char) : Resource → String → Except Refusal Call
  | .health, "GET" => .ok .health
  | .projectRetention p, "GET" => return .projectRetention (← pathId p)
  | .retentions, "POST" => return .createPolicy (← bodyOf r Wire.policy)
  | .catalog, "GET" => .ok .catalog
  | .retention id, "GET" => return .getPolicy (← pathId id)
  | .retention id, "PUT" => return .updatePolicy (← pathId id) (← bodyOf r Wire.policy)
  | .executions id, "POST" => return .trigger (← pathId id) (← bodyOf r dryRun)
  | .executions id, "GET" => return .listExecutions (← pathId id) (← pageOf query)
  | .execution id eid, "PATCH" => return .act (← pathId id) (← pathId eid) (← bodyOf r action)
  | .tasks id eid, "GET" => return .listTasks (← pathId id) (← pathId eid) (← pageOf query)
  | .task id eid tid, "GET" => return .taskLog (← pathId id) (← pathId eid) (← pathId tid)
  | .task id eid tid, "PUT" => do
    let id ← pathId id
    let eid ← pathId eid
    let tid ← pathId tid
    let (status, revision, total, retained) ← bodyOf r statusReport
    return .report id eid tid status revision total retained
  | _, _ => .error .unsupportedMethod

def callOf (r : Request) : Except Refusal Call :=
  let (path, query) := cutTarget r.target
  match resourceOf (segments path) with
  | none => .error .unknownPath
  | some resource => callOn r query resource (if r.method = "HEAD" then "GET" else r.method)

end TagRetention.Api
