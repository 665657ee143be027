import TagRetention.Api.Config
import TagRetention.Client.Request

/-!
The setting of a client, read from environment variables.
-/

namespace TagRetention.Client

structure Config where
  baseUrl : String
  timeoutMillis : Nat
  executionPageSize : Nat
  taskPageSize : Nat
  deriving DecidableEq, Repr

namespace Config

def default : Config := ⟨"http://127.0.0.1:8080", 30000, 10, 5⟩

def number (env : Api.Environment) (name : String) (bits default : Nat) :
    Except ServiceFault Nat :=
  match env name with
  | none => .ok default
  | some s =>
    (Text.natural bits s).mapError fun e =>
      .config ("invalid " ++ name ++ ": " ++ e.message)

def ofEnvironment (env : Api.Environment) : Except ServiceFault Config := do
  let timeoutMillis ← number env "RETENTION_REQUEST_TIMEOUT_MS" 64 default.timeoutMillis
  let executionPageSize ←
    number env "RETENTION_EXECUTION_PAGE_SIZE" 32 default.executionPageSize
  let taskPageSize ← number env "RETENTION_TASK_PAGE_SIZE" 32 default.taskPageSize
  if executionPageSize = 0 ∨ taskPageSize = 0 then
    .error (.config "page sizes must be positive")
  else
    return ⟨(env "RETENTION_API_URL").getD default.baseUrl, timeoutMillis, executionPageSize,
      taskPageSize⟩

def withBaseUrl (c : Config) (baseUrl : String) : Config :=
  { c with baseUrl := baseUrl }

def withTimeout (c : Config) (millis : Nat) : Config :=
  { c with timeoutMillis := millis }

end Config

end TagRetention.Client
