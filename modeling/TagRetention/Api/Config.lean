import TagRetention.Text.Numeral

/-!
The setting of a server, read from environment variables.
-/

namespace TagRetention.Api

abbrev Environment := String → Option String

structure ServerConfig where
  host : String
  port : Nat
  launchTasks : Bool
  deriving DecidableEq, Repr

inductive ServerConfigFault where
  | port
  | launchTasks
  deriving DecidableEq, Repr

def ServerConfigFault.message : ServerConfigFault → String
  | .port => "PORT must be a valid u16"
  | .launchTasks => "RETENTION_LAUNCH_TASKS must be true or false"

namespace ServerConfig

def default : ServerConfig := ⟨"127.0.0.1", 8080, true⟩

def ofEnvironment (env : Environment) : Except ServerConfigFault ServerConfig := do
  let port ←
    match env "PORT" with
    | none => .ok default.port
    | some s => (Text.natural 16 s).mapError fun _ => ServerConfigFault.port
  let launchTasks ←
    match env "RETENTION_LAUNCH_TASKS" with
    | none => .ok default.launchTasks
    | some "true" => .ok true
    | some "false" => .ok false
    | some _ => .error .launchTasks
  return ⟨(env "HOST").getD default.host, port, launchTasks⟩

def address (c : ServerConfig) : String :=
  c.host ++ ":" ++ toString c.port

end ServerConfig

end TagRetention.Api
