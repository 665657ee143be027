import TagRetention.Catalog
import TagRetention.Page
import TagRetention.Policy
import TagRetention.Run

/-!
What a client asks of a retention service, what each request is answered with, and how a request
can fail.
-/

namespace TagRetention.Client

inductive ServiceFault where
  | rejected (status : Nat) (detail : String)
  | http (detail : String)
  | invalidResponse (detail : String)
  | config (detail : String)
  deriving DecidableEq, Repr

def ServiceFault.message : ServiceFault → String
  | .rejected status detail => "Request rejected (" ++ toString status ++ "): " ++ detail
  | .http detail => "HTTP error: " ++ detail
  | .invalidResponse detail => "Invalid response: " ++ detail
  | .config detail => "Configuration error: " ++ detail

/-- What the service itself said, if it said anything. -/
def ServiceFault.serverMessage? : ServiceFault → Option String
  | .rejected _ detail => if detail = "" then none else some detail
  | _ => none

inductive Request where
  | projectRetention (project : ProjectId)
  | createPolicy (policy : Policy)
  | updatePolicy (id : PolicyId) (policy : Policy)
  | getPolicy (id : PolicyId)
  | ruleCatalog
  | triggerExecution (id : PolicyId) (dryRun : Bool)
  | abortExecution (id : PolicyId) (execution : ExecutionId)
  | listExecutions (id : PolicyId) (page : PageRequest)
  | listTasks (id : PolicyId) (execution : ExecutionId) (page : PageRequest)
  | taskLog (id : PolicyId) (execution : ExecutionId) (task : TaskId)

namespace Request

@[reducible]
def Answer : Request → Type
  | .projectRetention _ => Option PolicyId
  | .createPolicy _ => PolicyId
  | .updatePolicy _ _ => Unit
  | .getPolicy _ => Policy
  | .ruleCatalog => Catalog
  | .triggerExecution _ _ => ExecutionId
  | .abortExecution _ _ => Unit
  | .listExecutions _ _ => Page Execution
  | .listTasks _ _ _ => Page Task
  | .taskLog _ _ _ => String

abbrev Reply (q : Request) := Except ServiceFault q.Answer

def name : Request → String
  | .projectRetention _ => "project_retention_id"
  | .createPolicy _ => "create_policy"
  | .updatePolicy _ _ => "update_policy"
  | .getPolicy _ => "get_policy"
  | .ruleCatalog => "rule_metadata"
  | .triggerExecution _ _ => "trigger_execution"
  | .abortExecution _ _ => "abort_execution"
  | .listExecutions _ _ => "list_executions"
  | .listTasks _ _ _ => "list_tasks"
  | .taskLog _ _ _ => "task_log"

end Request

/-- A service with state `S` answers each request at once. -/
abbrev Service (S : Type) := (q : Request) → S → q.Reply × S

end TagRetention.Client
