import TagRetention.Store

/-!
The operations of the store as data, for histories of a store. An operation leads to the next store
whether it succeeds or fails.
-/

namespace TagRetention.Store

inductive Operation where
  | save (policy : Policy)
  | getPolicy (id : PolicyId)
  | getByProject (project : ProjectId)
  | update (policy : Policy)
  | delete (id : PolicyId)
  | createExecution (policy : PolicyId) (trigger : RunTrigger) (dryRun : Bool) (start : Instant)
  | getExecution (id : ExecutionId)
  | listExecutions (policy : PolicyId) (page : PageRequest)
  | createTask (execution : ExecutionId) (repository jobId : String)
  | getTask (id : TaskId)
  | listTasks (execution : ExecutionId) (page : PageRequest)
  | updateTask (report : StatusReport)
  | stopExecution (id : ExecutionId)

inductive Reply where
  | done
  | applied (value : Bool)
  | stopped (count : Nat)
  | policy (value : Option Policy)
  | execution (value : Option Execution)
  | task (value : Option Task)
  | executions (value : Page Execution)
  | tasks (value : Page Task)

variable {α : Type}

def reply (f : α → Reply) (result : Except StoreFault α × Store) :
    Except StoreFault Reply × Store :=
  (result.1.map f, result.2)

def Operation.run (now : Instant) (s : Store) : Operation → Except StoreFault Reply × Store
  | .save p => reply (.policy ∘ some) (s.save p)
  | .getPolicy id => (.ok (.policy (s.policy? id)), s)
  | .getByProject project => (.ok (.policy (s.policyOf? project)), s)
  | .update p => reply (.policy ∘ some) (s.update p)
  | .delete id => reply (fun _ => .done) (s.delete id)
  | .createExecution policy trigger dryRun start =>
    reply (.execution ∘ some) (s.createExecution policy trigger dryRun start)
  | .getExecution id => (.ok (.execution (s.execution? id)), s)
  | .listExecutions policy page => ((s.listExecutions policy page).map .executions, s)
  | .createTask execution repository jobId =>
    reply (.task ∘ some) (s.createTask execution repository jobId now)
  | .getTask id => (.ok (.task (s.task? id)), s)
  | .listTasks execution page => ((s.listTasks execution page).map .tasks, s)
  | .updateTask report => reply .applied (s.updateTask report now)
  | .stopExecution id => reply .stopped (s.stopExecution id now)

/-- The stores that operations lead to, from the empty one. -/
inductive Reachable : Store → Prop where
  | empty : Reachable .empty
  | step {s : Store} (h : Reachable s) (op : Operation) (now : Instant) :
    Reachable (op.run now s).2

end TagRetention.Store
