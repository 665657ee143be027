import TagRetention.Client.Call
import TagRetention.Client.Listing

/-!
The runs of one policy as a client shows them: a page of its executions, and a page of the tasks of
the execution whose panel is open.
-/

namespace TagRetention.Client

inductive TrackerFault where
  | noPolicy
  | service (fault : ServiceFault)
  deriving DecidableEq, Repr

def TrackerFault.message : TrackerFault → String
  | .noPolicy => "No retention policy to track"
  | .service fault => "Service error: " ++ fault.message

/-- `loadedFor` is the execution whose tasks the list holds. -/
structure Tracker where
  policyId : Option PolicyId
  executions : Listing Execution
  openPanel : Option ExecutionId
  loadedFor : Option ExecutionId
  tasks : Listing Task

namespace Tracker

def new (executionPageSize taskPageSize : Nat) : Tracker :=
  ⟨none, .new executionPageSize, none, none, .new taskPageSize⟩

/-- Turning to another policy empties both lists. -/
def attach (policy : Option PolicyId) (t : Tracker) : Tracker :=
  if t.policyId = policy then t
  else ⟨policy, t.executions.reset, none, none, t.tasks.reset⟩

def onExecutions (f : Listing Execution → Listing Execution) (t : Tracker) : Tracker :=
  { t with executions := f t.executions }

def onTasks (f : Listing Task → Listing Task) (t : Tracker) : Tracker :=
  { t with tasks := f t.tasks }

def takeTasks (execution : ExecutionId) (ticket : Nat) (answer : Except ServiceFault (Page Task))
    (t : Tracker) : Tracker :=
  { t with
    loadedFor := if t.tasks.shows ticket answer then some execution else t.loadedFor
    tasks := t.tasks.finish ticket answer }

def closePanel (t : Tracker) : Tracker :=
  { t with openPanel := none }

/-- The tasks of another execution are gone from the list at once. -/
def openPanelOf (execution : ExecutionId) (t : Tracker) : Tracker :=
  if t.loadedFor = some execution then { t with openPanel := some execution }
  else { t with openPanel := some execution, loadedFor := none, tasks := t.tasks.reset }

abbrev Attempt (α : Type) := Call Tracker (Except TrackerFault α)

variable {α : Type}

def requirePolicy (f : PolicyId → Attempt α) : Attempt α :=
  .look fun t =>
    match t.policyId with
    | none => .finish (.error .noPolicy)
    | some id => f id

/-- Sends a request and passes on its answer. -/
def forward (q : Request) : Attempt q.Answer :=
  .request q fun reply => .finish (reply.mapError .service)

def refresh : Attempt Unit :=
  .look fun t =>
    match t.policyId with
    | none => .finish (.ok ())
    | some id =>
      .change (onExecutions .begin) <|
        .request (.listExecutions id t.executions.request) fun reply =>
          .change (onExecutions (·.finish t.executions.ticket reply)) <|
            .finish ((reply.map fun _ => ()).mapError .service)

/-- A refresh that fails does not make the call before it fail. -/
def thenRefresh (a : α) : Attempt α :=
  refresh.map fun _ => .ok a

def startRun (dryRun : Bool) : Attempt ExecutionId :=
  requirePolicy fun id =>
    (forward (.triggerExecution id dryRun)).bind fun
      | .error e => .finish (.error e)
      | .ok execution => thenRefresh execution

def abortRun (execution : ExecutionId) : Attempt Unit :=
  requirePolicy fun id =>
    (forward (.abortExecution id execution)).bind fun
      | .error e => .finish (.error e)
      | .ok _ => thenRefresh ()

def goToPage (page : Nat) : Attempt Unit :=
  .change (onExecutions (.goTo page)) refresh

def setPageSize (pageSize : Nat) : Attempt Unit :=
  .change (onExecutions (.resize pageSize)) refresh

def loadTasks : Attempt Unit :=
  .look fun t =>
    match t.policyId, t.openPanel with
    | some id, some execution =>
      .change (onTasks .begin) <|
        .request (.listTasks id execution t.tasks.request) fun reply =>
          .change (takeTasks execution t.tasks.ticket reply) <|
            .finish ((reply.map fun _ => ()).mapError .service)
    | _, _ => .finish (.ok ())

/-- Whether the panel is open afterwards. -/
def toggleTaskPanel (execution : ExecutionId) : Attempt Bool :=
  .look fun t =>
    if t.openPanel = some execution then .change closePanel (.finish (.ok false))
    else .change (openPanelOf execution) (loadTasks.map (·.map fun _ => true))

def goToTaskPage (page : Nat) : Attempt Unit :=
  .change (onTasks (.goTo page)) loadTasks

def listExecutions (id : PolicyId) (page : PageRequest) : Attempt (Page Execution) :=
  forward (.listExecutions id page)

def listTasks (execution : ExecutionId) (page : PageRequest) : Attempt (Page Task) :=
  requirePolicy fun id => forward (.listTasks id execution page)

def taskLog (execution : ExecutionId) (task : TaskId) : Attempt String :=
  requirePolicy fun id => forward (.taskLog id execution task)

end Tracker

end TagRetention.Client
