import TagRetention.Client.Request
import TagRetention.Table

/-!
A retention service in memory. Policies, executions and tasks have ids from one counter. It takes
every policy as it is. Writes and reads can be made to fail, and listings and single requests can
be given an answer beforehand.
-/

namespace TagRetention.Client

structure LocalService where
  policies : Table PolicyId Policy
  projects : Table ProjectId PolicyId
  executions : List Execution
  tasks : List Task
  lastId : Int
  rejectWrites : Option String
  failReads : Bool
  listings : List (Page Execution)
  faults : List (String × ServiceFault)
  received : List Request

namespace LocalService

def empty : LocalService := ⟨[], [], [], [], 0, none, false, [], [], []⟩

def nextId (w : LocalService) : Int :=
  w.lastId + 1

def addExecution (policy : PolicyId) (status : RunStatus) (w : LocalService) : LocalService :=
  { w with
    lastId := w.nextId
    executions := w.executions ++ [⟨w.nextId, policy, status, .manual, false, none, none⟩] }

def addTask (execution : ExecutionId) (repository : String) (w : LocalService) : LocalService :=
  { w with
    lastId := w.nextId
    tasks := w.tasks ++ [⟨w.nextId, execution, repository, "", .pending, 0, none, none, 0, 0⟩] }

def putPolicy (id : PolicyId) (p : Policy) (w : LocalService) : LocalService :=
  { w with
    policies := w.policies.insert id p
    projects := w.projects.insert p.scope.reference id }

def dropPolicy (id : PolicyId) (w : LocalService) : LocalService :=
  { w with
    policies := w.policies.erase id
    projects := w.projects.retain (· != id) }

def stopExecution (id : ExecutionId) (w : LocalService) : LocalService :=
  { w with
    executions := w.executions.map fun e => if e.id = id then { e with status := .stopped } else e }

def notFound : ServiceFault := .rejected 404 "not found"

def writing {α : Type} (w : LocalService) (result : α × LocalService) :
    Except ServiceFault α × LocalService :=
  match w.rejectWrites with
  | some message => (.error (.rejected 400 message), w)
  | none => (.ok result.1, result.2)

def reading {α : Type} (w : LocalService) (result : Except ServiceFault α × LocalService) :
    Except ServiceFault α × LocalService :=
  if w.failReads then (.error (.rejected 500 "unavailable"), w) else result

def listExecutions (policy : PolicyId) (page : PageRequest) (w : LocalService) :
    Except ServiceFault (Page Execution) × LocalService :=
  match w.listings with
  | canned :: r => (.ok canned, { w with listings := r })
  | [] => (.ok (page.of (w.executions.reverse.filter (·.policyId == policy))), w)

def respond (w : LocalService) : (q : Request) → q.Reply × LocalService
  | .projectRetention project => reading w (.ok (w.projects.get? project), w)
  | .createPolicy p =>
    writing w (w.nextId, { w.putPolicy w.nextId (p.withId w.nextId) with lastId := w.nextId })
  | .updatePolicy id p =>
    writing w ((), { w with policies := w.policies.insert id (p.withId id) })
  | .getPolicy id => reading w ((w.policies.get? id).elim (.error notFound) .ok, w)
  | .ruleCatalog => reading w (.ok .standard, w)
  | .triggerExecution id _ => writing w (w.nextId, w.addExecution id .running)
  | .abortExecution _ execution => writing w ((), w.stopExecution execution)
  | .listExecutions id page => reading w (w.listExecutions id page)
  | .listTasks _ execution page =>
    reading w (.ok (page.of (w.tasks.filter (·.executionId == execution))), w)
  | .taskLog _ _ task => reading w (.ok ("log of task " ++ toString task), w)

/-- The first fault that is waiting for a request of the name, and the others. -/
def takeFault (name : String) :
    List (String × ServiceFault) → Option (ServiceFault × List (String × ServiceFault))
  | [] => none
  | f :: r =>
    if f.1 = name then some (f.2, r)
    else (takeFault name r).map fun (fault, rest) => (fault, f :: rest)

def service : Service LocalService := fun q w =>
  let w := { w with received := w.received ++ [q] }
  match takeFault q.name w.faults with
  | some (fault, rest) => (.error fault, { w with faults := rest })
  | none => w.respond q

end LocalService

end TagRetention.Client
