import TagRetention.Page
import TagRetention.Run.Outcome
import TagRetention.Table

/-!
The store of policies, executions and tasks. Ids count up from one and are never given twice. What
is stored of an execution is how it began; its status and end are worked out from its tasks.
-/

namespace TagRetention

inductive StoreFault where
  | notFound (detail : String)
  | alreadyExists (detail : String)
  | invalidInput (detail : String)
  deriving DecidableEq, Repr

def StoreFault.message : StoreFault → String
  | .notFound detail => "Not found: " ++ detail
  | .alreadyExists detail => "Already exists: " ++ detail
  | .invalidInput detail => "Invalid input: " ++ detail

def StoreFault.ofFault (f : Fault) : StoreFault :=
  .invalidInput f.message

structure ExecutionRecord where
  id : ExecutionId
  policyId : PolicyId
  trigger : RunTrigger
  dryRun : Bool
  startTime : Instant
  deriving DecidableEq, Repr

structure StatusReport where
  taskId : TaskId
  status : RunStatus
  revision : Int
  total : Option Int
  retained : Option Int
  deriving DecidableEq, Repr

structure Store where
  policies : Table PolicyId Policy
  executions : Table ExecutionId ExecutionRecord
  tasks : Table TaskId Task
  nextPolicy : PolicyId
  nextExecution : ExecutionId
  nextTask : TaskId

/-- A newer report always counts, one of the same revision only if the task can go there. -/
def Task.accepts (t : Task) (r : StatusReport) : Bool :=
  t.revision < r.revision || (r.revision == t.revision && t.status.canBecome r.status)

def Task.apply (t : Task) (r : StatusReport) (now : Instant) : Task :=
  { t with
    status := r.status
    revision := r.revision
    endTime := if r.status.isTerminal then some now else none
    total := r.total.getD t.total
    retained := r.retained.getD t.retained }

def Task.stopOf (t : Task) (execution : ExecutionId) (now : Instant) : Task :=
  if t.executionId = execution ∧ t.status.isTerminal = false then
    { t with status := .stopped, endTime := some now }
  else t

namespace Store

def empty : Store := ⟨[], [], [], 1, 1, 1⟩

def policyMissing (id : PolicyId) : StoreFault :=
  .notFound ("Retention policy with id " ++ toString id ++ " not found")

def executionMissing (id : ExecutionId) : StoreFault :=
  .notFound ("Execution with id " ++ toString id ++ " not found")

def taskMissing (id : TaskId) : StoreFault :=
  .notFound ("Task with id " ++ toString id ++ " not found")

def tasksOf (s : Store) (execution : ExecutionId) : List Task :=
  s.tasks.values.filter (·.executionId == execution)

def recordsOf (s : Store) (policy : PolicyId) : List ExecutionRecord :=
  s.executions.values.filter (·.policyId == policy)

def fill (s : Store) (r : ExecutionRecord) : Execution :=
  let outcome := Outcome.ofTasks r.startTime (s.tasksOf r.id)
  ⟨r.id, r.policyId, outcome.status, r.trigger, r.dryRun, some r.startTime, outcome.endTime⟩

def policy? (s : Store) (id : PolicyId) : Option Policy :=
  s.policies.get? id

def policyOf? (s : Store) (project : ProjectId) : Option Policy :=
  s.policies.values.find? (·.scope.reference == project)

def execution? (s : Store) (id : ExecutionId) : Option Execution :=
  (s.executions.get? id).map s.fill

def task? (s : Store) (id : TaskId) : Option Task :=
  s.tasks.get? id

/-- The newest execution comes first. -/
def listExecutions (s : Store) (policy : PolicyId) (page : PageRequest) :
    Except StoreFault (Page Execution) :=
  match page.fault? with
  | some f => .error (.ofFault f)
  | none =>
    let records := (s.recordsOf policy).reverse
    .ok ⟨(page.slice records).map s.fill, records.length⟩

def listTasks (s : Store) (execution : ExecutionId) (page : PageRequest) :
    Except StoreFault (Page Task) :=
  match page.fault? with
  | some f => .error (.ofFault f)
  | none => .ok (page.of (s.tasksOf execution))

/-- A project has at most one policy. -/
def save (p : Policy) (s : Store) : Except StoreFault Policy × Store :=
  if (s.policyOf? p.scope.reference).isSome then
    (.error (.alreadyExists
      ("project " ++ toString p.scope.reference ++ " already has a retention policy")), s)
  else
    let saved := p.withId s.nextPolicy
    (.ok saved,
      { s with
        policies := s.policies.insert s.nextPolicy saved
        nextPolicy := s.nextPolicy + 1 })

/-- The scope of a stored policy stays as it is. -/
def update (p : Policy) (s : Store) : Except StoreFault Policy × Store :=
  match p.id with
  | none => (.error (.invalidInput "policy has no id"), s)
  | some id =>
    match s.policies.get? id with
    | none => (.error (policyMissing id), s)
    | some stored =>
      let updated := { p with scope := stored.scope }
      (.ok updated, { s with policies := s.policies.insert id updated })

/-- Takes the executions of the policy and their tasks with it. -/
def delete (id : PolicyId) (s : Store) : Except StoreFault Unit × Store :=
  match s.policies.get? id with
  | none => (.error (policyMissing id), s)
  | some _ =>
    let removed := (s.recordsOf id).map (·.id)
    (.ok (),
      { s with
        policies := s.policies.erase id
        executions := s.executions.retain (·.policyId != id)
        tasks := s.tasks.retain fun t => !removed.contains t.executionId })

def createExecution (policy : PolicyId) (trigger : RunTrigger) (dryRun : Bool) (start : Instant)
    (s : Store) : Except StoreFault Execution × Store :=
  match s.policies.get? policy with
  | none => (.error (policyMissing policy), s)
  | some _ =>
    let record : ExecutionRecord := ⟨s.nextExecution, policy, trigger, dryRun, start⟩
    let s' :=
      { s with
        executions := s.executions.insert s.nextExecution record
        nextExecution := s.nextExecution + 1 }
    (.ok (s'.fill record), s')

def createTask (execution : ExecutionId) (repository jobId : String) (now : Instant)
    (s : Store) : Except StoreFault Task × Store :=
  match s.executions.get? execution with
  | none => (.error (executionMissing execution), s)
  | some _ =>
    let task : Task := ⟨s.nextTask, execution, repository, jobId, .pending, 0, some now, none, 0, 0⟩
    (.ok task, { s with tasks := s.tasks.insert s.nextTask task, nextTask := s.nextTask + 1 })

/-- Whether the report was applied; a stale one is not. -/
def updateTask (r : StatusReport) (now : Instant) (s : Store) : Except StoreFault Bool × Store :=
  match s.tasks.get? r.taskId with
  | none => (.error (taskMissing r.taskId), s)
  | some t =>
    if t.accepts r then
      (.ok true, { s with tasks := s.tasks.insert r.taskId (t.apply r now) })
    else (.ok false, s)

def openTasks (s : Store) (execution : ExecutionId) : List Task :=
  (s.tasksOf execution).filter (!·.status.isTerminal)

/-- The number of tasks that were stopped. -/
def stopExecution (id : ExecutionId) (now : Instant) (s : Store) :
    Except StoreFault Nat × Store :=
  match s.executions.get? id with
  | none => (.error (executionMissing id), s)
  | some _ =>
    (.ok (s.openTasks id).length, { s with tasks := s.tasks.mapValues (·.stopOf id now) })

end Store

end TagRetention
