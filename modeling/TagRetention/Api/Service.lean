import TagRetention.Api.Handler
import TagRetention.Api.Route
import TagRetention.Policy.Check
import TagRetention.Wire.Catalog

/-!
The service: its setting, its state, and what each call does. Calls that name an execution or a
task by its path see it only under the policy and the execution of the path.
-/

namespace TagRetention.Api

/-- Runs have tasks only if `launchTasks` is on. -/
structure Setting (σ : Type) where
  launcher : Launcher σ
  catalog : Catalog
  launchTasks : Bool

structure State (σ : Type) where
  store : Store
  jobs : σ

variable {σ α : Type}

abbrev Answer (σ α : Type) := Handler (State σ) (Except ApiFault α)

def onStore (f : Instant → Store → Except StoreFault α × Store) : Answer σ α :=
  .atomic fun now s =>
    let (result, store) := f now s.store
    (result.mapError .ofStoreFault, { s with store := store })

def onJobs (f : Instant → σ → Except LaunchFault α × σ) : Answer σ α :=
  .atomic fun now s =>
    let (result, jobs) := f now s.jobs
    (result.mapError .ofLaunchFault, { s with jobs := jobs })

def findPolicy (id : PolicyId) : Answer σ Policy :=
  .read fun s =>
    match s.store.policy? id with
    | some p => .ok p
    | none => .error (.notFound ("retention policy " ++ toString id))

def findExecution (policy : PolicyId) (id : ExecutionId) : Answer σ Execution :=
  .read fun s =>
    match (s.store.execution? id).filter (·.policyId == policy) with
    | some e => .ok e
    | none => .error (.notFound ("execution " ++ toString id))

def findTask (policy : PolicyId) (execution : ExecutionId) (id : TaskId) : Answer σ Task :=
  (findExecution policy execution).orElse fun _ =>
    .read fun s =>
      match (s.store.task? id).filter (·.executionId == execution) with
      | some t => .ok t
      | none => .error (.notFound ("task " ++ toString id))

def createTasks (execution : ExecutionId) : List Job → Answer σ Unit
  | [] => .answer (.ok ())
  | job :: r =>
    (onStore fun now s => s.createTask execution job.repository job.id now).orElse fun _ =>
      createTasks execution r

def launchJobs (c : Setting σ) (p : Policy) (e : Execution) : Answer σ Unit :=
  if c.launchTasks then
    (onJobs fun now j => c.launcher.launch now p e j).orElse (createTasks e.id)
  else .answer (.ok ())

def guarded (check : Except Fault Unit) (h : Answer σ α) : Answer σ α :=
  match check with
  | .error f => .answer (.error (.ofFault f))
  | .ok _ => h

def ok (h : Answer σ α) (f : α → Response) : Answer σ Response :=
  h.orElse fun a => .answer (.ok (f a))

def triggerRun (c : Setting σ) (id : PolicyId) (dryRun : Bool) : Answer σ Execution :=
  (findPolicy id).orElse fun p =>
    (onStore fun now s => s.createExecution id .manual dryRun now).orElse fun e =>
      (launchJobs c p e).orElse fun _ => findExecution id e.id

def stopRun (c : Setting σ) (id : PolicyId) (execution : ExecutionId) : Answer σ Execution :=
  (findExecution id execution).orElse fun _ =>
    (onStore fun _ s => (s.listTasks execution .everything, s)).orElse fun tasks =>
      let unfinished := tasks.items.filter (!·.status.isTerminal)
      (onJobs fun now j => c.launcher.stop now (unfinished.map (·.jobId)) j).orElse fun _ =>
        (onStore fun now s => s.stopExecution execution now).orElse fun _ =>
          findExecution id execution

def handle (c : Setting σ) : Call → Answer σ Response
  | .health =>
    .answer (.ok (.json 200 (.obj [("status", .str "healthy"), ("service", .str "tag-retention")])))
  | .projectRetention project =>
    ok (.read fun s => .ok (s.store.policyOf? project)) fun p =>
      .json 200 (.obj [("retention_id", .ofOption .int (p.bind (·.id)))])
  | .createPolicy p =>
    guarded (p.check c.catalog) <| ok (onStore fun _ s => s.save p) fun p =>
      .json 201 (Wire.encodePolicy p)
  | .catalog => .answer (.ok (.json 200 (Wire.encodeCatalog c.catalog)))
  | .getPolicy id => ok (findPolicy id) fun p => .json 200 (Wire.encodePolicy p)
  | .updatePolicy id p =>
    guarded (p.check c.catalog) <| ok (onStore fun _ s => s.update (p.withId id)) fun p =>
      .json 200 (Wire.encodePolicy p)
  | .trigger id dryRun => ok (triggerRun c id dryRun) fun e => .json 201 (Wire.encodeExecution e)
  | .listExecutions id page =>
    (findPolicy id).orElse fun _ =>
      ok (onStore fun _ s => (s.listExecutions id page, s)) fun p =>
        .listing p.total (p.items.map Wire.encodeExecution)
  | .act id execution action =>
    if action = "stop" then
      ok (stopRun c id execution) fun e => .json 200 (Wire.encodeExecution e)
    else .answer (.error (.badRequest ("unsupported action: " ++ action)))
  | .listTasks id execution page =>
    (findExecution id execution).orElse fun _ =>
      ok (onStore fun _ s => (s.listTasks execution page, s)) fun p =>
        .listing p.total (p.items.map Wire.encodeTask)
  | .taskLog id execution task =>
    (findTask id execution task).orElse fun t =>
      ok (onJobs fun _ j => (c.launcher.log t.jobId j, j)) fun log => .text 200 log
  | .report id execution task status revision total retained =>
    (findTask id execution task).orElse fun _ =>
      ok (onStore fun now s => s.updateTask ⟨task, status, revision, total, retained⟩ now)
        fun applied => .json 200 (.obj [("applied", .bool applied)])

/-- A fault becomes the response that reports it. -/
def respond (c : Setting σ) (call : Call) : Handler (State σ) Response :=
  (handle c call).bind fun
    | .ok r => .answer r
    | .error f => .answer (.fault f)

def answer (c : Setting σ) (r : Request) : Handler (State σ) Response :=
  match callOf r with
  | .error refusal => .answer refusal.response
  | .ok call => respond c call

def serve (c : Setting σ) (r : Request) : Handler (State σ) Response :=
  (answer c r).bind fun response =>
    .answer (if r.method = "HEAD" then response.withoutBody else response)

def State.fresh (jobs : σ) : State σ := ⟨.empty, jobs⟩

/-- The states that requests lead to, one after the other, from a fresh one. -/
inductive Reachable (c : Setting σ) (jobs : σ) : State σ → Prop where
  | fresh : Reachable c jobs (.fresh jobs)
  | request {s : State σ} (h : Reachable c jobs s) (r : Request) (now : Instant) :
    Reachable c jobs ((serve c r).run now s).2

end TagRetention.Api
