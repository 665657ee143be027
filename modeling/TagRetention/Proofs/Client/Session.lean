import TagRetention.Proofs.Client.LocalAnswers
import TagRetention.Proofs.Client.Plan
import TagRetention.Proofs.Client.Requests

/-!
Sessions: an orchestrator that is the only one to write to a service in memory, one call after the
other, while the service may be made to fail in between.
-/

namespace TagRetention.Client

/-- The policy of a project, empty if none is stored. -/
def LocalService.current (project : ProjectId) (w : LocalService) : Policy :=
  ((w.projects.get? project).bind w.policies.get?).getD (.forProject project)

structure Session where
  client : Orchestrator
  service : LocalService

namespace Session

inductive Step where
  | load
  | loadCatalog
  | mutate (m : Mutation)
  | editSchedule (editing : Bool)
  | disturb (rejectWrites : Option String) (failReads : Bool)
    (faults : List (String × ServiceFault))

variable {α : Type}

def call (c : Call Orchestrator α) (x : Session) : α × Session :=
  let result := c.run LocalService.service x.client x.service
  (result.1, ⟨result.2.1, result.2.2⟩)

def step (x : Session) : Step → Session
  | .load => (x.call Orchestrator.load).2
  | .loadCatalog => (x.call Orchestrator.loadCatalog).2
  | .mutate m => (x.call (Orchestrator.mutate m)).2
  | .editSchedule editing => { x with client := x.client.setEditing editing }
  | .disturb rejectWrites failReads faults =>
    { x with service := { x.service with rejectWrites, failReads, faults } }

def after (x : Session) (steps : List Step) : Session :=
  steps.foldl step x

/-- Whether the mutation sends a document. -/
def writes (x : Session) (m : Mutation) : Bool :=
  ((Orchestrator.mutate m).requests LocalService.service x.client x.service).any
    (·.document?.isSome)

end Session

end TagRetention.Client
