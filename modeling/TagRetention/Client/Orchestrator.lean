import TagRetention.Client.Call
import TagRetention.Client.Mutation

/-!
The client's copy of a project's policy. A change is planned on the copy, written as a whole, and
the copy is loaded again. One change is under way at a time; `loading` is up while something is
being loaded or written.
-/

namespace TagRetention.Client

structure Orchestrator where
  project : ProjectId
  saved : Option PolicyId
  policy : Policy
  catalog : Catalog
  editingSchedule : Bool
  loading : Bool
  mutationPending : Bool

namespace Orchestrator

def new (project : ProjectId) : Orchestrator :=
  ⟨project, none, .forProject project, .empty, false, false, false⟩

def setLoading (b : Bool) (o : Orchestrator) : Orchestrator :=
  { o with loading := b }

def setPending (b : Bool) (o : Orchestrator) : Orchestrator :=
  { o with mutationPending := b }

def setEditing (b : Bool) (o : Orchestrator) : Orchestrator :=
  { o with editingSchedule := b }

/-- Takes over the policy that is stored under the id. -/
def adopt (id : PolicyId) (p : Policy) (o : Orchestrator) : Orchestrator :=
  { o with saved := some id, policy := p.withId id }

def forget (o : Orchestrator) : Orchestrator :=
  { o with saved := none, policy := .forProject o.project }

abbrev Attempt (α : Type) := Call Orchestrator (Except MutationFault α)

variable {α : Type}

def whileLoading (c : Call Orchestrator α) : Call Orchestrator α :=
  .change (setLoading true) (c.releasing (setLoading false))

def reload (id : PolicyId) : Call Orchestrator (Except ServiceFault Unit) :=
  .request (.getPolicy id) fun
    | .error e => .finish (.error e)
    | .ok p => .change (adopt id p) (.finish (.ok ()))

def reloadProject : Call Orchestrator (Except ServiceFault Unit) :=
  .look fun o =>
    .request (.projectRetention o.project) fun
      | .error e => .finish (.error e)
      | .ok none => .change forget (.finish (.ok ()))
      | .ok (some id) => reload id

/-- Finds the project's policy and loads it; the id under which it is stored. -/
def load : Attempt (Option PolicyId) :=
  whileLoading <| reloadProject.bind fun
    | .error e => .finish (.error (.service e))
    | .ok _ => .look fun o => .finish (.ok o.saved)

def loadCatalog : Attempt Unit :=
  .request .ruleCatalog fun
    | .error e => .finish (.error (.service e))
    | .ok m => .change ({ · with catalog := m }) (.finish (.ok ()))

def refresh (id : PolicyId) : Attempt Unit :=
  (reload id).map (·.mapError .refresh)

/-- Writes the draft and loads what the service made of it. Once it is created, the policy stays
known even if it cannot be loaded. -/
def persist (draft : Policy) : Attempt Unit :=
  whileLoading <| .look fun o =>
    match o.saved with
    | none =>
      .request (.createPolicy draft) fun
        | .error e => .finish (.error (.service e))
        | .ok id => .change (adopt id draft) (refresh id)
    | some id =>
      .request (.updatePolicy id draft) fun
        | .error e => .finish (.error (.service e))
        | .ok _ => refresh id

def carryOut (m : Mutation) (draft : Policy) : Attempt Unit :=
  (persist draft).bind fun result =>
    match m, result with
    | .setTrigger _, .ok _ => .change (setEditing false) (.finish (.ok ()))
    | m, result => .finish (if m.submitsRule then result.mapError .ofSubmission else result)

/-- Refused at once while another mutation is under way. -/
def mutate (m : Mutation) : Attempt Unit :=
  .look fun o =>
    if o.mutationPending then .finish (.error .inProgress)
    else
      .change (setPending true) <| .releasing (setPending false) <|
        match m.plan o.policy o.catalog with
        | .error e => .finish (.error e)
        | .ok none => .finish (.ok ())
        | .ok (some edit) => carryOut m (edit.apply o.policy)

end Orchestrator

end TagRetention.Client
