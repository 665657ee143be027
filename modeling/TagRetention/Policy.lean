import TagRetention.Rule
import TagRetention.Schedule

/-!
Retention policies: the project they belong to, their rules in order, and when they run. A policy
has an id once it is stored.
-/

namespace TagRetention

abbrev ProjectId := Int

abbrev PolicyId := Int

inductive ScopeLevel where
  | project
  deriving DecidableEq, Repr, Inhabited

structure Scope where
  level : ScopeLevel
  reference : ProjectId
  deriving DecidableEq, Repr, Inhabited

inductive TriggerKind where
  | schedule
  deriving DecidableEq, Repr, Inhabited

/-- The empty cron is no schedule. -/
structure Trigger where
  kind : TriggerKind
  cron : String
  deriving DecidableEq, Repr, Inhabited

structure Policy where
  id : Option PolicyId
  scope : Scope
  rules : List Rule
  trigger : Trigger
  deriving Inhabited

def Trigger.unscheduled : Trigger := ⟨.schedule, ""⟩

namespace Policy

def forProject (project : ProjectId) : Policy :=
  ⟨none, ⟨.project, project⟩, [], .unscheduled⟩

def schedule (p : Policy) : Schedule :=
  .ofCron p.trigger.cron

def withId (p : Policy) (id : PolicyId) : Policy :=
  { p with id := some id }

def setCron (p : Policy) (cron : String) : Policy :=
  { p with trigger := { p.trigger with cron := cron } }

def setTrigger (p : Policy) (cron : String) : Policy :=
  { p with trigger := ⟨.schedule, cron⟩ }

def addRule (p : Policy) (r : Rule) : Policy :=
  { p with rules := p.rules ++ [r] }

def replaceRule (p : Policy) (index : Nat) (r : Rule) : Policy :=
  { p with rules := p.rules.set index r }

def setDisabled (p : Policy) (index : Nat) (disabled : Bool) : Policy :=
  { p with rules := p.rules.modify index ({ · with disabled := disabled }) }

/-- A policy that loses its last rule loses its schedule too. -/
def removeRule (p : Policy) (index : Nat) : Policy :=
  if index < p.rules.length then
    let rules := p.rules.eraseIdx index
    if rules.isEmpty then { p.setCron "" with rules := rules } else { p with rules := rules }
  else p

end Policy

end TagRetention
