import TagRetention.Policy
import TagRetention.Time.Instant

/-!
Executions of a policy and their tasks, one per repository, and the states they go through.
-/

namespace TagRetention

abbrev ExecutionId := Int

abbrev TaskId := Int

inductive RunStatus where
  | pending
  | running
  | succeeded
  | failed
  | stopped
  deriving DecidableEq, Repr, Inhabited

namespace RunStatus

def name : RunStatus → String
  | .pending => "Pending"
  | .running => "Running"
  | .succeeded => "Succeeded"
  | .failed => "Failed"
  | .stopped => "Stopped"

def isTerminal : RunStatus → Bool
  | .pending | .running => false
  | .succeeded | .failed | .stopped => true

def canBecome : RunStatus → RunStatus → Bool
  | .pending, .running => true
  | .pending, .stopped => true
  | .running, .succeeded => true
  | .running, .failed => true
  | .running, .stopped => true
  | _, _ => false

theorem canBecome_eq_false_of_isTerminal {a b : RunStatus} (h : a.isTerminal = true) :
    a.canBecome b = false := by
  cases a <;> simp_all [isTerminal, canBecome]

end RunStatus

inductive RunTrigger where
  | manual
  | schedule
  deriving DecidableEq, Repr, Inhabited

structure Execution where
  id : ExecutionId
  policyId : PolicyId
  status : RunStatus
  trigger : RunTrigger
  dryRun : Bool
  startTime : Option Instant
  endTime : Option Instant
  deriving DecidableEq, Repr

structure Task where
  id : TaskId
  executionId : ExecutionId
  repository : String
  jobId : String
  status : RunStatus
  revision : Int
  startTime : Option Instant
  endTime : Option Instant
  total : Int
  retained : Int
  deriving DecidableEq, Repr

end TagRetention
