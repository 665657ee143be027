import TagRetention.Run

/-!
The state of an execution, worked out from its tasks. An execution without tasks finished when it
started; one with a task under way, or with only some tasks begun, is running. When all tasks are
done a stop outranks a failure, and a failure success.
-/

namespace TagRetention

structure Outcome where
  status : RunStatus
  endTime : Option Instant
  deriving DecidableEq, Repr

namespace Outcome

def countStatus (s : RunStatus) (tasks : List Task) : Nat :=
  tasks.countP (·.status == s)

def finalStatus (tasks : List Task) : RunStatus :=
  if 0 < countStatus .stopped tasks then .stopped
  else if 0 < countStatus .failed tasks then .failed
  else .succeeded

def ofTasks (start : Instant) (tasks : List Task) : Outcome :=
  let pending := countStatus .pending tasks
  if tasks.isEmpty then ⟨.succeeded, some start⟩
  else if 0 < countStatus .running tasks ∨ (0 < pending ∧ pending < tasks.length) then
    ⟨.running, none⟩
  else if pending = tasks.length then ⟨.pending, none⟩
  else
    ⟨finalStatus tasks, some ((Instant.latest? (tasks.filterMap (·.endTime))).getD start)⟩

end Outcome

end TagRetention
