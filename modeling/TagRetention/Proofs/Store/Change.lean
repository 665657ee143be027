import TagRetention.Store.Operation

/-!
What the operations of a store do. An operation fails, looks something up, or makes one of seven
changes; only the last has an effect.
-/

namespace TagRetention.Store

inductive Numbering where
  | policies
  | executions
  | tasks
  deriving DecidableEq, Repr

/-- The numbering that gives the id of what the operation creates. -/
def Operation.creates : Operation → Option Numbering
  | .save _ => some .policies
  | .createExecution .. => some .executions
  | .createTask .. => some .tasks
  | _ => none

variable {now : Instant} {s s' : Store} {op : Operation} {r : Reply}

def newRecord (s : Store) (policy : PolicyId) (trigger : RunTrigger) (dryRun : Bool)
    (start : Instant) : ExecutionRecord :=
  ⟨s.nextExecution, policy, trigger, dryRun, start⟩

def withRun (s : Store) (policy : PolicyId) (trigger : RunTrigger) (dryRun : Bool)
    (start : Instant) : Store :=
  { s with
    executions := s.executions.insert s.nextExecution (s.newRecord policy trigger dryRun start)
    nextExecution := s.nextExecution + 1 }

def newTask (s : Store) (execution : ExecutionId) (repository jobId : String) (now : Instant) :
    Task :=
  ⟨s.nextTask, execution, repository, jobId, .pending, 0, some now, none, 0, 0⟩

/-- The changes, each with its guard and what it is answered with. -/
inductive Change (now : Instant) (s : Store) : Operation → Reply → Store → Prop where
  | save (p : Policy) (free : s.policyOf? p.scope.reference = none) :
    Change now s (.save p) (.policy (some (p.withId s.nextPolicy)))
      { s with
        policies := s.policies.insert s.nextPolicy (p.withId s.nextPolicy)
        nextPolicy := s.nextPolicy + 1 }
  | update {p old : Policy} {id : PolicyId} (hid : p.id = some id)
    (hold : s.policies.get? id = some old) :
    Change now s (.update p) (.policy (some { p with scope := old.scope }))
      { s with policies := s.policies.insert id { p with scope := old.scope } }
  | delete {id : PolicyId} {old : Policy} (hold : s.policies.get? id = some old) :
    Change now s (.delete id) .done
      { s with
        policies := s.policies.erase id
        executions := s.executions.retain (·.policyId != id)
        tasks := s.tasks.retain fun t => !((s.recordsOf id).map (·.id)).contains t.executionId }
  | createExecution {policy : PolicyId} {p : Policy} (trigger : RunTrigger) (dryRun : Bool)
    (start : Instant) (hp : s.policies.get? policy = some p) :
    Change now s (.createExecution policy trigger dryRun start)
      (.execution (some ((s.withRun policy trigger dryRun start).fill
        (s.newRecord policy trigger dryRun start))))
      (s.withRun policy trigger dryRun start)
  | createTask {execution : ExecutionId} {r : ExecutionRecord} (repository jobId : String)
    (hr : s.executions.get? execution = some r) :
    Change now s (.createTask execution repository jobId)
      (.task (some (s.newTask execution repository jobId now)))
      { s with
        tasks := s.tasks.insert s.nextTask (s.newTask execution repository jobId now)
        nextTask := s.nextTask + 1 }
  | updateTask {report : StatusReport} {old : Task}
    (hold : s.tasks.get? report.taskId = some old) (fresh : old.accepts report = true) :
    Change now s (.updateTask report) (.applied true)
      { s with tasks := s.tasks.insert report.taskId (old.apply report now) }
  | stopExecution {id : ExecutionId} {r : ExecutionRecord} (hr : s.executions.get? id = some r) :
    Change now s (.stopExecution id) (.stopped (s.openTasks id).length)
      { s with tasks := s.tasks.mapValues (·.stopOf id now) }

theorem run_cases (now : Instant) (s : Store) (op : Operation) :
    (∃ f, op.run now s = (.error f, s)) ∨
      (∃ r, op.run now s = (.ok r, s) ∧ op.creates = none) ∨
      ∃ r s', op.run now s = (.ok r, s') ∧ Change now s op r s' := by
  cases op with
  | getPolicy | getByProject | getExecution | getTask => exact .inr (.inl ⟨_, rfl, rfl⟩)
  | listExecutions policy page =>
    simp only [Operation.run]
    cases s.listExecutions policy page with
    | error f => exact .inl ⟨f, rfl⟩
    | ok _ => exact .inr (.inl ⟨_, rfl, rfl⟩)
  | listTasks execution page =>
    simp only [Operation.run]
    cases s.listTasks execution page with
    | error f => exact .inl ⟨f, rfl⟩
    | ok _ => exact .inr (.inl ⟨_, rfl, rfl⟩)
  | save p =>
    simp only [Operation.run, reply, save]
    cases hfree : s.policyOf? p.scope.reference with
    | some q => exact .inl ⟨_, rfl⟩
    | none => exact .inr (.inr ⟨_, _, rfl, .save p hfree⟩)
  | update p =>
    simp only [Operation.run, reply, update]
    split
    · exact .inl ⟨_, rfl⟩
    · rename_i id hid
      split
      · exact .inl ⟨_, rfl⟩
      · rename_i old hold
        exact .inr (.inr ⟨_, _, rfl, .update hid hold⟩)
  | delete id =>
    simp only [Operation.run, reply, delete]
    cases hold : s.policies.get? id with
    | none => exact .inl ⟨_, rfl⟩
    | some old => exact .inr (.inr ⟨_, _, rfl, .delete hold⟩)
  | createExecution policy trigger dryRun start =>
    simp only [Operation.run, reply, createExecution]
    cases hp : s.policies.get? policy with
    | none => exact .inl ⟨_, rfl⟩
    | some p => exact .inr (.inr ⟨_, _, rfl, .createExecution trigger dryRun start hp⟩)
  | createTask execution repository jobId =>
    simp only [Operation.run, reply, createTask]
    cases hr : s.executions.get? execution with
    | none => exact .inl ⟨_, rfl⟩
    | some r => exact .inr (.inr ⟨_, _, rfl, .createTask repository jobId hr⟩)
  | updateTask report =>
    simp only [Operation.run, reply, updateTask]
    split
    · exact .inl ⟨_, rfl⟩
    · rename_i old hold
      split
      · rename_i fresh
        exact .inr (.inr ⟨_, _, rfl, .updateTask hold fresh⟩)
      · exact .inr (.inl ⟨_, rfl, rfl⟩)
  | stopExecution id =>
    simp only [Operation.run, reply, stopExecution]
    cases hr : s.executions.get? id with
    | none => exact .inl ⟨_, rfl⟩
    | some r => exact .inr (.inr ⟨_, _, rfl, .stopExecution hr⟩)

theorem run_of_error {f : StoreFault} (h : (op.run now s).1 = .error f) :
    (op.run now s).2 = s := by
  rcases run_cases now s op with ⟨_, hr⟩ | ⟨r, hr, -⟩ | ⟨r, s', hr, -⟩
  · rw [hr]
  · rw [hr]
  · rw [hr] at h
    cases h

theorem save_eq {p : Policy} (h : s.policyOf? p.scope.reference = none) :
    s.save p = (.ok (p.withId s.nextPolicy), (s.save p).2) := by
  rw [save, if_neg (by simp [h])]

theorem policy?_save {p : Policy} (h : s.policyOf? p.scope.reference = none) :
    (s.save p).2.policy? s.nextPolicy = some (p.withId s.nextPolicy) := by
  rw [save, if_neg (by simp [h]), policy?, Table.get?_insert, if_pos rfl]

end TagRetention.Store
