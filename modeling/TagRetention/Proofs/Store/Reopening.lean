import TagRetention.Proofs.Store.RunLifecycle

/-!
How a finished execution can be under way again. One operation does this only if a report of a newer
revision reaches one of its tasks, or if it gets a task that it did not have.
-/

namespace TagRetention.Store

variable {now : Instant} {s s' : Store} {op : Operation} {e : ExecutionId} {status : RunStatus}

/-- A task of the execution has a newer revision in the second store. -/
def Renews (e : ExecutionId) (s s' : Store) : Prop :=
  ∃ t ∈ s.tasksOf e, ∃ u ∈ s'.task? t.id, t.revision < u.revision

/-- The execution has a task in the second store that the first one does not have. -/
def Gains (e : ExecutionId) (s s' : Store) : Prop :=
  ∃ t ∈ s'.tasksOf e, s.task? t.id = none

instance (e : ExecutionId) (s s' : Store) : Decidable (Renews e s s') :=
  inferInstanceAs (Decidable (∃ t ∈ s.tasksOf e, ∃ u ∈ s'.task? t.id, t.revision < u.revision))

/-- The operation deletes nothing, and gives tasks to this execution only. -/
def Operation.GrowsOnly (started : Option ExecutionId) : Operation → Prop
  | .delete _ => False
  | .createTask execution _ _ => started = some execution
  | .save _ | .getPolicy _ | .getByProject _ | .update _ | .createExecution .. | .getExecution _
  | .listExecutions _ _ | .getTask _ | .listTasks _ _ | .updateTask _ | .stopExecution _ => True

theorem record_of_status? (h : s.status? e = some status) :
    ∃ r, s.executions.get? e = some r := by
  rw [status?, execution?, Option.map_map, Option.map_eq_some_iff] at h
  obtain ⟨r, hr, -⟩ := h
  exact ⟨r, hr⟩

theorem Sound.status?_of_execution? (h : s.Sound) {x : Execution} (hx : s.execution? e = some x) :
    s.status? x.id = some x.status := by
  obtain ⟨r, hr, rfl⟩ := Option.map_eq_some_iff.mp hx
  have hid : some r.id = some e := h.executions.id_eq e r hr
  obtain rfl : r.id = e := Option.some.inj hid
  exact congrArg (Option.map (·.status)) hx

theorem Sound.status?_of_spares (h : s.Sound) (hs : s.status? e = some status)
    (hdone : status.isTerminal = true) (hop : op.Spares e s) :
    (op.run now s).2.status? e = some status := by
  obtain ⟨r, hr⟩ := record_of_status? hs
  rw [h.status?_eq hr] at hs
  -- What spares the run can only move its status on, and a terminal status is at the end.
  have hmoves : (Outcome.ofTasks r.startTime (s.tasksOf e)).status.Moves
      (Outcome.ofTasks r.startTime ((op.run now s).2.tasksOf e)).status := (h.follows hop).moves
  rw [Option.some.inj hs] at hmoves
  rw [(h.run now op).status?_eq (h.record_of_spares hr hop), hmoves.eq_of_isTerminal hdone]

theorem Sound.renews_updateTask (h : s.Sound) {report : StatusReport}
    (hop : ¬ (Operation.updateTask report).Spares e s) :
    Renews e s ((Operation.updateTask report).run now s).2 := by
  have hnewer : ∃ t, s.tasks.get? report.taskId = some t ∧ t.executionId = e ∧
      t.revision < report.revision := by
    simpa [Operation.Spares] using hop
  obtain ⟨t, ht, he, hlt⟩ := hnewer
  have hid : some t.id = some report.taskId := h.tasks.id_eq _ t ht
  have fresh : t.accepts report = true := Task.accepts_iff.2 (.inl hlt)
  refine ⟨t, h.mem_tasksOf_iff.2 ⟨_, ht, he⟩, t.apply report now, ?_, hlt⟩
  simp only [Option.mem_def, Operation.run, reply, Store.updateTask, ht, fresh, if_true, task?,
    Table.get?_insert, Option.some.inj hid]

theorem Sound.gains_createTask (h : s.Sound) {r : ExecutionRecord}
    (hr : s.executions.get? e = some r) (repository jobId : String) :
    Gains e s ((Operation.createTask e repository jobId).run now s).2 := by
  refine ⟨s.newTask e repository jobId now, ?_, h.tasks.get?_next⟩
  rw [(h.run now _).mem_tasksOf_iff]
  refine ⟨s.nextTask, ?_, rfl⟩
  simp only [Operation.run, reply, Store.createTask, hr, Table.get?_insert, if_true]
  rfl

/-- What is finished stays, unless it is renewed or it is the run that the operation adds to. -/
theorem Sound.status?_of_growsOnly (h : s.Sound) {started : Option ExecutionId}
    (hop : op.GrowsOnly started) (hs : s.status? e = some status)
    (hdone : status.isTerminal = true) :
    (op.run now s).2.status? e = some status ∨ Renews e s (op.run now s).2 ∨
      (started = some e ∧ Gains e s (op.run now s).2) := by
  by_cases hspares : op.Spares e s
  · exact .inl (h.status?_of_spares hs hdone hspares)
  right
  cases op with
  | updateTask report => exact .inl (h.renews_updateTask hspares)
  | createTask execution repository jobId =>
    obtain rfl : execution = e := Decidable.not_not.mp hspares
    obtain ⟨r, hr⟩ := record_of_status? hs
    exact .inr ⟨hop, h.gains_createTask hr repository jobId⟩
  | delete policy => cases hop
  | save | getPolicy | getByProject | update | createExecution | getExecution | listExecutions
  | getTask | listTasks | stopExecution => exact absurd trivial hspares

end TagRetention.Store
