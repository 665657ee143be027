import TagRetention.Proofs.Store.Invariant

/-!
What an operation makes of one task. It is created, taken away with its execution, written by an
accepted report or by a stop, or stays as it is.
-/

namespace TagRetention.Store

variable {now : Instant} {s : Store} {op : Operation} {k : TaskId} {t : Task}

/-- The record under a task id before and after an operation. -/
inductive TaskStep (now : Instant) (s : Store) (k : TaskId) :
    Operation → Option Task → Option Task → Prop where
  | keep (op : Operation) (t : Option Task) : TaskStep now s k op t t
  | create (execution : ExecutionId) (repository jobId : String) (hk : k = s.nextTask) :
    TaskStep now s k (.createTask execution repository jobId) none
      (some (s.newTask execution repository jobId now))
  | remove {t : Task} {r : ExecutionRecord} (hr : s.executions.get? t.executionId = some r) :
    TaskStep now s k (.delete r.policyId) (some t) none
  | report {t : Task} {report : StatusReport} (hk : report.taskId = k)
    (fresh : t.accepts report = true) :
    TaskStep now s k (.updateTask report) (some t) (some (t.apply report now))
  | stop {t : Task} (hopen : t.status.isTerminal = false) :
    TaskStep now s k (.stopExecution t.executionId) (some t)
      (some { t with status := .stopped, endTime := some now })

theorem Sound.taskStep_delete (h : s.Sound) (policy : PolicyId) :
    TaskStep now s k (.delete policy) (s.tasks.get? k)
      ((s.tasks.retain fun t =>
        !((s.recordsOf policy).map (·.id)).contains t.executionId).get? k) := by
  rw [Table.get?_retain _ h.tasks.sorted]
  cases s.tasks.get? k with
  | none => exact .keep _ none
  | some t =>
    rw [Option.filter_some]
    split
    · exact .keep _ (some t)
    · rename_i hremoved
      have hmem : t.executionId ∈ (s.recordsOf policy).map (·.id) := by simpa using hremoved
      obtain ⟨r, hr, hid⟩ := List.mem_map.1 hmem
      obtain ⟨hstored, hpolicy⟩ := h.mem_recordsOf_iff.1 hr
      rw [hid] at hstored
      subst hpolicy
      exact .remove hstored

theorem Sound.taskStep_createTask (h : s.Sound) (execution : ExecutionId)
    (repository jobId : String) :
    TaskStep now s k (.createTask execution repository jobId) (s.tasks.get? k)
      ((s.tasks.insert s.nextTask (s.newTask execution repository jobId now)).get? k) := by
  rw [Table.get?_insert]
  split
  · rename_i hk
    rw [hk, h.tasks.get?_next]
    exact .create execution repository jobId rfl
  · exact .keep _ _

theorem taskStep_updateTask {report : StatusReport} {old : Task}
    (hold : s.tasks.get? report.taskId = some old) (fresh : old.accepts report = true) :
    TaskStep now s k (.updateTask report) (s.tasks.get? k)
      ((s.tasks.insert report.taskId (old.apply report now)).get? k) := by
  rw [Table.get?_insert]
  split
  · rename_i hk
    rw [hk, hold]
    exact .report rfl fresh
  · exact .keep _ _

theorem taskStep_stopExecution (execution : ExecutionId) :
    TaskStep now s k (.stopExecution execution) (s.tasks.get? k)
      ((s.tasks.mapValues (·.stopOf execution now)).get? k) := by
  rw [Table.get?_mapValues]
  cases s.tasks.get? k with
  | none => exact .keep _ none
  | some t =>
    rw [Option.map_some, Task.stopOf]
    split
    · rename_i hstop
      obtain ⟨rfl, hopen⟩ := hstop
      exact .stop hopen
    · exact .keep _ (some t)

theorem Sound.taskStep (h : s.Sound) (now : Instant) (op : Operation) (k : TaskId) :
    TaskStep now s k op (s.tasks.get? k) ((op.run now s).2.tasks.get? k) := by
  rcases run_cases now s op with ⟨f, hr⟩ | ⟨r, hr, -⟩ | ⟨r, s', hr, hc⟩
  · rw [hr]
    exact .keep _ _
  · rw [hr]
    exact .keep _ _
  · rw [hr]
    cases hc with
    | save | update | createExecution => exact .keep _ _
    | @delete policy => exact h.taskStep_delete policy
    | @createTask execution _ repository jobId =>
      exact h.taskStep_createTask execution repository jobId
    | updateTask hold fresh => exact taskStep_updateTask hold fresh
    | @stopExecution execution => exact taskStep_stopExecution execution

/-- A report to a task that accepts it is applied. -/
theorem run_updateTask_of_accepts {report : StatusReport}
    (ht : s.tasks.get? report.taskId = some t) (fresh : t.accepts report = true) :
    ((Operation.updateTask report).run now s).1 = .ok (.applied true) := by
  simp only [Operation.run, reply, updateTask, ht, fresh, if_true]
  rfl

end TagRetention.Store
