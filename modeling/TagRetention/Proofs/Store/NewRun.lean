import TagRetention.Proofs.Store.Invariant

/-!
A run that has just been recorded. It has no tasks yet, so until it gets some it counts as done;
it stays recorded while its tasks are created or stopped.
-/

namespace TagRetention.Store

variable {s : Store} {policy : PolicyId} {trigger : RunTrigger} {dryRun : Bool} {start : Instant}

def newRun (s : Store) (policy : PolicyId) (trigger : RunTrigger) (dryRun : Bool)
    (start : Instant) : Execution :=
  ⟨s.nextExecution, policy, .succeeded, trigger, dryRun, some start, some start⟩

theorem Sound.tasksOf_next (h : s.Sound) : s.tasksOf s.nextExecution = [] := by
  rw [List.eq_nil_iff_forall_not_mem]
  intro t ht
  obtain ⟨k, hk, he⟩ := h.mem_tasksOf_iff.1 ht
  have hstored := h.execution_of_task k t hk
  rw [he, h.executions.get?_next] at hstored
  cases hstored

theorem Sound.fill_newRecord (h : s.Sound) :
    (s.withRun policy trigger dryRun start).fill (s.newRecord policy trigger dryRun start) =
      s.newRun policy trigger dryRun start := by
  have htasks : (s.withRun policy trigger dryRun start).tasksOf s.nextExecution = [] :=
    h.tasksOf_next
  rw [fill, newRecord, htasks]
  rfl

theorem Sound.createExecution_eq (h : s.Sound) {p : Policy} (hp : s.policy? policy = some p) :
    s.createExecution policy trigger dryRun start =
      (.ok (s.newRun policy trigger dryRun start), s.withRun policy trigger dryRun start) := by
  rw [policy?] at hp
  rw [← h.fill_newRecord]
  simp only [Store.createExecution, hp]
  rfl

theorem get?_withRun :
    (s.withRun policy trigger dryRun start).executions.get? s.nextExecution =
      some (s.newRecord policy trigger dryRun start) := by
  rw [withRun, Table.get?_insert, if_pos rfl]

theorem Sound.execution?_next (h : s.Sound) : s.execution? s.nextExecution = none := by
  rw [execution?, h.executions.get?_next, Option.map_none]

theorem Sound.execution?_withRun (h : s.Sound) :
    (s.withRun policy trigger dryRun start).execution? s.nextExecution =
      some (s.newRun policy trigger dryRun start) := by
  rw [execution?, get?_withRun, Option.map_some, h.fill_newRecord]

theorem executions_stopExecution (s : Store) (id : ExecutionId) (now : Instant) :
    (s.stopExecution id now).2.executions = s.executions := by
  rw [stopExecution]
  split <;> rfl

end TagRetention.Store
