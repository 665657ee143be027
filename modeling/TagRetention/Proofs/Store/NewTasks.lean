import TagRetention.Launcher
import TagRetention.Proofs.Run.Outcome
import TagRetention.Proofs.Store.Footprint
import TagRetention.Proofs.Store.NewRun

/-!
Tasks created in a row for one execution. They follow each other in the numbering and in the list
of its tasks, and a run that has nothing but new tasks is pending.
-/

namespace TagRetention

namespace Outcome

theorem ofTasks_of_pending {start : Instant} {tasks : List Task}
    (h : ∀ t ∈ tasks, t.status = .pending) :
    ofTasks start tasks = if tasks = [] then ⟨.succeeded, some start⟩ else ⟨.pending, none⟩ := by
  cases tasks with
  | nil => rfl
  | cons t tasks =>
    have hall : countStatus .pending (t :: tasks) = (t :: tasks).length :=
      countStatus_eq_length_iff.mpr h
    have hnone : ¬ 0 < countStatus .running (t :: tasks) := by
      rw [countStatus_pos_iff]
      rintro ⟨u, hu, hrun⟩
      rw [h u hu] at hrun
      cases hrun
    simp [ofTasks, hall, hnone]

end Outcome

namespace Store

variable {s : Store} {execution : ExecutionId} {r : ExecutionRecord} {now : Instant} {job : Job}
  {jobs : List Job}

def withTask (s : Store) (execution : ExecutionId) (now : Instant) (job : Job) : Store :=
  { s with
    tasks := s.tasks.insert s.nextTask (s.newTask execution job.repository job.id now)
    nextTask := s.nextTask + 1 }

def withTasks (s : Store) (execution : ExecutionId) (now : Instant) (jobs : List Job) : Store :=
  jobs.foldl (fun s job => s.withTask execution now job) s

def newTasks (s : Store) (execution : ExecutionId) (now : Instant) : List Job → List Task
  | [] => []
  | job :: jobs =>
    s.newTask execution job.repository job.id now ::
      (s.withTask execution now job).newTasks execution now jobs

theorem createTask_eq (hr : s.executions.get? execution = some r) (now : Instant) (job : Job) :
    s.createTask execution job.repository job.id now =
      (.ok (s.newTask execution job.repository job.id now), s.withTask execution now job) := by
  simp only [createTask, hr]
  rfl

theorem sound_withTask (h : s.Sound) (hr : s.executions.get? execution = some r) (now : Instant)
    (job : Job) : (s.withTask execution now job).Sound := by
  have hrun := h.run now (.createTask execution job.repository job.id)
  rwa [Operation.run, reply, createTask_eq hr] at hrun

theorem map_repository_newTasks (s : Store) (execution : ExecutionId) (now : Instant)
    (jobs : List Job) :
    (s.newTasks execution now jobs).map (·.repository) = jobs.map (·.repository) := by
  induction jobs generalizing s with
  | nil => rfl
  | cons job jobs ih =>
    rw [newTasks, List.map_cons, List.map_cons, ih]
    rfl

theorem map_id_newTasks (s : Store) (execution : ExecutionId) (now : Instant) (jobs : List Job) :
    (s.newTasks execution now jobs).map (·.id) =
      (List.range jobs.length).map fun (n : Nat) => s.nextTask + n := by
  induction jobs generalizing s with
  | nil => rfl
  | cons job jobs ih =>
    have hnext : (s.withTask execution now job).nextTask = s.nextTask + 1 := rfl
    rw [newTasks, List.map_cons, ih, hnext, List.length_cons, List.range_succ_eq_map, List.map_cons,
      List.map_map]
    congr 1
    · exact (Int.add_zero _).symm
    · apply List.map_congr_left
      intro n _
      rw [Function.comp_apply, Int.natCast_succ, Int.add_comm n 1, Int.add_assoc]

theorem mem_newTasks {t : Task} (ht : t ∈ s.newTasks execution now jobs) :
    t.status = .pending ∧ t.revision = 0 ∧ t.endTime = none := by
  induction jobs generalizing s with
  | nil => cases ht
  | cons job jobs ih =>
    rcases List.mem_cons.mp ht with rfl | ht
    · exact ⟨rfl, rfl, rfl⟩
    · exact ih ht

theorem Sound.tasksOf_withTask (h : s.Sound) (execution : ExecutionId) (now : Instant) (job : Job) :
    (s.withTask execution now job).tasksOf execution =
      s.tasksOf execution ++ [s.newTask execution job.repository job.id now] := by
  have hnew : (s.newTask execution job.repository job.id now).executionId = execution := rfl
  rw [tasksOf, withTask, h.tasks.insert_next, Table.values, List.map_append,
    List.filter_append, tasksOf, Table.values]
  simp [hnew]

theorem Sound.adds_withTasks (h : s.Sound) (hr : s.executions.get? execution = some r)
    (now : Instant) (jobs : List Job) :
    (s.withTasks execution now jobs).tasksOf execution =
        s.tasksOf execution ++ s.newTasks execution now jobs ∧
      Apart (· = execution) s (s.withTasks execution now jobs) := by
  -- over the jobs, for any store with the execution: one task leads to such a store again
  induction jobs generalizing s with
  | nil => exact ⟨(List.append_nil _).symm, .refl _ s⟩
  | cons job jobs ih =>
    obtain ⟨htasks, hapart⟩ := ih (sound_withTask h hr now job) hr
    have hnew : (s.newTask execution job.repository job.id now).executionId = execution := rfl
    have hstep : Apart (· = execution) s (s.withTask execution now job) := h.apart_newTask hnew _
    refine ⟨?_, hstep.trans hapart⟩
    rw [withTasks, List.foldl_cons, ← withTasks, htasks, h.tasksOf_withTask,
      List.append_assoc]
    rfl

theorem policies_withTasks (s : Store) (execution : ExecutionId) (now : Instant)
    (jobs : List Job) : (s.withTasks execution now jobs).policies = s.policies := by
  induction jobs generalizing s with
  | nil => rfl
  | cons job jobs ih => exact ih _

theorem executions_withTasks (s : Store) (execution : ExecutionId) (now : Instant)
    (jobs : List Job) : (s.withTasks execution now jobs).executions = s.executions := by
  induction jobs generalizing s with
  | nil => rfl
  | cons job jobs ih => exact ih _

variable {policy : PolicyId} {p : Policy} {dryRun : Bool}

theorem sound_withRun (h : s.Sound) (hp : s.policy? policy = some p) (trigger : RunTrigger)
    (dryRun : Bool) (start : Instant) : (s.withRun policy trigger dryRun start).Sound := by
  have hrun := h.run start (.createExecution policy trigger dryRun start)
  rwa [Operation.run, reply, h.createExecution_eq hp] at hrun

def launched (s : Store) (policy : PolicyId) (dryRun : Bool) (now : Instant) (jobs : List Job) :
    Store :=
  (s.withRun policy .manual dryRun now).withTasks s.nextExecution now jobs

/-- The run as it stands once its tasks are created. -/
def launchedRun (s : Store) (policy : PolicyId) (dryRun : Bool) (now : Instant)
    (targets : List String) : Execution :=
  { s.newRun policy .manual dryRun now with
    status := if targets = [] then .succeeded else .pending
    endTime := if targets = [] then some now else none }

/-- The second store has one more execution, with a new task for each of the targets, in order. -/
structure FansOut (targets : List String) (run : Execution) (s s' : Store) : Prop where
  policies : s'.policies = s.policies
  fresh : s.execution? run.id = none
  stored : s'.execution? run.id = some run
  execution : ∀ e, e ≠ run.id → s'.execution? e = s.execution? e
  kept : ∀ k t, s.task? k = some t → s'.task? k = some t
  added : ∀ k t, s'.task? k = some t → s.task? k = some t ∨ t.executionId = run.id
  repositories : (s'.tasksOf run.id).map (·.repository) = targets
  ids : (s'.tasksOf run.id).map (·.id) =
    (List.range targets.length).map fun (n : Nat) => s.nextTask + n
  pending : ∀ t ∈ s'.tasksOf run.id, t.status = .pending ∧ t.revision = 0 ∧ t.endTime = none

theorem Sound.tasksOf_launched (h : s.Sound) (hp : s.policy? policy = some p) (dryRun : Bool)
    (now : Instant) (jobs : List Job) :
    (s.launched policy dryRun now jobs).tasksOf s.nextExecution =
      (s.withRun policy .manual dryRun now).newTasks s.nextExecution now jobs := by
  have hnone : (s.withRun policy .manual dryRun now).tasksOf s.nextExecution = [] := h.tasksOf_next
  have hwith := (sound_withRun h hp .manual dryRun now).adds_withTasks get?_withRun now jobs
  rw [launched, hwith.1, hnone, List.nil_append]

theorem Sound.apart_launched (h : s.Sound) (hp : s.policy? policy = some p) (dryRun : Bool)
    (now : Instant) (jobs : List Job) :
    Apart (· = s.nextExecution) s (s.launched policy dryRun now jobs) := by
  have hrun : Apart (· = s.nextExecution) s (s.withRun policy .manual dryRun now) :=
    h.apart_withRun policy .manual dryRun now rfl
  exact hrun.trans ((sound_withRun h hp .manual dryRun now).adds_withTasks get?_withRun now jobs).2

theorem Sound.execution?_launched (h : s.Sound) (hp : s.policy? policy = some p) (dryRun : Bool)
    (now : Instant) (jobs : List Job) :
    (s.launched policy dryRun now jobs).execution? s.nextExecution =
      some (s.launchedRun policy dryRun now (jobs.map (·.repository))) := by
  have hrecord : (s.launched policy dryRun now jobs).executions.get? s.nextExecution =
      some (s.newRecord policy .manual dryRun now) := by
    rw [launched, executions_withTasks, get?_withRun]
  have hnil : (s.withRun policy .manual dryRun now).newTasks s.nextExecution now jobs = [] ↔
      jobs.map (·.repository) = [] := by
    rw [← map_repository_newTasks, List.map_eq_nil_iff]
  rw [execution?, hrecord, Option.map_some, fill]
  simp only [newRecord, h.tasksOf_launched hp, launchedRun, newRun,
    Outcome.ofTasks_of_pending fun t ht => (mem_newTasks ht).1, hnil]
  split <;> rfl

theorem Sound.fansOut (h : s.Sound) (hp : s.policy? policy = some p) (dryRun : Bool)
    (now : Instant) (jobs : List Job) :
    FansOut (jobs.map (·.repository))
      (s.launchedRun policy dryRun now (jobs.map (·.repository))) s
      (s.launched policy dryRun now jobs) := by
  have hapart := h.apart_launched hp dryRun now jobs
  have hold : ∀ k t, s.task? k = some t → t.executionId ≠ s.nextExecution := by
    intro k t ht he
    have hstored := h.execution_of_task k t ht
    rw [he, h.executions.get?_next] at hstored
    cases hstored
  have htasks := h.tasksOf_launched hp dryRun now jobs
  refine ⟨?_, h.execution?_next, h.execution?_launched hp dryRun now jobs, hapart.execution,
    fun k t ht => ?_, fun k t ht => ?_, ?_, ?_, fun t ht => ?_⟩
  · rw [launched, policies_withTasks]
    rfl
  · exact (hapart.task k t (hold k t ht)).mpr ht
  · by_cases he : t.executionId = s.nextExecution
    · exact .inr he
    · exact .inl ((hapart.task k t he).mp ht)
  · exact htasks ▸ map_repository_newTasks _ _ _ jobs
  · rw [List.length_map]
    exact htasks ▸ map_id_newTasks _ _ _ jobs
  · exact mem_newTasks (htasks ▸ ht)

end Store

end TagRetention
