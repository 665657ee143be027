import Mathlib.Data.List.Nodup
import TagRetention.Proofs.Api.Effects
import TagRetention.Proofs.Api.FanOut
import TagRetention.Proofs.Client.Messages
import TagRetention.Proofs.Launcher.Logs
import TagRetention.Proofs.Store.TaskStep

/-!
The logs that the service shows for its tasks. Tasks are kept in the store and logs in the journal;
each task has a job of its own there, which was started before the task was created.
-/

namespace TagRetention

namespace Store

variable {s : Store} {op : Operation}

/-- The operation neither creates a task nor takes one away. -/
def Operation.KeepsTasks : Operation → Prop
  | .createTask .. | .delete _ => False
  | .save _ | .getPolicy _ | .getByProject _ | .update _ | .createExecution .. | .getExecution _
  | .listExecutions _ _ | .getTask _ | .listTasks _ _ | .updateTask _ | .stopExecution _ => True

theorem Sound.job_run (h : s.Sound) (now : Instant) (hop : op.KeepsTasks) (k : TaskId) :
    ((op.run now s).2.task? k).map (fun t => (t.executionId, t.jobId)) =
      (s.task? k).map fun t => (t.executionId, t.jobId) := by
  have hstep := h.taskStep now op k
  rw [task?, task?]
  generalize s.tasks.get? k = before, (op.run now s).2.tasks.get? k = after at hstep
  cases hstep with
  | create | remove => cases hop
  | keep | report | stop => rfl

theorem Sound.execution_run (h : s.Sound) (now : Instant) (hop : op.KeepsTasks) {e : ExecutionId}
    {r : ExecutionRecord} (hr : s.executions.get? e = some r) :
    (op.run now s).2.executions.get? e = some r := by
  rcases run_cases now s op with ⟨f, hrun⟩ | ⟨_, hrun, -⟩ | ⟨_, s', hrun, hc⟩
  · rwa [hrun]
  · rwa [hrun]
  · rw [hrun]
    cases hc with
    | delete | createTask => cases hop
    | save | update | updateTask | stopExecution => exact hr
    | createExecution =>
      have hlt : e < s.nextExecution := h.executions.lt_next e r hr
      rwa [withRun, Table.get?_insert, if_neg (Int.ne_of_lt hlt)]

theorem task?_withTask (s : Store) (execution : ExecutionId) (now : Instant) (job : Job)
    (k : TaskId) :
    (s.withTask execution now job).task? k =
      if k = s.nextTask then some (s.newTask execution job.repository job.id now)
      else s.task? k := by
  rw [task?, withTask, Table.get?_insert]
  rfl

end Store

namespace Api

open Handler

/-- Each task has a job that was started, and no other task has it. -/
structure State.Logged (s : State Journal) : Prop where
  sound : s.store.Sound
  complete : s.jobs.Complete
  started : ∀ k t, s.store.task? k = some t → ∃ n < s.jobs.issued, t.jobId = Journal.jobId n
  own : ∀ k l t u, s.store.task? k = some t → s.store.task? l = some u → t.jobId = u.jobId → k = l

/-- In the later state each task is where it was and has its job, and no log was cut. -/
structure State.Precedes (s s' : State Journal) : Prop where
  task : ∀ k t, s.store.task? k = some t →
    ∃ u, s'.store.task? k = some u ∧ u.executionId = t.executionId ∧ u.jobId = t.jobId
  execution : ∀ e r, s.store.executions.get? e = some r → s'.store.executions.get? e = some r
  logs : s.jobs.Extends s'.jobs

/-- The job was started and no task has it. -/
structure State.Awaits (s : State Journal) (job : Job) : Prop where
  started : ∃ n < s.jobs.issued, job.id = Journal.jobId n
  unused : ∀ k t, s.store.task? k = some t → t.jobId ≠ job.id

variable {α : Type} {c : Setting Journal} {s₀ s s' s'' : State Journal} {op : Store.Operation}
  {now : Instant} {job : Job} {jobs : List Job} {e : ExecutionId} {r : ExecutionRecord}

namespace State

theorem Precedes.refl (s : State Journal) : s.Precedes s :=
  ⟨fun _ t ht => ⟨t, ht, rfl, rfl⟩, fun _ _ hr => hr, .refl s.jobs⟩

theorem Precedes.trans (h : s.Precedes s') (h' : s'.Precedes s'') : s.Precedes s'' := by
  refine ⟨fun k t ht => ?_, fun e r hr => h'.execution e r (h.execution e r hr),
    h.logs.trans h'.logs⟩
  obtain ⟨u, hu, he, hj⟩ := h.task k t ht
  obtain ⟨v, hv, he', hj'⟩ := h'.task k u hu
  exact ⟨v, hv, he'.trans he, hj'.trans hj⟩

/-- What is known along a run that began in the first state. -/
def Since (s₀ s : State Journal) : Prop :=
  s.Logged ∧ s₀.Precedes s

theorem Since.run (h : s₀.Since s) (now : Instant) (hop : op.KeepsTasks) :
    s₀.Since { s with store := (op.run now s.store).2 } := by
  obtain ⟨hs, hp⟩ := h
  have hjob := hs.sound.job_run now hop
  -- a task of either store has its execution and its job in the other one too
  have hback : ∀ k u, (op.run now s.store).2.task? k = some u →
      ∃ t, s.store.task? k = some t ∧ t.jobId = u.jobId := by
    intro k u hu
    obtain ⟨t, ht, heq⟩ := Option.map_eq_some_iff.mp ((hjob k).symm.trans (by rw [hu]; rfl))
    exact ⟨t, ht, congrArg Prod.snd heq⟩
  refine ⟨⟨hs.sound.run now op, hs.complete, ?_, ?_⟩, hp.trans ⟨?_, ?_, .refl s.jobs⟩⟩
  · intro k u hu
    obtain ⟨t, ht, hid⟩ := hback k u hu
    exact hid ▸ hs.started k t ht
  · intro k l u v hu hv huv
    obtain ⟨t, ht, hid⟩ := hback k u hu
    obtain ⟨w, hw, hid'⟩ := hback l v hv
    exact hs.own k l t w ht hw (hid.trans (huv.trans hid'.symm))
  · intro k t ht
    obtain ⟨u, hu, heq⟩ := Option.map_eq_some_iff.mp ((hjob k).trans (by rw [ht]; rfl))
    exact ⟨u, hu, congrArg Prod.fst heq, congrArg Prod.snd heq⟩
  · intro e r hr
    exact hs.sound.execution_run now hop hr

theorem Since.withTask (h : s₀.Since s) (hr : s.store.executions.get? e = some r) (now : Instant)
    (hjob : s.Awaits job) : s₀.Since { s with store := s.store.withTask e now job } := by
  obtain ⟨hs, hp⟩ := h
  have hnext : s.store.task? s.store.nextTask = none := hs.sound.tasks.get?_next
  refine ⟨⟨Store.sound_withTask hs.sound hr now job, hs.complete, ?_, ?_⟩,
    hp.trans ⟨?_, fun _ _ hr => hr, .refl s.jobs⟩⟩
  · intro k t ht
    rw [Store.task?_withTask] at ht
    split at ht
    · cases ht
      exact hjob.started
    · exact hs.started k t ht
  · intro k l t u ht hu htu
    rw [Store.task?_withTask] at ht hu
    split at ht <;> split at hu
    · rename_i hk hl
      rw [hk, hl]
    · cases ht
      exact absurd htu.symm (hjob.unused l u hu)
    · cases hu
      exact absurd htu (hjob.unused k t ht)
    · exact hs.own k l t u ht hu htu
  · intro k t ht
    refine ⟨t, ?_, rfl, rfl⟩
    have hne : k ≠ s.store.nextTask := by
      rintro rfl
      rw [hnext] at ht
      cases ht
    rw [Store.task?_withTask, if_neg hne, ht]

theorem Awaits.withTask {other : Job} (h : s.Awaits other) (hne : job.id ≠ other.id)
    (e : ExecutionId) (now : Instant) :
    Awaits { s with store := s.store.withTask e now job } other := by
  refine ⟨h.started, fun k t ht => ?_⟩
  rw [Store.task?_withTask] at ht
  split at ht
  · cases ht
    exact hne
  · exact h.unused k t ht

end State

theorem Preserves.ok {P : State Journal → Prop} {h : Answer Journal α} (hh : h.Preserves P)
    (f : α → Response) : (ok h f).Preserves P :=
  hh.orElse fun _ => preserves_answer _

theorem Preserves.guarded {P : State Journal → Prop} {h : Answer Journal α} (hh : h.Preserves P)
    (check : Except Fault Unit) : (guarded check h).Preserves P := by
  cases check with
  | error f => exact preserves_answer _
  | ok _ => exact hh

/-- A request for the log of the task, under the policy and the execution that the task is of. -/
structure Request.LogOf (q : Request) (s : Store) (k : TaskId) (t : Task) : Prop where
  get : q.method = "GET"
  task : s.task? k = some t
  path : ∃ policy execution task r,
    q.segments = ["", "api", "retentions", policy, "executions", execution, "tasks", task] ∧
      s.executions.get? t.executionId = some r ∧ pathId policy = .ok r.policyId ∧
      pathId execution = .ok t.executionId ∧ pathId task = .ok k

variable {q : Request} {k : TaskId} {t u : Task}

theorem Request.LogOf.callOf (h : q.LogOf s.store k t) :
    ∃ r, s.store.executions.get? t.executionId = some r ∧
      callOf q = .ok (.taskLog r.policyId t.executionId k) := by
  obtain ⟨policy, execution, task, r, hpath, hr, hp, he, hk⟩ := h.path
  have hresource : resourceOf q.segments = some (.task policy execution task) := by
    rw [hpath]
    refine resourceOf_of_under hp ?_ (.task execution task)
    simpa using (ne_of_pathId hk).1
  refine ⟨r, hr, ?_⟩
  rw [callOf_get_task hresource (verb_of_get h.get), hp, he, hk]
  rfl

theorem Request.LogOf.later (h : q.LogOf s.store k t) (hs : s.Precedes s') :
    ∃ u, q.LogOf s'.store k u ∧ u.jobId = t.jobId := by
  obtain ⟨u, hu, he, hj⟩ := hs.task k t h.task
  obtain ⟨policy, execution, task, r, hpath, hr, hids⟩ := h.path
  rw [← he] at hr hids
  exact ⟨u, ⟨h.get, hu, policy, execution, task, r, hpath, hs.execution _ r hr, hids⟩, hj⟩

end Api

end TagRetention
