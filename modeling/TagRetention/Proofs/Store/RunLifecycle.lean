import Mathlib.Data.List.Chain
import TagRetention.Proofs.Run.Outcome
import TagRetention.Proofs.Store.TaskHistory

/-!
The status of an execution along a history that spares it: no tasks come or go, and its tasks get
no report of a newer revision. Then the status keeps to the lifecycle of a single task.
-/

namespace TagRetention.Store

/-- The operation gives the execution no task and takes none from it, and is no report of a newer
revision to one of its tasks. -/
def Operation.Spares (e : ExecutionId) (s : Store) : Operation → Prop
  | .createTask execution _ _ => execution ≠ e
  | .delete policy => ∀ r ∈ s.executions.get? e, r.policyId ≠ policy
  | .updateTask report =>
    ∀ t ∈ s.tasks.get? report.taskId, t.executionId = e → report.revision ≤ t.revision
  | _ => True

instance (e : ExecutionId) (s : Store) : DecidablePred (Operation.Spares e s)
  | .createTask execution _ _ => inferInstanceAs (Decidable (execution ≠ e))
  | .delete policy =>
    inferInstanceAs (Decidable (∀ r ∈ s.executions.get? e, r.policyId ≠ policy))
  | .updateTask report =>
    inferInstanceAs (Decidable (∀ t ∈ s.tasks.get? report.taskId,
      t.executionId = e → report.revision ≤ t.revision))
  | .save _ | .getPolicy _ | .getByProject _ | .update _ | .createExecution .. | .getExecution _
  | .listExecutions _ _ | .getTask _ | .listTasks _ _ | .stopExecution _ =>
    inferInstanceAs (Decidable True)

def Spared (e : ExecutionId) (s : Store) : List (Operation × Instant) → Prop
  | [] => True
  | (op, now) :: ops => op.Spares e s ∧ Spared e (op.run now s).2 ops

instance (e : ExecutionId) (s : Store) (ops : List (Operation × Instant)) :
    Decidable (Spared e s ops) :=
  match ops with
  | [] => inferInstanceAs (Decidable True)
  | (op, now) :: ops =>
    have := instDecidableSpared e (op.run now s).2 ops
    inferInstanceAs (Decidable (op.Spares e s ∧ Spared e (op.run now s).2 ops))

def status? (s : Store) (e : ExecutionId) : Option RunStatus :=
  (s.execution? e).map (·.status)

/-- The status of the execution before the history and after each of its operations. -/
def statuses (e : ExecutionId) (s : Store) : List (Operation × Instant) → List (Option RunStatus)
  | [] => [s.status? e]
  | (op, now) :: ops => s.status? e :: statuses e (op.run now s).2 ops

variable {now : Instant} {s : Store} {op : Operation} {k : TaskId} {t u : Task} {e : ExecutionId}
  {r : ExecutionRecord} {ops : List (Operation × Instant)}

theorem moves_apply_of_spares {report : StatusReport} (ht : s.tasks.get? report.taskId = some t)
    (fresh : t.accepts report = true) (hop : (Operation.updateTask report).Spares t.executionId s) :
    t.status.Moves (t.apply report now).status := by
  have hle : report.revision ≤ t.revision := hop t ht rfl
  rcases Task.accepts_iff.1 fresh with hlt | ⟨-, hgo⟩
  · omega
  · exact .inr hgo

theorem Sound.task_succ (h : s.Sound) (now : Instant) (ht : s.tasks.get? k = some t)
    (hop : op.Spares t.executionId s) :
    ∃ u, (op.run now s).2.tasks.get? k = some u ∧ u.executionId = t.executionId ∧
      t.status.Moves u.status := by
  have hstep := h.taskStep now op k
  rw [ht] at hstep
  generalize (op.run now s).2.tasks.get? k = next at hstep ⊢
  cases hstep with
  | keep => exact ⟨t, rfl, rfl, .refl _⟩
  | remove hr => exact absurd rfl (hop _ hr)
  | report hk fresh =>
    subst hk
    exact ⟨_, rfl, rfl, moves_apply_of_spares ht fresh hop⟩
  | stop hopen => exact ⟨_, rfl, rfl, .inr (Task.canBecome_stopped hopen)⟩

theorem Sound.task_pred (h : s.Sound) (hu : (op.run now s).2.tasks.get? k = some u)
    (hop : op.Spares u.executionId s) :
    ∃ t, s.tasks.get? k = some t ∧ t.executionId = u.executionId ∧ t.status.Moves u.status := by
  have hstep := h.taskStep now op k
  rw [hu] at hstep
  cases ht : s.tasks.get? k with
  | none =>
    rw [ht] at hstep
    cases hstep with
    | create => exact absurd rfl hop
  | some t =>
    rw [ht] at hstep
    have he : u.executionId = t.executionId := hstep.precedes.executionId
    obtain ⟨v, hv, -, hmove⟩ := h.task_succ now ht (he ▸ hop)
    rw [hu] at hv
    cases hv
    exact ⟨t, rfl, he.symm, hmove⟩

theorem Sound.follows (h : s.Sound) (hop : op.Spares e s) :
    Outcome.Follows (s.tasksOf e) ((op.run now s).2.tasksOf e) := by
  constructor
  · intro t ht
    obtain ⟨k, hk, rfl⟩ := h.mem_tasksOf_iff.1 ht
    obtain ⟨u, hu, he, hmove⟩ := h.task_succ now hk hop
    exact ⟨u, (h.run now op).mem_tasksOf_iff.2 ⟨k, hu, he⟩, hmove⟩
  · intro u hu
    obtain ⟨k, hk, rfl⟩ := (h.run now op).mem_tasksOf_iff.1 hu
    obtain ⟨t, ht, he, hmove⟩ := h.task_pred hk hop
    exact ⟨t, h.mem_tasksOf_iff.2 ⟨k, ht, he⟩, hmove⟩

theorem Sound.record_of_spares (h : s.Sound) (hr : s.executions.get? e = some r)
    (hop : op.Spares e s) : (op.run now s).2.executions.get? e = some r := by
  rcases run_cases now s op with ⟨f, hrun⟩ | ⟨_, hrun, -⟩ | ⟨_, s', hrun, hc⟩
  · rwa [hrun]
  · rwa [hrun]
  · rw [hrun]
    cases hc with
    | save | update | createTask | updateTask | stopExecution => exact hr
    | delete =>
      rw [Table.get?_retain _ h.executions.sorted, hr]
      simpa using hop r hr
    | createExecution =>
      have hlt := h.executions.lt_next e r hr
      rw [withRun, Table.get?_insert, if_neg (Int.ne_of_lt hlt)]
      exact hr

theorem Sound.status?_eq (h : s.Sound) (hr : s.executions.get? e = some r) :
    s.status? e = some (Outcome.ofTasks r.startTime (s.tasksOf e)).status := by
  have hid : some r.id = some e := h.executions.id_eq e r hr
  rw [status?, execution?, hr, Option.map_some, Option.map_some, fill, Option.some.inj hid]

theorem Sound.statuses_of_spared (h : s.Sound) (hr : s.executions.get? e = some r)
    (hops : Spared e s ops) :
    ∃ rest, statuses e s ops =
        ((Outcome.ofTasks r.startTime (s.tasksOf e)).status :: rest).map some ∧
      ((Outcome.ofTasks r.startTime (s.tasksOf e)).status :: rest).IsChain RunStatus.Moves := by
  induction ops generalizing s with
  | nil => exact ⟨[], by rw [statuses, h.status?_eq hr]; rfl, .singleton _⟩
  | cons p ops ih =>
    obtain ⟨op, now⟩ := p
    obtain ⟨hop, hops⟩ := hops
    obtain ⟨rest, heq, hchain⟩ := ih (h.run now op) (h.record_of_spares hr hop) hops
    refine ⟨_ :: rest, ?_, .cons_cons (h.follows hop).moves hchain⟩
    rw [statuses, heq, h.status?_eq hr, ← List.map_cons]

/-- Along a history that spares it, an execution stays known and its status goes the way of a
task: no step leaves the lifecycle, nothing goes back to pending, and what is finished stays. -/
theorem status_of_spared (h : Reachable s) (hr : (s.execution? e).isSome = true)
    (hops : Spared e s ops) :
    ∃ trail : List RunStatus, statuses e s ops = trail.map some ∧
      (trail.IsChain fun a b =>
        (b = a ∨ a.canBecome b = true) ∧ (a = .pending → b ≠ .succeeded ∧ b ≠ .failed)) ∧
      trail.Pairwise fun a b => (b = .pending → a = .pending) ∧ (a.isTerminal = true → b = a) := by
  obtain ⟨r, hr⟩ : ∃ r, s.executions.get? e = some r := by
    rwa [execution?, Option.isSome_map, Option.isSome_iff_exists] at hr
  obtain ⟨rest, heq, hchain⟩ := h.sound.statuses_of_spared hr hops
  have honward := List.isChain_iff_pairwise.1 (hchain.imp fun _ _ hmove => hmove.onward)
  refine ⟨_, heq, hchain.imp fun a b hmove => ⟨hmove, ?_⟩,
    honward.imp fun h => ⟨h.pending, h.finished⟩⟩
  rintro rfl
  exact RunStatus.Moves.of_pending hmove

def twoTasks : List (Operation × Instant) :=
  [.save (.forProject 1), .createExecution 1 .manual false default,
    .createTask 1 "library/a" "job-1", .createTask 1 "library/b" "job-2",
    .save (.forProject 2), .createExecution 2 .manual false default].map (·, default)

def partlyStopped : List (Operation × Instant) :=
  [.updateTask (statusReport 1 .running 0), .updateTask (statusReport 1 .failed 0),
    .createTask 2 "library/c" "job-3", .stopExecution 2, .stopExecution 1,
    .updateTask (statusReport 2 .running 0), .delete 2].map (·, default)

theorem status_of_partly_stopped :
    ((after .empty twoTasks).execution? 1).isSome = true ∧
      Spared 1 (after .empty twoTasks) partlyStopped ∧
      ∃ trail : List RunStatus, statuses 1 (after .empty twoTasks) partlyStopped = trail.map some ∧
        trail = [.pending, .running, .running, .running, .running, .stopped, .stopped, .stopped] ∧
        (trail.IsChain fun a b =>
          (b = a ∨ a.canBecome b = true) ∧ (a = .pending → b ≠ .succeeded ∧ b ≠ .failed)) ∧
        trail.Pairwise fun a b =>
          (b = .pending → a = .pending) ∧ (a.isTerminal = true → b = a) := by
  have hr : ((after .empty twoTasks).execution? 1).isSome = true := by decide
  have hops : Spared 1 (after .empty twoTasks) partlyStopped := by decide
  obtain ⟨trail, heq, hchain, honward⟩ :=
    status_of_spared (reachable_after .empty twoTasks) hr hops
  refine ⟨hr, hops, trail, heq, ?_, hchain, honward⟩
  apply List.map_injective_iff.2 fun _ _ => Option.some.inj
  rw [← heq]
  decide

end TagRetention.Store
