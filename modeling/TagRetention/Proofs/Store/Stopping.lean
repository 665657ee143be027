import TagRetention.Proofs.Run.Grouping
import TagRetention.Proofs.Store.Footprint
import TagRetention.Proofs.Store.TaskHistory

/-!
A stop of an execution. Its open tasks are stopped and nothing else is written; the execution is
stopped if it had an open task, and a second stop has nothing to do.
-/

namespace TagRetention

namespace Task

variable {t : Task} {e : ExecutionId}

theorem stopOf_of_open (he : t.executionId = e) (hopen : t.status.isTerminal = false)
    (now : Instant) : t.stopOf e now = { t with status := .stopped, endTime := some now } := by
  rw [stopOf, if_pos ⟨he, hopen⟩]

theorem stopOf_of_terminal (hdone : t.status.isTerminal = true) (e : ExecutionId) (now : Instant) :
    t.stopOf e now = t := by
  apply if_neg
  rintro ⟨-, hopen⟩
  rw [hdone] at hopen
  cases hopen

theorem isTerminal_stopOf (he : t.executionId = e) (now : Instant) :
    (t.stopOf e now).status.isTerminal = true := by
  by_cases hdone : t.status.isTerminal = true
  · rwa [stopOf_of_terminal hdone]
  · rw [stopOf_of_open he (Bool.eq_false_iff.mpr hdone)]
    rfl

end Task

namespace Store

variable {s : Store} {e : ExecutionId} {r : ExecutionRecord} {x : Execution}

def stopTasks (s : Store) (e : ExecutionId) (now : Instant) : Store :=
  { s with tasks := s.tasks.mapValues (·.stopOf e now) }

theorem stopExecution_eq (hr : s.executions.get? e = some r) (now : Instant) :
    s.stopExecution e now = (.ok (s.openTasks e).length, s.stopTasks e now) := by
  rw [stopExecution, hr]
  rfl

theorem task?_stopTasks (s : Store) (e : ExecutionId) (now : Instant) (k : TaskId) :
    (s.stopTasks e now).task? k = (s.task? k).map (·.stopOf e now) := by
  rw [task?, stopTasks, Table.get?_mapValues]
  rfl

theorem terminal_stopTasks (s : Store) (e : ExecutionId) (now : Instant) :
    ∀ t ∈ (s.stopTasks e now).tasksOf e, t.status.isTerminal = true := by
  rw [stopTasks, tasksOf_map_stopOf]
  intro u hu
  obtain ⟨t, ht, rfl⟩ := List.mem_map.mp hu
  exact Task.isTerminal_stopOf (executionId_of_mem_tasksOf ht) now

theorem openTasks_eq_nil_iff :
    s.openTasks e = [] ↔ ∀ t ∈ s.tasksOf e, t.status.isTerminal = true := by
  simp [openTasks]

theorem stopTasks_of_no_open (h : s.openTasks e = []) (now : Instant) : s.stopTasks e now = s := by
  rw [openTasks_eq_nil_iff] at h
  have hsame : ∀ d ∈ s.tasks, (d.1, d.2.stopOf e now) = id d := by
    intro d hd
    by_cases he : d.2.executionId = e
    · have hmem : d.2 ∈ s.tasksOf e :=
        List.mem_filter.mpr ⟨List.mem_map_of_mem hd, beq_iff_eq.mpr he⟩
      rw [Task.stopOf_of_terminal (h d.2 hmem)]
      rfl
    · rw [Task.stopOf_of_ne he]
      rfl
  have htasks : s.tasks.mapValues (·.stopOf e now) = s.tasks :=
    (List.map_congr_left hsame).trans (List.map_id _)
  rw [stopTasks, htasks]

/-- A stop outranks whatever the other tasks ended with. -/
theorem status_stopTasks (h : s.openTasks e ≠ []) (start now : Instant) :
    (Outcome.ofTasks start ((s.stopTasks e now).tasksOf e)).status = .stopped := by
  obtain ⟨t, ht⟩ := List.exists_mem_of_ne_nil _ h
  obtain ⟨hmem, hopen⟩ := List.mem_filter.mp ht
  have hstop := Task.stopOf_of_open (executionId_of_mem_tasksOf hmem) (by simpa using hopen) now
  apply Outcome.status_eq_iff.mpr
  apply Outcome.Sums.stopped (terminal_stopTasks s e now)
  · rw [stopTasks, tasksOf_map_stopOf]
    exact List.mem_map_of_mem hmem
  · rw [hstop]

theorem Sound.execution?_stopTasks (h : s.Sound) (hx : s.execution? e = some x)
    (hopen : s.openTasks e ≠ []) (now : Instant) :
    ∃ i, (s.stopTasks e now).execution? e =
      some { x with status := .stopped, endTime := some i } := by
  obtain ⟨r, hr, rfl⟩ := Option.map_eq_some_iff.mp hx
  have hid : some r.id = some e := h.executions.id_eq e r hr
  obtain rfl : r.id = e := Option.some.inj hid
  have hstatus := status_stopTasks hopen r.startTime now
  have hend := Outcome.isSome_endTime r.startTime ((s.stopTasks r.id now).tasksOf r.id)
  rw [hstatus] at hend
  obtain ⟨i, hi⟩ := Option.isSome_iff_exists.mp hend
  refine ⟨i, ?_⟩
  rw [execution?, stopTasks, hr, Option.map_some, ← stopTasks, fill]
  simp only [hstatus, hi, fill]

/-- The second store is the first one with the open tasks of the execution stopped. -/
structure Stopped (e : ExecutionId) (now : Instant) (s s' : Store) : Prop where
  policies : s'.policies = s.policies
  executions : s'.executions = s.executions
  nextId : ∀ n, s'.nextId n = s.nextId n
  unknown : ∀ k, s'.task? k = none ↔ s.task? k = none
  stopped : ∀ k t, s.task? k = some t → t.executionId = e → t.status.isTerminal = false →
    s'.task? k = some { t with status := .stopped, endTime := some now }
  kept : ∀ k t, s.task? k = some t → t.executionId ≠ e ∨ t.status.isTerminal = true →
    s'.task? k = some t

theorem stopped_stopTasks (s : Store) (e : ExecutionId) (now : Instant) :
    Stopped e now s (s.stopTasks e now) := by
  refine ⟨rfl, rfl, fun n => by cases n <;> rfl, fun k => ?_, fun k t ht he hopen => ?_,
    fun k t ht hother => ?_⟩
  · rw [task?_stopTasks, Option.map_eq_none_iff]
  · rw [task?_stopTasks, ht, Option.map_some, Task.stopOf_of_open he hopen]
  · rw [task?_stopTasks, ht, Option.map_some]
    rcases hother with hne | hdone
    · rw [Task.stopOf_of_ne hne]
    · rw [Task.stopOf_of_terminal hdone]

/-- A stop answers with the number of the open tasks and stops these, so the execution is stopped
if there is one. What it leaves has nothing more to stop. -/
theorem execution_stopped (h : Reachable s) (hx : s.execution? e = some x) (now : Instant) :
    ∃ n s', s.stopExecution e now = (.ok n, s') ∧
      n = (s.tasksOf e).countP (fun t => !t.status.isTerminal) ∧
      Stopped e now s s' ∧
      (∀ t ∈ s'.tasksOf e, t.status.isTerminal = true) ∧
      (n = 0 → s' = s) ∧
      (0 < n → ∃ i, s'.execution? e = some { x with status := .stopped, endTime := some i }) ∧
      ∀ now', s'.stopExecution e now' = (.ok 0, s') := by
  obtain ⟨r, hr, -⟩ := Option.map_eq_some_iff.mp hx
  refine ⟨_, _, stopExecution_eq hr now, List.countP_eq_length_filter.symm,
    stopped_stopTasks s e now, terminal_stopTasks s e now, fun hzero => ?_, fun hpos => ?_,
    fun now' => ?_⟩
  · exact stopTasks_of_no_open (List.length_eq_zero_iff.mp hzero) now
  · exact h.sound.execution?_stopTasks hx (List.length_pos_iff.mp hpos) now
  · have hnone : (s.stopTasks e now).openTasks e = [] :=
      openTasks_eq_nil_iff.mpr (terminal_stopTasks s e now)
    have hr' : (s.stopTasks e now).executions.get? e = some r := hr
    rw [stopExecution_eq hr', hnone, stopTasks_of_no_open hnone]
    rfl

/-- A run with a failed, a running and a pending task, beside a pending run. -/
def failedAndOpen : List (Operation × Instant) :=
  [.save (.forProject 1), .createExecution 1 .manual false default,
    .createTask 1 "library/a" "job-1", .createTask 1 "library/b" "job-2",
    .createTask 1 "library/c" "job-3", .createExecution 1 .manual false default,
    .createTask 2 "library/a" "job-4", .updateTask (statusReport 1 .running 0),
    .updateTask (statusReport 1 .failed 0), .updateTask (statusReport 2 .running 3)].map
    (·, default)

theorem execution_stopped_of_failed_run :
    let s := after .empty failedAndOpen
    ∃ x s', s.execution? 1 = some x ∧ x.status = .running ∧
      s.stopExecution 1 ⟨60, 0⟩ = (.ok 2, s') ∧ Stopped 1 ⟨60, 0⟩ s s' ∧
      (s.task? 4).map (·.status) = some .pending ∧ s'.task? 4 = s.task? 4 ∧
      (∃ i, s'.execution? 1 = some { x with status := .stopped, endTime := some i }) ∧
      s'.stopExecution 1 ⟨90, 0⟩ = (.ok 0, s') := by
  intro s
  obtain ⟨x, hx⟩ : ∃ x, s.execution? 1 = some x := Option.isSome_iff_exists.mp (by decide)
  obtain ⟨n, s', hstop, hn, hstopped, -, -, hpos, htwice⟩ :=
    execution_stopped (reachable_after .empty failedAndOpen) hx ⟨60, 0⟩
  have htwo : n = 2 := hn.trans (by decide)
  have hstatus : (s.execution? 1).map (·.status) = some .running := by decide
  obtain ⟨t, ht⟩ : ∃ t, s.task? 4 = some t := Option.isSome_iff_exists.mp (by decide)
  have hother : (s.task? 4).map (·.executionId) = some 2 := by decide
  refine ⟨x, s', hx, ?_, htwo ▸ hstop, hstopped, by decide, ?_, hpos (htwo ▸ by decide), htwice _⟩
  · rw [hx] at hstatus
    exact Option.some.inj hstatus
  · rw [ht] at hother
    have he : t.executionId = 2 := Option.some.inj hother
    exact (hstopped.kept 4 t ht (.inl (by rw [he]; decide))).trans ht.symm

end Store

end TagRetention
