import Mathlib.Logic.Relation
import TagRetention.Proofs.Store.History
import TagRetention.Proofs.Store.TaskStep

/-!
Histories of a task. What it was created with stays, its revision never falls, and within one
revision its status only goes forward; the record of a finished task waits for a newer revision.
-/

namespace TagRetention

/-- What can still be of a task: `u` is a later record of `t`. -/
structure Task.Precedes (t u : Task) : Prop where
  id : u.id = t.id
  executionId : u.executionId = t.executionId
  repository : u.repository = t.repository
  jobId : u.jobId = t.jobId
  startTime : u.startTime = t.startTime
  revision : t.revision ≤ u.revision
  status : u.revision = t.revision →
    Relation.ReflTransGen (fun a b => RunStatus.canBecome a b = true) t.status u.status
  finished : t.status.isTerminal = true → u.revision = t.revision → u = t

namespace Task

variable {now : Instant} {t u v : Task} {r : StatusReport}

theorem Precedes.refl (t : Task) : t.Precedes t :=
  ⟨rfl, rfl, rfl, rfl, rfl, Int.le_refl _, fun _ => .refl, fun _ _ => rfl⟩

theorem Precedes.trans (h : t.Precedes u) (h' : u.Precedes v) : t.Precedes v := by
  -- a revision that is the same at both ends is the same in between
  have hsame : v.revision = t.revision → u.revision = t.revision ∧ v.revision = u.revision := by
    have := h.revision
    have := h'.revision
    omega
  refine ⟨h'.id.trans h.id, h'.executionId.trans h.executionId, h'.repository.trans h.repository,
    h'.jobId.trans h.jobId, h'.startTime.trans h.startTime, Int.le_trans h.revision h'.revision,
    ?_, ?_⟩
  · intro hr
    obtain ⟨hu, hv⟩ := hsame hr
    exact (h.status hu).trans (h'.status hv)
  · intro hf hr
    obtain ⟨hu, hv⟩ := hsame hr
    have heq : u = t := h.finished hf hu
    rw [heq] at h'
    exact h'.finished hf hr

theorem accepts_iff :
    t.accepts r = true ↔
      t.revision < r.revision ∨ r.revision = t.revision ∧ t.status.canBecome r.status = true := by
  simp [accepts]

theorem newer_of_accepts (hf : t.status.isTerminal = true) (fresh : t.accepts r = true) :
    t.revision < r.revision := by
  rcases accepts_iff.1 fresh with hlt | ⟨-, hgo⟩
  · exact hlt
  · rw [RunStatus.canBecome_eq_false_of_isTerminal hf] at hgo
    cases hgo

theorem precedes_apply (fresh : t.accepts r = true) (now : Instant) :
    t.Precedes (t.apply r now) := by
  have hle : t.revision ≤ r.revision := by
    rcases accepts_iff.1 fresh with hlt | ⟨heq, -⟩ <;> omega
  refine ⟨rfl, rfl, rfl, rfl, rfl, hle, ?_, ?_⟩
  · intro hr
    rcases accepts_iff.1 fresh with hlt | ⟨-, hgo⟩
    · exact absurd hr (Int.ne_of_gt hlt)
    · exact .single hgo
  · intro hf hr
    exact absurd hr (Int.ne_of_gt (newer_of_accepts hf fresh))

theorem canBecome_stopped (hopen : t.status.isTerminal = false) :
    t.status.canBecome .stopped = true := by
  cases hs : t.status <;> simp_all [RunStatus.isTerminal, RunStatus.canBecome]

theorem precedes_stopped (hopen : t.status.isTerminal = false) (now : Instant) :
    t.Precedes { t with status := .stopped, endTime := some now } := by
  refine ⟨rfl, rfl, rfl, rfl, rfl, Int.le_refl _, fun _ => .single (canBecome_stopped hopen), ?_⟩
  intro hf
  rw [hopen] at hf
  cases hf

end Task

namespace Store

variable {now : Instant} {s : Store} {op : Operation} {k : TaskId} {t u : Task}
  {ops : List (Operation × Instant)}

theorem TaskStep.precedes (h : TaskStep now s k op (some t) (some u)) : t.Precedes u := by
  cases h with
  | keep => exact .refl t
  | report _ fresh => exact Task.precedes_apply fresh now
  | stop hopen => exact Task.precedes_stopped hopen now

theorem nextId_le_run (n : Numbering) (s : Store) (now : Instant) (op : Operation) :
    s.nextId n ≤ (op.run now s).2.nextId n := by
  have h := created_run n s now op
  omega

/-- A task that is gone does not come back. -/
theorem Reachable.task_gone (h : Reachable s) (hk : k < s.nextTask) (ht : s.task? k = none) :
    (after s ops).task? k = none := by
  induction ops generalizing s with
  | nil => exact ht
  | cons e ops ih =>
    obtain ⟨op, now⟩ := e
    have hstep := h.sound.taskStep now op k
    rw [task?] at ht
    rw [ht] at hstep
    apply ih (h.step op now) (Int.lt_of_lt_of_le hk (nextId_le_run .tasks s now op))
    rw [task?]
    generalize (op.run now s).2.tasks.get? k = next at hstep ⊢
    cases hstep with
    | keep => rfl
    | create _ _ _ hnext => exact absurd hnext (Int.ne_of_lt hk)

/-- A task that is there before and after a history is there after its first operation. -/
theorem Reachable.task_between {e : Operation × Instant} (h : Reachable s)
    (ht : s.task? k = some t) (hu : (after (e.1.run e.2 s).2 ops).task? k = some u) :
    ∃ v, (e.1.run e.2 s).2.task? k = some v := by
  cases hv : (e.1.run e.2 s).2.task? k with
  | some v => exact ⟨v, rfl⟩
  | none =>
    have hk : k < s.nextTask := h.sound.tasks.lt_next k t ht
    have hgone : (after (e.1.run e.2 s).2 ops).task? k = none := (h.step e.1 e.2).task_gone
      (Int.lt_of_lt_of_le hk (nextId_le_run .tasks s e.2 e.1)) hv
    rw [hgone] at hu
    cases hu

theorem Reachable.precedes_after (h : Reachable s) (ht : s.task? k = some t)
    (hu : (after s ops).task? k = some u) : t.Precedes u := by
  induction ops generalizing s t with
  | nil =>
    have heq : t = u := Option.some.inj (ht.symm.trans hu)
    exact heq ▸ .refl t
  | cons e ops ih =>
    obtain ⟨v, hv⟩ := h.task_between ht hu
    have hstep := h.sound.taskStep e.2 e.1 k
    rw [task?] at ht hv
    rw [ht, hv] at hstep
    exact hstep.precedes.trans (ih (h.step e.1 e.2) hv hu)

/-- What ends the rest of a finished task: a report of a newer revision, applied at this point. -/
structure Renewal (s : Store) (k : TaskId) (t : Task) (ops : List (Operation × Instant))
    (report : StatusReport) (now : Instant) : Prop where
  taskId : report.taskId = k
  newer : t.revision < report.revision
  kept : ∀ past, past <+: ops → (after s past).task? k = some t
  applied : ((Operation.updateTask report).run now (after s ops)).1 = .ok (.applied true)

theorem Renewal.cons {e : Operation × Instant} {report : StatusReport}
    (h : Renewal (e.1.run e.2 s).2 k t ops report now) (ht : s.task? k = some t) :
    Renewal s k t (e :: ops) report now := by
  refine ⟨h.taskId, h.newer, ?_, h.applied⟩
  intro past hpast
  rcases List.prefix_cons_iff.1 hpast with rfl | ⟨rest, rfl, hrest⟩
  · exact ht
  · exact h.kept rest hrest

theorem TaskStep.newer_of_finished (h : TaskStep now s k op (some t) (some u))
    (hf : t.status.isTerminal = true) (hne : u ≠ t) :
    ∃ report, op = .updateTask report ∧ report.taskId = k ∧ t.accepts report = true := by
  cases h with
  | keep => exact absurd rfl hne
  | report hk fresh => exact ⟨_, rfl, hk, fresh⟩
  | stop hopen =>
    rw [hopen] at hf
    cases hf

theorem Reachable.renewal_of_ne (h : Reachable s) (hf : t.status.isTerminal = true)
    (ht : s.task? k = some t) (hu : (after s ops).task? k = some u) (hne : u ≠ t) :
    ∃ past report now future, ops = past ++ (.updateTask report, now) :: future ∧
      Renewal s k t past report now := by
  induction ops generalizing s with
  | nil => exact absurd (Option.some.inj (hu.symm.trans ht)) hne
  | cons e ops ih =>
    obtain ⟨v, hv⟩ := h.task_between ht hu
    by_cases hvt : v = t
    · rw [hvt] at hv
      obtain ⟨past, report, now, future, rfl, hrenewal⟩ := ih (h.step e.1 e.2) hv hu
      exact ⟨e :: past, report, now, future, rfl, hrenewal.cons ht⟩
    · have hstep := h.sound.taskStep e.2 e.1 k
      have hget : s.tasks.get? k = some t := ht
      have hget' : (e.1.run e.2 s).2.tasks.get? k = some v := hv
      rw [hget, hget'] at hstep
      obtain ⟨report, hop, rfl, fresh⟩ := hstep.newer_of_finished hf hvt
      refine ⟨[], report, e.2, ops, by rw [← hop]; rfl, rfl, Task.newer_of_accepts hf fresh, ?_,
        run_updateTask_of_accepts hget fresh⟩
      intro past hpast
      rw [List.prefix_nil.1 hpast]
      exact ht

/-- Between any two states in which a task is there, it moved on as `Task.Precedes` says, and if it
was finished then its record is the same up to the first newer report. -/
theorem task_history (h : Reachable s) (ops : List (Operation × Instant))
    (ht : s.task? k = some t) (hu : (after s ops).task? k = some u) :
    t.Precedes u ∧
      (t.status.isTerminal = true → u = t ∨
        ∃ past report now future, ops = past ++ (.updateTask report, now) :: future ∧
          Renewal s k t past report now) := by
  refine ⟨h.precedes_after ht hu, fun hf => ?_⟩
  by_cases heq : u = t
  · exact .inl heq
  · exact .inr (h.renewal_of_ne hf ht hu heq)

def statusReport (task : TaskId) (status : RunStatus) (revision : Int) : StatusReport :=
  ⟨task, status, revision, none, none⟩

def succeededRun : List (Operation × Instant) :=
  [.save (.forProject 1), .createExecution 1 .manual false default,
    .createTask 1 "library/a" "job", .updateTask (statusReport 1 .running 1),
    .updateTask (statusReport 1 .succeeded 1)].map (·, default)

def lateThenRetried : List (Operation × Instant) :=
  [.updateTask (statusReport 1 .running 1), .stopExecution 1,
    .updateTask (statusReport 1 .failed 0), .updateTask (statusReport 1 .running 2)].map
    (·, default)

theorem task_history_of_retry :
    let t : Task := ⟨1, 1, "library/a", "job", .succeeded, 1, some default, some default, 0, 0⟩
    let u : Task := ⟨1, 1, "library/a", "job", .running, 2, some default, none, 0, 0⟩
    (after .empty succeededRun).task? 1 = some t ∧ t.status.isTerminal = true ∧
      (after (after .empty succeededRun) lateThenRetried).task? 1 = some u ∧ t.Precedes u ∧
      ∃ past report now future, lateThenRetried = past ++ (.updateTask report, now) :: future ∧
        Renewal (after .empty succeededRun) 1 t past report now := by
  intro t u
  have hreach : Reachable (after .empty succeededRun) := reachable_after .empty succeededRun
  have ht : (after .empty succeededRun).task? 1 = some t := by decide
  have hu : (after (after .empty succeededRun) lateThenRetried).task? 1 = some u := by decide
  have hne : u ≠ t := by decide
  obtain ⟨hprec, hfrozen⟩ := task_history hreach lateThenRetried ht hu
  exact ⟨ht, rfl, hu, hprec, (hfrozen rfl).resolve_left hne⟩

end Store

end TagRetention
