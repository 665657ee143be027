import Mathlib.Data.Multiset.Basic
import TagRetention.Proofs.Store.TaskHistory

/-!
Status reports as a network delivers them: late, repeated and in any order. Reports of lower
revisions may or may not count, the first one of the newest revision does, and none after it.
-/

namespace TagRetention

variable {t : Task} {r : StatusReport} {newest : Int} {status : RunStatus} {now : Instant}

theorem RunStatus.canBecome_self (a : RunStatus) : a.canBecome a = false := by
  cases a <;> rfl

/-- The report is of no later revision, and if it is of the newest one it says this status. -/
structure StatusReport.Within (newest : Int) (status : RunStatus) (r : StatusReport) : Prop where
  le_newest : r.revision ≤ newest
  status_eq : r.revision = newest → r.status = status

namespace Task

/-- The task after a report was delivered to it, whether or not the report counts. -/
def receive (t : Task) (r : StatusReport) (now : Instant) : Task :=
  if t.accepts r then t.apply r now else t

structure Settled (newest : Int) (status : RunStatus) (t : Task) : Prop where
  revision_eq : t.revision = newest
  status_eq : t.status = status
  ended : t.endTime.isSome = status.isTerminal

theorem accepts_of_lt (h : t.revision < r.revision) : t.accepts r = true :=
  accepts_iff.2 (.inl h)

theorem receive_lt (ht : t.revision < newest) (hr : r.revision < newest) :
    (t.receive r now).revision < newest := by
  rw [receive]
  split
  · exact hr
  · exact ht

theorem settled_receive (ht : t.revision < newest) (hr : r.revision = newest) :
    (t.receive r now).Settled newest r.status := by
  rw [receive, accepts_of_lt (hr ▸ ht), if_pos rfl]
  exact ⟨hr, rfl, t.ended_apply r now⟩

theorem Settled.not_accepts (h : t.Settled newest status) (hr : r.Within newest status) :
    t.accepts r = false := by
  rw [Bool.eq_false_iff]
  intro fresh
  rcases accepts_iff.1 fresh with hlt | ⟨heq, hgo⟩
  · exact absurd (h.revision_eq ▸ hlt) (Int.not_lt.2 hr.le_newest)
  · rw [h.status_eq, hr.status_eq (heq.trans h.revision_eq), RunStatus.canBecome_self] at hgo
    cases hgo

theorem Settled.receive_eq (h : t.Settled newest status) (hr : r.Within newest status) :
    t.receive r now = t := by
  rw [receive, h.not_accepts hr]
  rfl

end Task

namespace Store

variable {s : Store} {k : TaskId} {delivered : List (StatusReport × Instant)}

def deliver (s : Store) (delivered : List (StatusReport × Instant)) : Store :=
  after s (delivered.map fun d => (.updateTask d.1, d.2))

theorem task?_updateTask (s : Store) (k : TaskId) (r : StatusReport) (now : Instant) :
    ((Operation.updateTask r).run now s).2.task? k =
      if r.taskId = k then (s.task? k).map (·.receive r now) else s.task? k := by
  simp only [Operation.run, reply, updateTask, task?]
  by_cases hk : r.taskId = k
  · subst hk
    rw [if_pos rfl]
    cases ht : s.tasks.get? r.taskId with
    | none => exact ht
    | some t =>
      simp only [Option.map_some, Task.receive]
      cases t.accepts r with
      | false => exact ht
      | true => exact Table.get?_insert.trans (if_pos rfl)
  · rw [if_neg hk]
    split
    · rfl
    · split
      · exact Table.get?_insert.trans (if_neg (Ne.symm hk))
      · rfl

theorem deliver_cons (s : Store) (d : StatusReport × Instant) :
    s.deliver (d :: delivered) = ((Operation.updateTask d.1).run d.2 s).2.deliver delivered := rfl

theorem task?_deliver_of_settled (ht : s.task? k = some t) (hsettled : t.Settled newest status)
    (hwithin : ∀ d ∈ delivered, d.1.taskId = k → d.1.Within newest status) :
    (s.deliver delivered).task? k = some t := by
  induction delivered generalizing s with
  | nil => exact ht
  | cons d rest ih =>
    rw [deliver_cons]
    refine ih ?_ fun e he => hwithin e (List.mem_cons_of_mem d he)
    rw [task?_updateTask, ht]
    split
    · rename_i hk
      rw [Option.map_some, hsettled.receive_eq (hwithin d List.mem_cons_self hk)]
    · rfl

theorem settled_deliver (ht : s.task? k = some t) (hlt : t.revision < newest)
    (hwithin : ∀ d ∈ delivered, d.1.taskId = k → d.1.Within newest status)
    (hnewest : ∃ d ∈ delivered, d.1.taskId = k ∧ d.1.revision = newest) :
    ∃ u, (s.deliver delivered).task? k = some u ∧ u.Settled newest status := by
  induction delivered generalizing s t with
  | nil =>
    obtain ⟨d, hd, -⟩ := hnewest
    exact absurd hd List.not_mem_nil
  | cons d rest ih =>
    have hrest : ∀ e ∈ rest, e.1.taskId = k → e.1.Within newest status :=
      fun e he => hwithin e (List.mem_cons_of_mem d he)
    have hstep := task?_updateTask s k d.1 d.2
    rw [ht, Option.map_some] at hstep
    rw [deliver_cons]
    by_cases hd : d.1.taskId = k ∧ d.1.revision = newest
    · rw [if_pos hd.1] at hstep
      have hsettled : (t.receive d.1 d.2).Settled newest status :=
        (hwithin d List.mem_cons_self hd.1).status_eq hd.2 ▸ Task.settled_receive hlt hd.2
      exact ⟨_, task?_deliver_of_settled hstep hsettled hrest, hsettled⟩
    -- the first report of the newest revision is still to come
    · have hlater : ∃ e ∈ rest, e.1.taskId = k ∧ e.1.revision = newest := by
        obtain ⟨e, he, hnew⟩ := hnewest
        rcases List.mem_cons.1 he with rfl | he
        · exact absurd hnew hd
        · exact ⟨e, he, hnew⟩
      by_cases hk : d.1.taskId = k
      · rw [if_pos hk] at hstep
        have hle := (hwithin d List.mem_cons_self hk).le_newest
        have hbelow : d.1.revision < newest := Int.lt_iff_le_and_ne.2 ⟨hle, fun hr => hd ⟨hk, hr⟩⟩
        exact ih hstep (Task.receive_lt hlt hbelow) hrest hlater
      · rw [if_neg hk] at hstep
        exact ih hstep hlt hrest hlater

/-- However the reports for a task are ordered, repeated and mixed with reports for others, the
task ends as those of the newest revision say. -/
theorem deliveries_converge (ht : s.task? k = some t) (reports : Multiset StatusReport)
    (hnewer : t.revision < newest) (hmem : ∃ r ∈ reports, r.revision = newest)
    (hreports : ∀ r ∈ reports, r.taskId = k ∧ r.Within newest status)
    (delivered : List (StatusReport × Instant))
    (hdelivered : ∀ r, r.taskId = k → (r ∈ delivered.map (·.1) ↔ r ∈ reports)) :
    ∃ u, (s.deliver delivered).task? k = some u ∧ u.revision = newest ∧ u.status = status ∧
      u.endTime.isSome = status.isTerminal := by
  have hwithin : ∀ d ∈ delivered, d.1.taskId = k → d.1.Within newest status := by
    intro d hd hk
    exact (hreports d.1 ((hdelivered d.1 hk).1 (List.mem_map_of_mem hd))).2
  have hnewest : ∃ d ∈ delivered, d.1.taskId = k ∧ d.1.revision = newest := by
    obtain ⟨r, hr, hrev⟩ := hmem
    have hk := (hreports r hr).1
    obtain ⟨d, hd, rfl⟩ := List.mem_map.1 ((hdelivered r hk).2 hr)
    exact ⟨d, hd, hk, hrev⟩
  obtain ⟨u, hu, hsettled⟩ := settled_deliver ht hnewer hwithin hnewest
  exact ⟨u, hu, hsettled.revision_eq, hsettled.status_eq, hsettled.ended⟩

def secondTask : List (Operation × Instant) :=
  succeededRun ++ [(.createTask 1 "library/b" "job-2", default)]

def retryReports : Multiset StatusReport :=
  {statusReport 1 .running 2, statusReport 1 .failed 3, statusReport 1 .stopped 1}

/-- The newest report comes first and again at the end, with the other task's in between. -/
def scrambled : List (StatusReport × Instant) :=
  [statusReport 1 .failed 3, statusReport 2 .running 4, statusReport 1 .running 2,
    statusReport 1 .stopped 1, statusReport 1 .running 2, statusReport 1 .failed 3].map (·, default)

theorem deliveries_converge_of_scrambled :
    let t : Task := ⟨1, 1, "library/a", "job", .succeeded, 1, some default, some default, 0, 0⟩
    (after .empty secondTask).task? 1 = some t ∧ t.revision < 3 ∧
      (∃ r ∈ retryReports, r.revision = 3) ∧
      (∀ r ∈ retryReports, r.taskId = 1 ∧ r.Within 3 .failed) ∧
      (∀ r, r.taskId = 1 → (r ∈ scrambled.map (·.1) ↔ r ∈ retryReports)) ∧
      ∃ u, ((after .empty secondTask).deliver scrambled).task? 1 = some u ∧ u.revision = 3 ∧
        u.status = .failed ∧ u.endTime.isSome = true := by
  intro t
  have ht : (after .empty secondTask).task? 1 = some t := by decide
  have hnewer : t.revision < 3 := by decide
  have hmem : ∃ r ∈ retryReports, r.revision = 3 :=
    ⟨statusReport 1 .failed 3, by simp [retryReports], rfl⟩
  have hreports : ∀ r ∈ retryReports, r.taskId = 1 ∧ r.Within 3 .failed := by
    intro r hr
    simp only [retryReports, Multiset.insert_eq_cons, Multiset.mem_cons,
      Multiset.mem_singleton] at hr
    rcases hr with rfl | rfl | rfl <;> exact ⟨rfl, by decide, by decide⟩
  have hdelivered : ∀ r, r.taskId = 1 → (r ∈ scrambled.map (·.1) ↔ r ∈ retryReports) := by
    intro r hk
    have hother : r ≠ statusReport 2 .running 4 := by
      rintro rfl
      cases hk
    simp only [scrambled, retryReports, List.map_cons, List.map_nil, List.mem_cons,
      Multiset.insert_eq_cons, Multiset.mem_cons, Multiset.mem_singleton]
    grind
  exact ⟨ht, hnewer, hmem, hreports, hdelivered,
    deliveries_converge ht retryReports hnewer hmem hreports scrambled hdelivered⟩

end Store

end TagRetention
