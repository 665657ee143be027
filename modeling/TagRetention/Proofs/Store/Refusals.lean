import TagRetention.Proofs.Store.TaskHistory

/-!
Requests that a store turns down, and look-ups. They change no record and no counter, so a history
leads to the same store without them.
-/

namespace TagRetention.Store

variable {now : Instant} {s s' : Store} {op : Operation} {reply : Reply}
  {o : Operation × Instant}

def Operation.isLookup : Operation → Bool
  | .getPolicy _ | .getByProject _ | .getExecution _ | .listExecutions _ _ | .getTask _
  | .listTasks _ _ => true
  | .save _ | .update _ | .delete _ | .createExecution .. | .createTask .. | .updateTask _
  | .stopExecution _ => false

/-- A fault, or the answer to a report that was not applied. -/
def refused : Except StoreFault Reply → Bool
  | .error _ => true
  | .ok (.applied applied) => !applied
  | .ok _ => false

theorem Change.not_refused (hc : Change now s op reply s') : refused (.ok reply) = false := by
  cases hc <;> rfl

theorem Change.not_isLookup (hc : Change now s op reply s') : op.isLookup = false := by
  cases hc <;> rfl

theorem run_same_or_change (now : Instant) (s : Store) (op : Operation) :
    (op.run now s).2 = s ∨ ∃ r s', op.run now s = (.ok r, s') ∧ Change now s op r s' := by
  rcases run_cases now s op with ⟨f, hr⟩ | ⟨_, hr, -⟩ | hchange
  · exact .inl (by rw [hr])
  · exact .inl (by rw [hr])
  · exact .inr hchange

theorem run_of_refused (h : refused (op.run now s).1 = true) : (op.run now s).2 = s := by
  rcases run_same_or_change now s op with hsame | ⟨_, _, hr, hc⟩
  · exact hsame
  · rw [hr, hc.not_refused] at h
    cases h

theorem run_of_isLookup (h : op.isLookup = true) : (op.run now s).2 = s := by
  rcases run_same_or_change now s op with hsame | ⟨_, _, -, hc⟩
  · exact hsame
  · rw [hc.not_isLookup] at h
    cases h

/-- The request was turned down, or asked for nothing to be done. -/
def wasIdle (a : Operation × Except StoreFault Reply) : Bool :=
  refused a.2 || a.1.isLookup

def idle (s : Store) (o : Operation × Instant) : Bool :=
  wasIdle (o.1, (o.1.run o.2 s).1)

theorem run_of_idle (h : s.idle o = true) : (o.1.run o.2 s).2 = s := by
  rcases Bool.or_eq_true_iff.mp h with hrefused | hlookup
  · exact run_of_refused hrefused
  · exact run_of_isLookup hlookup

/-- The history without its idle requests. -/
def effective (s : Store) : List (Operation × Instant) → List (Operation × Instant)
  | [] => []
  | o :: ops =>
    if s.idle o then effective s ops else o :: effective (o.1.run o.2 s).2 ops

theorem after_effective (s : Store) (ops : List (Operation × Instant)) :
    after s (effective s ops) = after s ops := by
  induction ops generalizing s with
  | nil => rfl
  | cons o ops ih =>
    rw [effective]
    split
    · rename_i hidle
      rw [ih, after, run_of_idle hidle]
    · exact ih (o.1.run o.2 s).2

def answers (s : Store) : List (Operation × Instant) → List (Operation × Except StoreFault Reply)
  | [] => []
  | o :: ops => (o.1, (o.1.run o.2 s).1) :: answers (o.1.run o.2 s).2 ops

theorem answers_effective (s : Store) (ops : List (Operation × Instant)) :
    answers s (effective s ops) = (answers s ops).filter (!wasIdle ·) := by
  induction ops generalizing s with
  | nil => rfl
  | cons o ops ih =>
    rw [effective, answers]
    by_cases hidle : s.idle o = true
    · have hout : wasIdle (o.1, (o.1.run o.2 s).1) = true := hidle
      rw [if_pos hidle, ih, run_of_idle hidle, List.filter_cons_of_neg (by simp [hout])]
    · have hin : ¬ wasIdle (o.1, (o.1.run o.2 s).1) = true := hidle
      rw [if_neg hidle, answers, ih, List.filter_cons_of_pos (by simp [hin])]

/-- What is refused, and what only looks something up, leaves the whole store as it is. Without such
requests a history leads to the same store, and the others get the same answers. -/
theorem idle_requests (s : Store) :
    (∀ (op : Operation) now, refused (op.run now s).1 = true → (op.run now s).2 = s) ∧
      (∀ (op : Operation) now, op.isLookup = true → (op.run now s).2 = s) ∧
      ∀ ops, after s (effective s ops) = after s ops ∧
        answers s (effective s ops) = (answers s ops).filter (!wasIdle ·) :=
  ⟨fun _ _ => run_of_refused, fun _ _ => run_of_isLookup,
    fun ops => ⟨after_effective s ops, answers_effective s ops⟩⟩

/-- Only the last of these has an effect on the store of `succeededRun`. -/
def mostlyRefused : List (Operation × Instant) :=
  [.save (.forProject 1), .update (.forProject 1), .delete 9,
    .createExecution 9 .manual false default, .createTask 9 "library/b" "job-2",
    .updateTask (statusReport 9 .running 1), .updateTask (statusReport 1 .running 1),
    .stopExecution 9, .listTasks 1 ⟨0, 5⟩, .getTask 1, .createTask 1 "library/b" "job-2"].map
    (·, default)

theorem idle_requests_of_stale_report :
    let s := after .empty succeededRun
    let stale := (Operation.updateTask (statusReport 1 .running 1)).run default s
    let listed := (Operation.listTasks 1 ⟨0, 5⟩).run default s
    refused stale.1 = true ∧ stale.2 = s ∧ listed.2 = s ∧
      (effective s mostlyRefused).length = 1 ∧
      after s (effective s mostlyRefused) = after s mostlyRefused ∧
      (answers s (effective s mostlyRefused)).length = 1 ∧ s.nextTask = 2 ∧
      (after s mostlyRefused).nextTask = 3 := by
  intro s stale listed
  obtain ⟨hrefused, hlookup, hhistory⟩ := idle_requests s
  obtain ⟨hafter, hanswers⟩ := hhistory mostlyRefused
  have hstale : refused stale.1 = true := by decide
  exact ⟨hstale, hrefused _ _ hstale, hlookup (.listTasks 1 ⟨0, 5⟩) _ rfl, by decide, hafter,
    (congrArg List.length hanswers).trans (by decide), by decide, by decide⟩

end TagRetention.Store
