import TagRetention.Proofs.Store.Invariant

/-!
Histories of a store. Policies, executions and tasks are numbered apart; an id in the answer to a
creation is the counter's, which then moves on, and nothing else moves it.
-/

namespace TagRetention.Store

def nextId (s : Store) : Numbering → Int
  | .policies => s.nextPolicy
  | .executions => s.nextExecution
  | .tasks => s.nextTask

def Reply.id? : Reply → Option Int
  | .policy p => p.bind (·.id)
  | .execution e => e.map (·.id)
  | .task t => t.map (·.id)
  | _ => none

/-- The id that a creation answers with. -/
def Operation.created (n : Numbering) (op : Operation) : Except StoreFault Reply → Option Int
  | .ok r => if op.creates = some n then r.id? else none
  | .error _ => none

def after (s : Store) : List (Operation × Instant) → Store
  | [] => s
  | (op, now) :: ops => after (op.run now s).2 ops

/-- The ids given out along the way, in order. -/
def issued (n : Numbering) (s : Store) : List (Operation × Instant) → List Int
  | [] => []
  | (op, now) :: ops =>
    (op.created n (op.run now s).1).toList ++ issued n (op.run now s).2 ops

theorem reachable_after {s : Store} (h : Reachable s) (ops : List (Operation × Instant)) :
    Reachable (after s ops) := by
  induction ops generalizing s with
  | nil => exact h
  | cons e ops ih => exact ih (h.step e.1 e.2)

theorem Change.created {now : Instant} {s s' : Store} {op : Operation} {r : Reply}
    (hc : Change now s op r s') (n : Numbering) :
    (op.created n (.ok r) = none ∧ s'.nextId n = s.nextId n) ∨
      (op.created n (.ok r) = some (s.nextId n) ∧ s'.nextId n = s.nextId n + 1) := by
  cases hc with
  | save p =>
    cases n with
    | policies => exact .inr ⟨rfl, rfl⟩
    | executions | tasks => exact .inl ⟨rfl, rfl⟩
  | createExecution =>
    cases n with
    | executions => exact .inr ⟨rfl, rfl⟩
    | policies | tasks => exact .inl ⟨rfl, rfl⟩
  | createTask =>
    cases n with
    | tasks => exact .inr ⟨rfl, rfl⟩
    | policies | executions => exact .inl ⟨rfl, rfl⟩
  | update | delete | updateTask | stopExecution => cases n <;> exact .inl ⟨rfl, rfl⟩

theorem created_run (n : Numbering) (s : Store) (now : Instant) (op : Operation) :
    (op.created n (op.run now s).1 = none ∧ (op.run now s).2.nextId n = s.nextId n) ∨
      (op.created n (op.run now s).1 = some (s.nextId n) ∧
        (op.run now s).2.nextId n = s.nextId n + 1) := by
  rcases run_cases now s op with ⟨f, hr⟩ | ⟨r, hr, hop⟩ | ⟨r, s', hr, hc⟩
  · rw [hr]
    exact .inl ⟨rfl, rfl⟩
  · rw [hr]
    refine .inl ⟨?_, rfl⟩
    rw [Operation.created, hop]
    rfl
  · rw [hr]
    exact hc.created n

/-- The ids of a history follow on each other from where the counter stands. -/
theorem issued_eq (n : Numbering) (s : Store) (ops : List (Operation × Instant)) :
    ∃ m ≤ ops.length, (after s ops).nextId n = s.nextId n + m ∧
      issued n s ops = (List.range m).map fun i : Nat => s.nextId n + i := by
  induction ops generalizing s with
  | nil => exact ⟨0, Nat.le_refl 0, (Int.add_zero _).symm, rfl⟩
  | cons e ops ih =>
    obtain ⟨m, hm, hnext, hids⟩ := ih (e.1.run e.2 s).2
    rw [after, issued, hnext, hids]
    rcases created_run n s e.2 e.1 with ⟨hnone, hsame⟩ | ⟨hsome, hmoved⟩
    · refine ⟨m, Nat.le_succ_of_le hm, ?_, ?_⟩
      · rw [hsame]
      · rw [hnone, hsame, Option.toList_none, List.nil_append]
    · refine ⟨m + 1, Nat.succ_le_succ hm, ?_, ?_⟩
      · rw [hmoved]
        omega
      · rw [hsome, hmoved, List.range_succ_eq_map, Option.toList_some, List.map_cons, List.map_map]
        refine List.cons_eq_cons.2 ⟨(Int.add_zero _).symm, List.map_congr_left ?_⟩
        intro i _
        simp only [Function.comp]
        omega

/-- Along any history the tables fit together and no id is given out twice. Fewer than `2 ^ 63`
operations stay within ids of 64 bits. -/
theorem history_sound (ops : List (Operation × Instant)) :
    (after .empty ops).Sound ∧
      ∀ n, (issued n .empty ops).Pairwise (· < ·) ∧
        (∀ id ∈ issued n .empty ops, 1 ≤ id ∧ id < (after .empty ops).nextId n) ∧
        (after .empty ops).nextId n ≤ ops.length + 1 := by
  refine ⟨(reachable_after .empty ops).sound, fun n => ?_⟩
  obtain ⟨m, hm, hnext, hids⟩ := issued_eq n .empty ops
  have hone : Store.empty.nextId n = 1 := by cases n <;> rfl
  rw [hone] at hnext hids
  rw [hnext, hids]
  refine ⟨?_, ?_, ?_⟩
  · rw [List.pairwise_map]
    apply List.pairwise_lt_range.imp
    intro i j hij
    omega
  · intro id hid
    obtain ⟨i, hi, rfl⟩ := List.mem_map.1 hid
    have := List.mem_range.1 hi
    omega
  · omega

example : issued .policies .empty
    [(.save (.forProject 1), default), (.delete 1, default), (.save (.forProject 1), default)] =
      [1, 2] := by decide

end TagRetention.Store
