import TagRetention.Proofs.Store.Change
import TagRetention.Proofs.Store.Numbered

/-!
What every change of the store keeps. A deletion takes away with a record all that refers to it.
-/

namespace TagRetention

theorem Task.ended_apply (t : Task) (r : StatusReport) (now : Instant) :
    (t.apply r now).endTime.isSome = (t.apply r now).status.isTerminal := by
  simp only [Task.apply]
  cases r.status.isTerminal <;> rfl

theorem Task.ended_stopOf {t : Task} (h : t.endTime.isSome = t.status.isTerminal)
    (execution : ExecutionId) (now : Instant) :
    (t.stopOf execution now).endTime.isSome = (t.stopOf execution now).status.isTerminal := by
  rw [Task.stopOf]
  split
  · rfl
  · exact h

theorem Task.stopOf_id (t : Task) (execution : ExecutionId) (now : Instant) :
    (t.stopOf execution now).id = t.id := by
  rw [Task.stopOf]
  split <;> rfl

theorem Task.stopOf_executionId (t : Task) (execution : ExecutionId) (now : Instant) :
    (t.stopOf execution now).executionId = t.executionId := by
  rw [Task.stopOf]
  split <;> rfl

namespace Store

variable {s s' : Store} {now : Instant} {op : Operation} {reply : Reply}

structure Sound (s : Store) : Prop where
  policies : s.policies.Numbered Policy.id s.nextPolicy
  executions : s.executions.Numbered (fun r => some r.id) s.nextExecution
  tasks : s.tasks.Numbered (fun t => some t.id) s.nextTask
  one_of_project : ∀ k l p q, s.policies.get? k = some p → s.policies.get? l = some q →
    p.scope.reference = q.scope.reference → k = l
  policy_of_execution : ∀ k r, s.executions.get? k = some r → (s.policies.get? r.policyId).isSome
  execution_of_task : ∀ k t, s.tasks.get? k = some t → (s.executions.get? t.executionId).isSome
  task_ended : ∀ k t, s.tasks.get? k = some t → t.endTime.isSome = t.status.isTerminal

theorem sound_empty : Sound .empty := by
  constructor <;> simp [empty, Table.Numbered.nil, Table.get?]

theorem policyOf?_eq_none_iff (hs : s.policies.Sorted) (project : ProjectId) :
    s.policyOf? project = none ↔
      ∀ k p, s.policies.get? k = some p → p.scope.reference ≠ project := by
  rw [policyOf?, List.find?_eq_none]
  constructor
  · intro h k p hp
    simpa using h p ((Table.mem_values_iff hs).2 ⟨k, hp⟩)
  · intro h p hp
    obtain ⟨k, hk⟩ := (Table.mem_values_iff hs).1 hp
    simpa using h k p hk

theorem Sound.policyOf?_eq_some_iff (h : s.Sound) {project : ProjectId} {p : Policy} :
    s.policyOf? project = some p ↔
      ∃ id, s.policy? id = some p ∧ p.scope.reference = project := by
  constructor
  · intro hp
    obtain ⟨id, hid⟩ := (Table.mem_values_iff h.policies.sorted).mp (List.mem_of_find?_eq_some hp)
    exact ⟨id, hid, by simpa using List.find?_some hp⟩
  · rintro ⟨id, hid, rfl⟩
    cases hq : s.policyOf? p.scope.reference with
    | none => exact absurd rfl ((policyOf?_eq_none_iff h.policies.sorted _).mp hq id p hid)
    | some q =>
      obtain ⟨l, hl⟩ := (Table.mem_values_iff h.policies.sorted).mp (List.mem_of_find?_eq_some hq)
      have hproject : q.scope.reference = p.scope.reference := by simpa using List.find?_some hq
      have hsame : l = id := h.one_of_project l id q p hl hid hproject
      rw [hsame] at hl
      exact hl.symm.trans hid

theorem Sound.save (h : s.Sound) {p : Policy} (hc : Change now s (.save p) reply s') :
    s'.Sound := by
  obtain ⟨_, hfree⟩ := hc
  rw [policyOf?_eq_none_iff h.policies.sorted] at hfree
  refine { h with policies := h.policies.add rfl, one_of_project := ?_, policy_of_execution := ?_ }
  · intro k l q r hq hr hqr
    simp only [Table.get?_insert] at hq hr
    split at hq <;> split at hr
    · rename_i hk hl
      rw [hk, hl]
    · cases hq
      exact absurd hqr.symm (hfree l r hr)
    · cases hr
      exact absurd hqr (hfree k q hq)
    · exact h.one_of_project k l q r hq hr hqr
  · intro k r hr
    rw [Table.isSome_get?_insert, h.policy_of_execution k r hr, Bool.or_true]

theorem Sound.update (h : s.Sound) {p : Policy} (hc : Change now s (.update p) reply s') :
    s'.Sound := by
  cases hc with
  | @update _ old id hid hold =>
    refine { h with policies := h.policies.replace hold hid, one_of_project := ?_,
                    policy_of_execution := ?_ }
    -- The new record stands for the project of the old one.
    · have hsame : ∀ k q, (s.policies.insert id { p with scope := old.scope }).get? k = some q →
          ∃ q', s.policies.get? k = some q' ∧ q'.scope = q.scope := by
        intro k q hq
        rw [Table.get?_insert] at hq
        split at hq
        · rename_i hk
          cases hq
          exact ⟨old, hk ▸ hold, rfl⟩
        · exact ⟨q, hq, rfl⟩
      intro k l q r hq hr hqr
      obtain ⟨q', hq', hqs⟩ := hsame k q hq
      obtain ⟨r', hr', hrs⟩ := hsame l r hr
      exact h.one_of_project k l q' r' hq' hr' (by rw [hqs, hrs, hqr])
    · intro k r hr
      rw [Table.isSome_get?_insert, h.policy_of_execution k r hr, Bool.or_true]

theorem Sound.mem_recordsOf_iff (h : s.Sound) {policy : PolicyId} {r : ExecutionRecord} :
    r ∈ s.recordsOf policy ↔ s.executions.get? r.id = some r ∧ r.policyId = policy := by
  rw [recordsOf, List.mem_filter, Table.mem_values_iff h.executions.sorted, beq_iff_eq]
  constructor
  · rintro ⟨⟨k, hk⟩, hp⟩
    have hid : some r.id = some k := h.executions.id_eq k r hk
    rw [Option.some.inj hid]
    exact ⟨hk, hp⟩
  · rintro ⟨hk, hp⟩
    exact ⟨⟨r.id, hk⟩, hp⟩

theorem Sound.mem_tasksOf_iff (h : s.Sound) {execution : ExecutionId} {t : Task} :
    t ∈ s.tasksOf execution ↔ ∃ k, s.tasks.get? k = some t ∧ t.executionId = execution := by
  rw [tasksOf, List.mem_filter, Table.mem_values_iff h.tasks.sorted, beq_iff_eq]
  constructor
  · rintro ⟨⟨k, hk⟩, he⟩
    exact ⟨k, hk, he⟩
  · rintro ⟨k, hk, he⟩
    exact ⟨⟨k, hk⟩, he⟩

theorem Sound.policyId_ne (h : s.Sound) {id : PolicyId} {k : ExecutionId} {r : ExecutionRecord}
    (hr : s.executions.get? k = some r) (hk : k ∉ (s.recordsOf id).map (·.id)) :
    r.policyId ≠ id := by
  intro hid
  have hrk : some r.id = some k := h.executions.id_eq k r hr
  rw [← Option.some.inj hrk] at hr hk
  exact hk (List.mem_map_of_mem (h.mem_recordsOf_iff.2 ⟨hr, hid⟩))

theorem Sound.delete (h : s.Sound) {id : PolicyId} (hc : Change now s (.delete id) reply s') :
    s'.Sound := by
  obtain ⟨⟩ := hc
  refine { policies := h.policies.erase id, executions := h.executions.retain (·.policyId != id),
           tasks := h.tasks.retain fun t => !((s.recordsOf id).map (·.id)).contains t.executionId,
           one_of_project := ?_, policy_of_execution := ?_, execution_of_task := ?_,
           task_ended := ?_ }
  · intro k l p q hp hq
    exact h.one_of_project k l p q (Table.get?_of_erase hp) (Table.get?_of_erase hq)
  · intro k r hr
    rw [Table.get?_retain _ h.executions.sorted, Option.filter_eq_some_iff] at hr
    have hne : r.policyId ≠ id := by simpa using hr.2
    rw [Table.get?_erase, if_neg hne]
    exact h.policy_of_execution k r hr.1
  · intro k t ht
    rw [Table.get?_retain _ h.tasks.sorted, Option.filter_eq_some_iff] at ht
    obtain ⟨r, hr⟩ := Option.isSome_iff_exists.1 (h.execution_of_task k t ht.1)
    have hne : r.policyId ≠ id := h.policyId_ne hr (by simpa using ht.2)
    rw [Table.get?_retain _ h.executions.sorted, hr, Option.filter_some,
      if_pos (by simpa using hne), Option.isSome_some]
  · intro k t ht
    rw [Table.get?_retain _ h.tasks.sorted, Option.filter_eq_some_iff] at ht
    exact h.task_ended k t ht.1

theorem Sound.createExecution (h : s.Sound) {policy : PolicyId} {trigger : RunTrigger}
    {dryRun : Bool} {start : Instant}
    (hc : Change now s (.createExecution policy trigger dryRun start) reply s') : s'.Sound := by
  cases hc with
  | createExecution _ _ _ hp =>
    refine { h with executions := h.executions.add rfl, policy_of_execution := ?_,
                    execution_of_task := ?_ }
    · intro k r hr
      rw [withRun, Table.get?_insert] at hr
      split at hr
      · cases hr
        exact Option.isSome_of_eq_some hp
      · exact h.policy_of_execution k r hr
    · intro k t ht
      rw [withRun, Table.isSome_get?_insert, h.execution_of_task k t ht, Bool.or_true]

theorem Sound.createTask (h : s.Sound) {execution : ExecutionId} {repository jobId : String}
    (hc : Change now s (.createTask execution repository jobId) reply s') : s'.Sound := by
  cases hc with
  | createTask _ _ hr =>
    refine { h with tasks := h.tasks.add rfl, execution_of_task := ?_, task_ended := ?_ }
    · intro k t ht
      rw [Table.get?_insert] at ht
      split at ht
      · cases ht
        exact Option.isSome_of_eq_some hr
      · exact h.execution_of_task k t ht
    · intro k t ht
      rw [Table.get?_insert] at ht
      split at ht
      · cases ht
        rfl
      · exact h.task_ended k t ht

theorem Sound.updateTask (h : s.Sound) {report : StatusReport}
    (hc : Change now s (.updateTask report) reply s') : s'.Sound := by
  cases hc with
  | @updateTask _ old hold _ =>
    have hid : some old.id = some report.taskId := h.tasks.id_eq _ old hold
    refine { h with tasks := h.tasks.replace hold hid, execution_of_task := ?_, task_ended := ?_ }
    · intro k t ht
      rw [Table.get?_insert] at ht
      split at ht
      · cases ht
        exact h.execution_of_task _ old hold
      · exact h.execution_of_task k t ht
    · intro k t ht
      rw [Table.get?_insert] at ht
      split at ht
      · cases ht
        exact old.ended_apply report now
      · exact h.task_ended k t ht

theorem Sound.stopExecution (h : s.Sound) {id : ExecutionId}
    (hc : Change now s (.stopExecution id) reply s') : s'.Sound := by
  obtain ⟨⟩ := hc
  refine { h with tasks := h.tasks.mapValues (fun t => by rw [Task.stopOf_id]),
                  execution_of_task := ?_, task_ended := ?_ }
  · intro k t ht
    rw [Table.get?_mapValues, Option.map_eq_some_iff] at ht
    obtain ⟨old, hold, rfl⟩ := ht
    rw [Task.stopOf_executionId]
    exact h.execution_of_task k old hold
  · intro k t ht
    rw [Table.get?_mapValues, Option.map_eq_some_iff] at ht
    obtain ⟨old, hold, rfl⟩ := ht
    exact Task.ended_stopOf (h.task_ended k old hold) id now

theorem Sound.change (h : s.Sound) (hc : Change now s op reply s') : s'.Sound := by
  cases op with
  | save => exact h.save hc
  | update => exact h.update hc
  | delete => exact h.delete hc
  | createExecution => exact h.createExecution hc
  | createTask => exact h.createTask hc
  | updateTask => exact h.updateTask hc
  | stopExecution => exact h.stopExecution hc
  | getPolicy | getByProject | getExecution | listExecutions | getTask | listTasks => cases hc

theorem Sound.run (h : s.Sound) (now : Instant) (op : Operation) : (op.run now s).2.Sound := by
  rcases run_cases now s op with ⟨f, hr⟩ | ⟨r, hr, -⟩ | ⟨r, s', hr, hc⟩
  · rw [hr]
    exact h
  · rw [hr]
    exact h
  · rw [hr]
    exact h.change hc

theorem Reachable.sound (h : Reachable s) : s.Sound := by
  induction h with
  | empty => exact sound_empty
  | step _ op now ih => exact ih.run now op

end Store

end TagRetention
