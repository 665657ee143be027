import TagRetention.Proofs.Store.Invariant

/-!
What an operation leaves alone. It works on one execution, or on those of one policy; every other
execution stays the same with all its tasks, so its status and end do too.
-/

namespace TagRetention

theorem Task.stopOf_of_ne {t : Task} {execution : ExecutionId} (h : t.executionId ≠ execution)
    (now : Instant) : t.stopOf execution now = t := by
  rw [Task.stopOf, if_neg fun hstop => h hstop.1]

namespace Store

variable {s s' s'' : Store} {E : ExecutionId → Prop} {now : Instant} {op : Operation}
  {reply : Reply}

/-- The stores agree on the executions that are not in `E`. -/
structure Apart (E : ExecutionId → Prop) (s s' : Store) : Prop where
  execution : ∀ e, ¬ E e → s'.execution? e = s.execution? e
  task : ∀ k t, ¬ E t.executionId → (s'.task? k = some t ↔ s.task? k = some t)

theorem Apart.refl (E : ExecutionId → Prop) (s : Store) : Apart E s s :=
  ⟨fun _ _ => rfl, fun _ _ _ => Iff.rfl⟩

theorem Apart.trans (h : Apart E s s') (h' : Apart E s' s'') : Apart E s s'' :=
  ⟨fun e he => (h'.execution e he).trans (h.execution e he),
    fun k t ht => (h'.task k t ht).trans (h.task k t ht)⟩

/-- The operation works on executions in `E` only. -/
def Operation.Within (E : ExecutionId → Prop) (s : Store) : Operation → Prop
  | .delete policy => ∀ e r, s.executions.get? e = some r → r.policyId = policy → E e
  | .createExecution .. => E s.nextExecution
  | .createTask execution _ _ => E execution
  | .updateTask report => ∀ t, s.tasks.get? report.taskId = some t → E t.executionId
  | .stopExecution execution => E execution
  | .save _ | .getPolicy _ | .getByProject _ | .update _ | .getExecution _ | .listExecutions _ _
  | .getTask _ | .listTasks _ _ => True

theorem Sound.execution?_congr (h : s.Sound) {e : ExecutionId}
    (hr : s'.executions.get? e = s.executions.get? e) (ht : s'.tasksOf e = s.tasksOf e) :
    s'.execution? e = s.execution? e := by
  rw [execution?, execution?, hr]
  cases hget : s.executions.get? e with
  | none => rfl
  | some r =>
    have hid : some r.id = some e := h.executions.id_eq e r hget
    simp only [Option.map_some, fill, Option.some.inj hid, ht]

theorem Sound.apart_insertTask (h : s.Sound) {k : TaskId} {t : Task} (next : TaskId)
    (ht : E t.executionId) (hold : ∀ u, s.tasks.get? k = some u → E u.executionId) :
    Apart E s { s with tasks := s.tasks.insert k t, nextTask := next } := by
  refine ⟨fun e he => h.execution?_congr rfl ?_, fun l u hu => ?_⟩
  · have hother : ∀ u : Task, E u.executionId → (u.executionId == e) = false := by
      intro u hu
      rw [beq_eq_false_iff_ne]
      rintro rfl
      exact he hu
    exact Table.filter_values_insert (hother t ht) fun u hu => hother u (hold u hu)
  · rw [task?, Table.get?_insert]
    split
    · rename_i hl
      have hnew : some t ≠ some u := by
        rintro ⟨⟩
        exact hu ht
      have hnone : s.task? l ≠ some u := fun hget => hu (hold u (hl ▸ hget))
      exact iff_of_false hnew hnone
    · exact Iff.rfl

theorem Sound.apart_newTask (h : s.Sound) {t : Task} (ht : E t.executionId) (next : TaskId) :
    Apart E s { s with tasks := s.tasks.insert s.nextTask t, nextTask := next } := by
  refine h.apart_insertTask next ht fun u hu => ?_
  rw [h.tasks.get?_next] at hu
  cases hu

theorem Sound.apart_withRun (h : s.Sound) (policy : PolicyId) (trigger : RunTrigger)
    (dryRun : Bool) (start : Instant) (hE : E s.nextExecution) :
    Apart E s (s.withRun policy trigger dryRun start) := by
  refine ⟨fun e he => h.execution?_congr ?_ rfl, fun _ _ _ => Iff.rfl⟩
  have hne : e ≠ s.nextExecution := by
    rintro rfl
    exact he hE
  rw [withRun, Table.get?_insert, if_neg hne]

theorem executionId_of_mem_tasksOf {t : Task} {e : ExecutionId} (ht : t ∈ s.tasksOf e) :
    t.executionId = e := by
  simpa using (List.mem_filter.mp ht).2

theorem tasksOf_map_stopOf (s : Store) (e execution : ExecutionId) (now : Instant) :
    ({ s with tasks := s.tasks.mapValues (·.stopOf execution now) } : Store).tasksOf e =
      (s.tasksOf e).map (·.stopOf execution now) := by
  rw [tasksOf, Table.values_mapValues, List.filter_map]
  congr 2
  funext t
  rw [Function.comp_apply, Task.stopOf_executionId]

theorem tasksOf_stopTasks (s : Store) {e execution : ExecutionId} (h : e ≠ execution)
    (now : Instant) :
    ({ s with tasks := s.tasks.mapValues (·.stopOf execution now) } : Store).tasksOf e =
      s.tasksOf e := by
  have hfixed : ∀ t ∈ s.tasksOf e, t.stopOf execution now = id t := by
    intro t ht
    exact Task.stopOf_of_ne (executionId_of_mem_tasksOf ht ▸ h) now
  rw [tasksOf_map_stopOf]
  exact (List.map_congr_left hfixed).trans (List.map_id _)

theorem Sound.apart_stopTasks (h : s.Sound) {execution : ExecutionId} (now : Instant)
    (hE : E execution) :
    Apart E s { s with tasks := s.tasks.mapValues (·.stopOf execution now) } := by
  have hne : ∀ e, ¬ E e → e ≠ execution := by
    rintro e he rfl
    exact he hE
  refine ⟨fun e he => h.execution?_congr rfl (tasksOf_stopTasks s (hne e he) now), ?_⟩
  intro k t ht
  rw [task?, task?, Table.get?_mapValues, Option.map_eq_some_iff]
  constructor
  · rintro ⟨u, hu, rfl⟩
    rw [Task.stopOf_executionId] at ht
    rwa [Task.stopOf_of_ne (hne _ ht)]
  · intro hget
    exact ⟨t, hget, Task.stopOf_of_ne (hne _ ht) now⟩

theorem tasksOf_kept (s : Store) {policy : PolicyId} {e : ExecutionId}
    (he : ∀ r ∈ s.recordsOf policy, r.id ≠ e) :
    (s.tasks.retain fun t =>
        !((s.recordsOf policy).map (·.id)).contains t.executionId).values.filter
      (·.executionId == e) = s.tasksOf e := by
  rw [tasksOf, Table.values_retain, List.filter_filter]
  apply List.filter_congr
  intro t _
  by_cases hte : t.executionId = e
  · simpa [hte] using he
  · simp [hte]

theorem Sound.apart_delete (h : s.Sound) {policy : PolicyId}
    (hE : ∀ e r, s.executions.get? e = some r → r.policyId = policy → E e) :
    Apart E s { s with
      policies := s.policies.erase policy
      executions := s.executions.retain (·.policyId != policy)
      tasks := s.tasks.retain fun t =>
        !((s.recordsOf policy).map (·.id)).contains t.executionId } := by
  have hkept : ∀ e, ¬ E e → ∀ r ∈ s.recordsOf policy, r.id ≠ e := by
    rintro e he r hr rfl
    obtain ⟨hget, hpolicy⟩ := h.mem_recordsOf_iff.mp hr
    exact he (hE _ r hget hpolicy)
  refine ⟨fun e he => h.execution?_congr ?_ ?_, fun k t ht => ?_⟩
  · rw [Table.get?_retain _ h.executions.sorted]
    cases hr : s.executions.get? e with
    | none => rfl
    | some r =>
      have hne : r.policyId ≠ policy := fun hpolicy => he (hE e r hr hpolicy)
      rw [Option.filter_some, if_pos (bne_iff_ne.mpr hne)]
  · exact s.tasksOf_kept (hkept e he)
  · rw [task?, Table.get?_retain _ h.tasks.sorted, Option.filter_eq_some_iff]
    simpa [task?] using fun _ => hkept _ ht

theorem Sound.apart_run (h : s.Sound) (now : Instant) (hop : op.Within E s) :
    Apart E s (op.run now s).2 := by
  rcases run_cases now s op with ⟨f, hr⟩ | ⟨r, hr, -⟩ | ⟨r, s', hr, hc⟩
  · rw [hr]
    exact .refl E s
  · rw [hr]
    exact .refl E s
  · rw [hr]
    cases hc with
    | save | update => exact ⟨fun _ _ => rfl, fun _ _ _ => Iff.rfl⟩
    | delete => exact h.apart_delete hop
    | createExecution trigger dryRun start => exact h.apart_withRun _ trigger dryRun start hop
    | createTask => exact h.apart_newTask hop _
    | @updateTask report old hold =>
      have ht : E (old.apply report now).executionId := hop old hold
      exact h.apart_insertTask s.nextTask ht hop
    | stopExecution => exact h.apart_stopTasks now hop

end Store

end TagRetention
