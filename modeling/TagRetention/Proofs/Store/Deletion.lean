import TagRetention.Proofs.Store.Footprint
import TagRetention.Proofs.Store.Listings

/-!
The deletion of a policy. Its executions and their tasks go with it, all else is read as before, and
the project is free for a new policy, which starts without a history.
-/

namespace TagRetention.Store

variable {s s' : Store} {id k : PolicyId} {e : ExecutionId} {project : ProjectId} {p : Policy}
  {now : Instant} {op : Operation} {ops : List (Operation × Instant)}

def without (s : Store) (id : PolicyId) : Store :=
  { s with
    policies := s.policies.erase id
    executions := s.executions.retain (·.policyId != id)
    tasks := s.tasks.retain fun t => !((s.recordsOf id).map (·.id)).contains t.executionId }

theorem delete_eq (hp : s.policy? id = some p) : s.delete id = (.ok (), s.without id) := by
  rw [policy?] at hp
  rw [delete, hp]
  rfl

theorem Reachable.without (h : Reachable s) (hp : s.policy? id = some p) :
    Reachable (s.without id) := by
  have hstep := h.step (.delete id) default
  rwa [Operation.run, reply, delete_eq hp] at hstep

/-- The execution belongs to the policy. -/
def RunOf (s : Store) (id : PolicyId) (e : ExecutionId) : Prop :=
  ∃ x ∈ s.execution? e, x.policyId = id

instance (s : Store) (id : PolicyId) (e : ExecutionId) : Decidable (s.RunOf id e) :=
  inferInstanceAs (Decidable (∃ x ∈ s.execution? e, x.policyId = id))

theorem runOf_iff :
    s.RunOf id e ↔ ∃ r, s.executions.get? e = some r ∧ r.policyId = id := by
  constructor
  · rintro ⟨x, hx, hid⟩
    obtain ⟨r, hr, rfl⟩ := Option.map_eq_some_iff.mp hx
    exact ⟨r, hr, hid⟩
  · rintro ⟨r, hr, hid⟩
    exact ⟨s.fill r, Option.map_eq_some_iff.mpr ⟨r, hr, rfl⟩, hid⟩

theorem Sound.not_runOf (h : s.Sound) {r : ExecutionRecord} (hr : r ∈ s.recordsOf k) (hk : k ≠ id) :
    ¬ s.RunOf id r.id := by
  obtain ⟨hget, hpolicy⟩ := h.mem_recordsOf_iff.mp hr
  intro hrun
  obtain ⟨r', hget', hid⟩ := runOf_iff.mp hrun
  obtain rfl : r = r' := Option.some.inj (hget.symm.trans hget')
  exact hk (hpolicy.symm.trans hid)

theorem policy?_without (s : Store) (id k : PolicyId) :
    (s.without id).policy? k = if k = id then none else s.policy? k :=
  Table.get?_erase

theorem Sound.record_without (h : s.Sound) {r : ExecutionRecord} :
    (s.without id).executions.get? e = some r ↔
      s.executions.get? e = some r ∧ r.policyId ≠ id := by
  rw [Store.without, Table.get?_retain _ h.executions.sorted, Option.filter_eq_some_iff, bne_iff_ne]

theorem Sound.apart_without (h : s.Sound) : Apart (s.RunOf id) s (s.without id) :=
  h.apart_delete fun _ r hr hid => runOf_iff.mpr ⟨r, hr, hid⟩

theorem Sound.execution?_of_gone (h : s.Sound) (he : s.RunOf id e) :
    (s.without id).execution? e = none := by
  obtain ⟨r, hr, hid⟩ := runOf_iff.mp he
  rw [execution?, Option.map_eq_none_iff, Option.eq_none_iff_forall_ne_some]
  intro r' hr'
  obtain ⟨hget, hne⟩ := h.record_without.mp hr'
  obtain rfl : r = r' := Option.some.inj (hr.symm.trans hget)
  exact hne hid

theorem Sound.execution?_without (h : s.Sound) {x : Execution} :
    (s.without id).execution? e = some x ↔ s.execution? e = some x ∧ x.policyId ≠ id := by
  by_cases he : s.RunOf id e
  · rw [h.execution?_of_gone he]
    obtain ⟨y, hy, hid⟩ := he
    rw [hy]
    constructor
    · nofun
    · rintro ⟨⟨⟩, hne⟩
      exact absurd hid hne
  · rw [h.apart_without.execution e he]
    constructor
    · intro hx
      exact ⟨hx, fun hid => he ⟨x, hx, hid⟩⟩
    · exact And.left

theorem Sound.task?_without (h : s.Sound) (h' : (s.without id).Sound) {n : TaskId} {t : Task} :
    (s.without id).task? n = some t ↔ s.task? n = some t ∧ ¬ s.RunOf id t.executionId := by
  by_cases he : s.RunOf id t.executionId
  · constructor
    · intro ht
      -- the execution of a task that is left would be left too
      obtain ⟨r, hr⟩ := Option.isSome_iff_exists.mp (h'.execution_of_task n t ht)
      have hgone := h.execution?_of_gone he
      rw [execution?, hr] at hgone
      cases hgone
    · rintro ⟨-, hne⟩
      exact absurd he hne
  · rw [h.apart_without.task n t he, and_iff_left he]

theorem Sound.tasksOf_without (h : s.Sound) (he : ¬ s.RunOf id e) :
    (s.without id).tasksOf e = s.tasksOf e := by
  apply s.tasksOf_kept
  rintro r hr rfl
  obtain ⟨hget, hid⟩ := h.mem_recordsOf_iff.mp hr
  exact he (runOf_iff.mpr ⟨r, hget, hid⟩)

theorem recordsOf_without (s : Store) (hk : k ≠ id) :
    (s.without id).recordsOf k = s.recordsOf k := by
  rw [recordsOf, Store.without, Table.values_retain, List.filter_filter, recordsOf]
  apply List.filter_congr
  intro r _
  by_cases hr : r.policyId = k
  · simp [hr, hk]
  · simp [hr]

theorem Sound.runsOf_without (h : s.Sound) (hk : k ≠ id) :
    (s.without id).runsOf k = s.runsOf k := by
  rw [runsOf, runsOf, recordsOf_without s hk]
  apply List.map_congr_left
  intro r hr
  have hother := h.not_runOf (List.mem_reverse.mp hr) hk
  rw [fill, fill, h.tasksOf_without hother]

theorem listExecutions_congr (h : s'.runsOf k = s.runsOf k) (page : PageRequest) :
    s'.listExecutions k page = s.listExecutions k page := by
  cases hpage : page.fault? with
  | none => rw [listExecutions_eq _ _ hpage, listExecutions_eq _ _ hpage, h]
  | some f => simp only [listExecutions, hpage]

theorem Sound.policyOf?_without (h : s.Sound) (h' : (s.without id).Sound)
    (hother : ∀ q, s.policy? id = some q → q.scope.reference ≠ project) :
    (s.without id).policyOf? project = s.policyOf? project := by
  apply Option.ext
  intro q
  rw [h.policyOf?_eq_some_iff, h'.policyOf?_eq_some_iff]
  simp only [policy?_without]
  constructor
  · rintro ⟨k, hk, hproject⟩
    split at hk
    · cases hk
    · exact ⟨k, hk, hproject⟩
  · rintro ⟨k, hk, hproject⟩
    have hne : k ≠ id := by
      rintro rfl
      exact hother q hk hproject
    exact ⟨k, by rwa [if_neg hne], hproject⟩

/-- What is left is what is not the policy, no execution of it and no task of such an execution. -/
structure Forgets (id : PolicyId) (s s' : Store) : Prop where
  policy : ∀ k, s'.policy? k = if k = id then none else s.policy? k
  execution : ∀ e x, s'.execution? e = some x ↔ s.execution? e = some x ∧ x.policyId ≠ id
  record : ∀ e r, s'.executions.get? e = some r ↔ s.executions.get? e = some r ∧ r.policyId ≠ id
  task : ∀ n t, s'.task? n = some t ↔ s.task? n = some t ∧ ¬ s.RunOf id t.executionId
  nextId : ∀ n, s'.nextId n = s.nextId n

theorem Sound.forgets_without (h : s.Sound) (h' : (s.without id).Sound) :
    Forgets id s (s.without id) :=
  ⟨policy?_without s id, fun _ _ => h.execution?_without, fun _ _ => h.record_without,
    fun _ _ => h.task?_without h', fun n => by cases n <;> rfl⟩

/-- Whoever asks for something else gets the same answers from both stores. -/
structure AnswersAlike (id : PolicyId) (s s' : Store) : Prop where
  policy : ∀ k, k ≠ id → s'.policy? k = s.policy? k
  policyOf : ∀ project, (∀ q, s.policy? id = some q → q.scope.reference ≠ project) →
    s'.policyOf? project = s.policyOf? project
  executions : ∀ k page, k ≠ id → s'.listExecutions k page = s.listExecutions k page
  execution : ∀ e, ¬ s.RunOf id e → s'.execution? e = s.execution? e
  tasks : ∀ e page, ¬ s.RunOf id e → s'.listTasks e page = s.listTasks e page
  task : ∀ n, (∀ t, s.task? n = some t → ¬ s.RunOf id t.executionId) → s'.task? n = s.task? n

theorem Sound.answersAlike_without (h : s.Sound) (h' : (s.without id).Sound) :
    AnswersAlike id s (s.without id) := by
  refine ⟨fun k hk => ?_, fun project hother => h.policyOf?_without h' hother,
    fun k page hk => listExecutions_congr (h.runsOf_without hk) page,
    fun e he => h.apart_without.execution e he, fun e page he => ?_, fun n hn => ?_⟩
  · rw [policy?_without, if_neg hk]
  · rw [listTasks, listTasks, h.tasksOf_without he]
  · apply Option.ext
    intro t
    rw [h.task?_without h']
    exact and_iff_left_of_imp fun ht => hn t ht

/-- The operation saves a policy for the project. -/
def Operation.SavesFor (project : ProjectId) : Operation → Prop
  | .save p => p.scope.reference = project
  | _ => False

theorem Sound.policyOf?_run_eq_none (h : s.Sound) (hfree : s.policyOf? project = none)
    (hop : ¬ op.SavesFor project) : (op.run now s).2.policyOf? project = none := by
  have h' := h.run now op
  rw [policyOf?_eq_none_iff h.policies.sorted] at hfree
  rw [policyOf?_eq_none_iff h'.policies.sorted]
  rcases run_cases now s op with ⟨f, hr⟩ | ⟨_, hr, -⟩ | ⟨_, s', hr, hc⟩
  · rwa [hr]
  · rwa [hr]
  · rw [hr]
    intro k q hq
    cases hc with
    | save p =>
      rw [Table.get?_insert] at hq
      split at hq
      · cases hq
        exact hop
      · exact hfree k q hq
    | @update _ old id _ hold =>
      rw [Table.get?_insert] at hq
      split at hq
      · -- the new record keeps the project of the old one
        cases hq
        exact hfree id old hold
      · exact hfree k q hq
    | delete => exact hfree k q (Table.get?_of_erase hq)
    | createExecution | createTask | updateTask | stopExecution => exact hfree k q hq

theorem Reachable.policyOf?_after_eq_none (h : Reachable s) (hfree : s.policyOf? project = none)
    (hops : ∀ o ∈ ops, ¬ o.1.SavesFor project) : (after s ops).policyOf? project = none := by
  induction ops generalizing s with
  | nil => exact hfree
  | cons o ops ih =>
    obtain ⟨hop, hrest⟩ := List.forall_mem_cons.mp hops
    exact ih (h.step o.1 o.2) (h.sound.policyOf?_run_eq_none hfree hop) hrest

theorem Sound.policyOf?_without_eq_none (h : s.Sound) (h' : (s.without id).Sound)
    (hp : s.policy? id = some p) : (s.without id).policyOf? p.scope.reference = none := by
  rw [policyOf?_eq_none_iff h'.policies.sorted]
  intro k q hq hproject
  have hk : (s.without id).policy? k = some q := hq
  rw [policy?_without] at hk
  split at hk
  · cases hk
  · rename_i hne
    exact hne (h.one_of_project k id q p hk hp hproject)

theorem nextId_le_after (n : Numbering) (s : Store) (ops : List (Operation × Instant)) :
    s.nextId n ≤ (after s ops).nextId n := by
  obtain ⟨m, -, hnext, -⟩ := issued_eq n s ops
  omega

/-- A saved policy has an id of its own and nothing under it. -/
structure StartsAnew (s : Store) (p : Policy) : Prop where
  saved : (s.save p).1 = .ok (p.withId s.nextPolicy)
  policy : (s.save p).2.policy? s.nextPolicy = some (p.withId s.nextPolicy)
  policyOf : (s.save p).2.policyOf? p.scope.reference = some (p.withId s.nextPolicy)
  execution : ∀ e, ¬ (s.save p).2.RunOf s.nextPolicy e
  executions : ∀ page, page.fault? = none →
    (s.save p).2.listExecutions s.nextPolicy page = .ok .empty

theorem Reachable.startsAnew (h : Reachable s) (hfree : s.policyOf? p.scope.reference = none) :
    StartsAnew s p := by
  have hsaved : Reachable (s.save p).2 := h.step (.save p) default
  have hpolicy := policy?_save hfree
  have hexecutions : (s.save p).2.executions = s.executions := by
    rw [save, if_neg (by simp [hfree])]
  have hnone : ∀ r, ¬ r ∈ (s.save p).2.recordsOf s.nextPolicy := by
    intro r hr
    obtain ⟨hget, hid⟩ := hsaved.sound.mem_recordsOf_iff.mp hr
    rw [hexecutions] at hget
    have hstored := h.sound.policy_of_execution r.id r hget
    rw [hid, h.sound.policies.get?_next] at hstored
    cases hstored
  refine ⟨congrArg Prod.fst (save_eq hfree), hpolicy,
    hsaved.sound.policyOf?_eq_some_iff.mpr ⟨_, hpolicy, rfl⟩, fun e he => ?_, fun page hpage => ?_⟩
  · obtain ⟨r, hr, hid⟩ := runOf_iff.mp he
    have hkey : some r.id = some e := hsaved.sound.executions.id_eq e r hr
    exact hnone r (hsaved.sound.mem_recordsOf_iff.mpr ⟨Option.some.inj hkey ▸ hr, hid⟩)
  · have hruns : (s.save p).2.runsOf s.nextPolicy = [] := by
      rw [runsOf, List.eq_nil_iff_forall_not_mem.mpr hnone]
      rfl
    rw [listExecutions_eq _ _ hpage, hruns, PageRequest.of, PageRequest.slice]
    simp [Page.empty]

/-- A deletion takes the policy, its executions and their tasks, and nothing else. The next policy
of the project starts anew, under an id that is past all those given out before. -/
theorem policy_deleted (h : Reachable s) (hp : s.policy? id = some p) :
    (s.delete id).1 = .ok () ∧ Forgets id s (s.delete id).2 ∧ AnswersAlike id s (s.delete id).2 ∧
      ∀ ops, (∀ o ∈ ops, ¬ o.1.SavesFor p.scope.reference) →
        let later := after (s.delete id).2 ops
        id < later.nextPolicy ∧ s.nextPolicy ≤ later.nextPolicy ∧
          ∀ q, q.scope.reference = p.scope.reference → StartsAnew later q := by
  have hwithout := h.without hp
  rw [delete_eq hp]
  refine ⟨rfl, h.sound.forgets_without hwithout.sound, h.sound.answersAlike_without hwithout.sound,
    fun ops hops => ?_⟩
  have hnext : s.nextPolicy ≤ (after (s.without id) ops).nextPolicy :=
    nextId_le_after .policies (s.without id) ops
  refine ⟨Int.lt_of_lt_of_le (h.sound.policies.lt_next id p hp) hnext, hnext, fun q hq => ?_⟩
  apply (reachable_after hwithout ops).startsAnew
  rw [hq]
  exact hwithout.policyOf?_after_eq_none (h.sound.policyOf?_without_eq_none hwithout.sound hp) hops

/-- The runs and tasks of two policies, in turns. -/
def twoHistories : List (Operation × Instant) :=
  [.save (.forProject 1), .save (.forProject 2), .createExecution 1 .manual false default,
    .createExecution 2 .manual false default, .createExecution 1 .schedule true default,
    .createTask 3 "library/a" "job-1", .createTask 2 "team/b" "job-2",
    .createTask 1 "library/c" "job-3"].map (·, default)

/-- Another project gets a policy before the old one does again. -/
def otherProjectFirst : List (Operation × Instant) :=
  [.save (.forProject 3), .stopExecution 2, .createExecution 1 .manual false default].map
    (·, default)

theorem policy_deleted_between_others :
    let s := after .empty twoHistories
    let left := (s.delete 1).2
    let later := after left otherProjectFirst
    (s.delete 1).1 = .ok () ∧ (s.task? 2).isSome = true ∧ left.task? 2 = s.task? 2 ∧
      (s.task? 3).isSome = true ∧ left.task? 3 = none ∧
      left.listExecutions 2 ⟨1, 10⟩ = s.listExecutions 2 ⟨1, 10⟩ ∧
      later.nextPolicy = 4 ∧ StartsAnew later (.forProject 1) := by
  intro s left later
  obtain ⟨p, hp⟩ : ∃ p, s.policy? 1 = some p := Option.isSome_iff_exists.mp (by decide)
  have hstored : (s.policy? 1).map (·.scope.reference) = some 1 := by decide
  rw [hp] at hstored
  have hproject : p.scope.reference = 1 := Option.some.inj hstored
  have hops : ∀ o ∈ otherProjectFirst, ¬ o.1.SavesFor p.scope.reference := by
    rw [hproject]
    simp [otherProjectFirst, Operation.SavesFor, Policy.forProject]
  have hsecond : ∀ t ∈ s.task? 2, ¬ s.RunOf 1 t.executionId := by decide
  have hthird : ∀ t ∈ s.task? 3, s.RunOf 1 t.executionId := by decide
  obtain ⟨hok, hforgets, halike, hlater⟩ := policy_deleted (reachable_after .empty twoHistories) hp
  refine ⟨hok, by decide, halike.task 2 hsecond, by decide, ?_, halike.executions 2 _ (by decide),
    by decide, (hlater otherProjectFirst hops).2.2 (.forProject 1) hproject.symm⟩
  rw [Option.eq_none_iff_forall_ne_some]
  intro t ht
  obtain ⟨hbefore, hkept⟩ := (hforgets.task 3 t).mp ht
  exact hkept (hthird t hbefore)

end TagRetention.Store
