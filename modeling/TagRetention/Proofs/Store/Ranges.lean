import TagRetention.Proofs.Store.Listings
import TagRetention.Proofs.Text.Numeral

/-!
The sizes of the numbers in a store. Ids count up from one, so a counter of 64 bits bounds the ids
and the number of records as well.
-/

namespace TagRetention

namespace Table

variable {α : Type} {t : Table Int α} {next : Int} {k : Int} {v : α}

/-- The keys begin at one, and so does the counter. -/
structure FromOne (t : Table Int α) (next : Int) : Prop where
  key : ∀ k v, t.get? k = some v → 1 ≤ k
  next : 1 ≤ next

namespace FromOne

theorem nil : FromOne ([] : Table Int α) 1 :=
  ⟨by simp [get?], Int.le_refl 1⟩

theorem add (h : t.FromOne next) (v : α) : (t.insert next v).FromOne (next + 1) := by
  refine ⟨fun k w hw => ?_, Int.le_add_one h.next⟩
  rw [get?_insert] at hw
  split at hw
  · rename_i hk
    exact hk ▸ h.next
  · exact h.key k w hw

theorem replace (h : t.FromOne next) {old : α} (hold : t.get? k = some old) (v : α) :
    (t.insert k v).FromOne next := by
  refine ⟨fun l w hw => ?_, h.next⟩
  rw [get?_insert] at hw
  split at hw
  · rename_i hl
    exact hl ▸ h.key k old hold
  · exact h.key l w hw

theorem of_get? (h : t.FromOne next) {β : Type} {u : Table Int β}
    (hu : ∀ k, (u.get? k).isSome → (t.get? k).isSome) : u.FromOne next := by
  refine ⟨fun k w hw => ?_, h.next⟩
  obtain ⟨v, hv⟩ := Option.isSome_iff_exists.mp (hu k (Option.isSome_of_eq_some hw))
  exact h.key k v hv

theorem erase (h : t.FromOne next) (k : Int) : (t.erase k).FromOne next := by
  refine h.of_get? fun l hl => ?_
  obtain ⟨v, hv⟩ := Option.isSome_iff_exists.mp hl
  exact Option.isSome_of_eq_some (get?_of_erase hv)

theorem retain (h : t.FromOne next) (hs : t.Sorted) (p : α → Bool) : (t.retain p).FromOne next := by
  refine h.of_get? fun l hl => ?_
  rw [get?_retain p hs, Option.isSome_filter] at hl
  exact Option.isSome_of_any hl

theorem mapValues (h : t.FromOne next) (f : α → α) : (t.mapValues f).FromOne next := by
  refine h.of_get? fun l hl => ?_
  rwa [get?_mapValues, Option.isSome_map] at hl

end FromOne

theorem length_le_of_sorted {lo hi : Int} (hs : t.Sorted) (hle : lo ≤ hi)
    (h : ∀ e ∈ t, lo ≤ e.1 ∧ e.1 < hi) : (t.length : Int) ≤ hi - lo := by
  induction t generalizing lo with
  | nil =>
    simp only [List.length_nil]
    omega
  | cons e t ih =>
    obtain ⟨hfirst, hs⟩ := List.pairwise_cons.mp hs
    obtain ⟨hlo, hhi⟩ := h e List.mem_cons_self
    have hrest : ∀ d ∈ t, e.1 + 1 ≤ d.1 ∧ d.1 < hi := by
      intro d hd
      have hlt : e.1 < d.1 := Std.compare_eq_lt.mp (hfirst d hd)
      exact ⟨hlt, (h d (List.mem_cons_of_mem e hd)).2⟩
    have := ih hs (by omega) hrest
    rw [List.length_cons]
    omega

/-- There are fewer records than the counter says. -/
theorem FromOne.length_lt {idOf : α → Option Int} (h : t.FromOne next)
    (hn : t.Numbered idOf next) : (t.length : Int) < next := by
  have hle := length_le_of_sorted hn.sorted h.next fun e he => by
    have hget := get?_of_mem hn.sorted he
    exact ⟨h.key e.1 e.2 hget, hn.lt_next e.1 e.2 hget⟩
  omega

end Table

namespace Store

variable {s : Store} {op : Operation} {now : Instant} {reply : Reply} {s' : Store}

structure Counted (s : Store) : Prop where
  policies : s.policies.FromOne s.nextPolicy
  executions : s.executions.FromOne s.nextExecution
  tasks : s.tasks.FromOne s.nextTask

theorem Change.counted (hc : Change now s op reply s') (hs : s.Sound) (h : s.Counted) :
    s'.Counted := by
  cases hc with
  | save p free => exact { h with policies := h.policies.add _ }
  | update hid hold => exact { h with policies := h.policies.replace hold _ }
  | @delete id =>
    exact ⟨h.policies.erase id, h.executions.retain hs.executions.sorted (·.policyId != id),
      h.tasks.retain hs.tasks.sorted fun t =>
        !((s.recordsOf id).map (·.id)).contains t.executionId⟩
  | createExecution => exact { h with executions := h.executions.add _ }
  | createTask => exact { h with tasks := h.tasks.add _ }
  | updateTask hold => exact { h with tasks := h.tasks.replace hold _ }
  | @stopExecution id => exact { h with tasks := h.tasks.mapValues (·.stopOf id now) }

theorem Reachable.counted (h : Reachable s) : s.Counted := by
  induction h with
  | empty => exact ⟨.nil, .nil, .nil⟩
  | @step s hs op now ih =>
    rcases run_cases now s op with ⟨f, hr⟩ | ⟨r, hr, -⟩ | ⟨r, s', hr, hc⟩
    · rwa [hr]
    · rwa [hr]
    · rw [hr]
      exact hc.counted hs.sound ih

/-- The counters have 64 bits, one of them for the sign. -/
structure Bounded (s : Store) : Prop where
  policies : Fits 63 s.nextPolicy
  executions : Fits 63 s.nextExecution
  tasks : Fits 63 s.nextTask

theorem fits_of_lt {k next : Int} (hb : Fits 63 next) (hle : 1 ≤ k) (hlt : k < next) : Fits 63 k :=
  ⟨by omega, Int.lt_trans hlt hb.2⟩

theorem length_lt_of_bounded {n : Nat} {next : Int} (hb : Fits 63 next) (h : (n : Int) < next) :
    n < 2 ^ 64 := by
  have := hb.2
  omega

theorem Reachable.fits_policyId (h : Reachable s) (hb : s.Bounded) {id : PolicyId} {p : Policy}
    (hp : s.policy? id = some p) : Fits 63 id :=
  fits_of_lt hb.policies (h.counted.policies.key id p hp) (h.sound.policies.lt_next id p hp)

theorem Reachable.fits_executionId (h : Reachable s) (hb : s.Bounded) {e : ExecutionId}
    {r : ExecutionRecord} (hr : s.executions.get? e = some r) : Fits 63 e :=
  fits_of_lt hb.executions (h.counted.executions.key e r hr) (h.sound.executions.lt_next e r hr)

theorem Reachable.fits_taskId (h : Reachable s) (hb : s.Bounded) {k : TaskId} {t : Task}
    (ht : s.tasks.get? k = some t) : Fits 63 k :=
  fits_of_lt hb.tasks (h.counted.tasks.key k t ht) (h.sound.tasks.lt_next k t ht)

theorem Reachable.length_runsOf_lt (h : Reachable s) (hb : s.Bounded) (policy : PolicyId) :
    (s.runsOf policy).length < 2 ^ 64 := by
  have hle : (s.recordsOf policy).length ≤ s.executions.length := by
    have hvalues : s.executions.values.length = s.executions.length := List.length_map _
    exact hvalues ▸ List.length_filter_le _ _
  have hlt := h.counted.executions.length_lt h.sound.executions
  rw [length_runsOf]
  exact length_lt_of_bounded hb.executions (by omega)

theorem Reachable.length_tasksOf_lt (h : Reachable s) (hb : s.Bounded) (e : ExecutionId) :
    (s.tasksOf e).length < 2 ^ 64 := by
  have hle : (s.tasksOf e).length ≤ s.tasks.length := by
    have hvalues : s.tasks.values.length = s.tasks.length := List.length_map _
    exact hvalues ▸ List.length_filter_le _ _
  have hlt := h.counted.tasks.length_lt h.sound.tasks
  exact length_lt_of_bounded hb.tasks (by omega)

end Store

end TagRetention
