import Mathlib.Algebra.Ring.Nat
import TagRetention.Proofs.Store.History

/-!
Listings page by page. The pages of one size, put after each other, are the whole listing: nothing
is left out and nothing comes twice.
-/

namespace TagRetention

namespace PageRequest

variable {α : Type}

/-- The number of pages that the items fill; the last page may be short. -/
def pagesFor (total size : Nat) : Nat :=
  (total + (size - 1)) / size

/-- The requests for the first pages, in order. -/
def first (count size : Nat) : List PageRequest :=
  (List.range count).map fun i => ⟨i + 1, size⟩

theorem le_pagesFor_mul (total : Nat) {size : Nat} (hsize : 1 ≤ size) :
    total ≤ pagesFor total size * size := by
  have hdiv := Nat.div_add_mod (total + (size - 1)) size
  have hmod := Nat.mod_lt (total + (size - 1)) hsize
  rw [pagesFor, Nat.mul_comm]
  omega

theorem pagesFor_le {total size bound : Nat} (hsize : 1 ≤ size) (h : total ≤ size * bound) :
    pagesFor total size ≤ bound := by
  rw [pagesFor, ← Nat.lt_succ_iff, Nat.div_lt_iff_lt_mul hsize, Nat.succ_mul, Nat.mul_comm bound]
  omega

theorem fault?_of_pos {r : PageRequest} (hpage : 1 ≤ r.page) (hsize : 1 ≤ r.pageSize) :
    r.fault? = none := by
  rw [fault?, if_neg (Nat.ne_of_gt hpage), if_neg (Nat.ne_of_gt hsize)]

theorem flatMap_slice (items : List α) (count size : Nat) :
    (first count size).flatMap (·.slice items) = items.take (count * size) := by
  induction count with
  | zero => simp [first]
  | succ count ih =>
    have hlast : first (count + 1) size = first count size ++ [⟨count + 1, size⟩] := by
      simp [first, List.range_succ]
    rw [hlast, List.flatMap_append, ih, List.flatMap_singleton, Nat.succ_mul, List.take_add]
    rfl

theorem slice_of_le_offset {items : List α} {r : PageRequest} (h : items.length ≤ r.offset) :
    r.slice items = [] := by
  rw [slice, List.drop_eq_nil_of_le h, List.take_nil]

/-- The offset of a page of 32 bits is computed in 64 bits without a wrap. -/
theorem offset_toUInt64 {r : PageRequest} (hpage : r.page < 2 ^ 32) (hsize : r.pageSize < 2 ^ 32) :
    ((r.page - 1).toUInt64 * r.pageSize.toUInt64).toNat = r.offset := by
  have hle : (r.page - 1) * r.pageSize ≤ (2 ^ 32 - 1) * (2 ^ 32 - 1) :=
    Nat.mul_le_mul (by omega) (by omega)
  have hlt : (r.page - 1) * r.pageSize < 2 ^ 64 := by omega
  have hleft : (r.page - 1).toUInt64.toNat = r.page - 1 :=
    UInt64.toNat_ofNat_of_lt' (Nat.lt_trans (Nat.lt_of_le_of_lt (Nat.sub_le _ 1) hpage) (by decide))
  have hright : r.pageSize.toUInt64.toNat = r.pageSize :=
    UInt64.toNat_ofNat_of_lt' (Nat.lt_trans hsize (by decide))
  rw [UInt64.toNat_mul, hleft, hright, Nat.mod_eq_of_lt hlt, offset]

/-- What `list` answers, page by page, is exactly `items`. -/
structure Paged (list : PageRequest → Except StoreFault (Page α)) (size : Nat) (items : List α) :
    Prop where
  last_lt : pagesFor items.length size < 2 ^ 32
  total : ∀ n, 1 ≤ n → ∃ p, list ⟨n, size⟩ = .ok p ∧ p.total = items.length
  pages : ∃ ps : List (Page α), (first (pagesFor items.length size) size).map list = ps.map .ok ∧
    ps.flatMap (·.items) = items
  beyond : ∀ n, pagesFor items.length size < n → list ⟨n, size⟩ = .ok ⟨[], items.length⟩

theorem paged_of_slices {list : PageRequest → Except StoreFault (Page α)} {size : Nat}
    {items : List α} (hlist : ∀ r, r.fault? = none → list r = .ok (r.of items)) (hsize : 1 ≤ size)
    (hcount : items.length ≤ size * (2 ^ 32 - 1)) : Paged list size items := by
  have hpage : ∀ n, 1 ≤ n → list ⟨n, size⟩ = .ok (of ⟨n, size⟩ items) :=
    fun n hn => hlist ⟨n, size⟩ (fault?_of_pos hn hsize)
  have hall := le_pagesFor_mul items.length hsize
  refine ⟨?_, fun n hn => ⟨_, hpage n hn, rfl⟩,
    ⟨(first (pagesFor items.length size) size).map (·.of items), ?_, ?_⟩, fun n hn => ?_⟩
  · have := pagesFor_le hsize hcount
    omega
  · rw [List.map_map]
    apply List.map_congr_left
    intro r hr
    obtain ⟨i, -, rfl⟩ := List.mem_map.mp hr
    exact hpage (i + 1) (Nat.le_add_left 1 i)
  · rw [List.flatMap_map]
    exact (flatMap_slice items _ size).trans (List.take_of_length_le hall)
  · have hoffset : items.length ≤ offset ⟨n, size⟩ :=
      Nat.le_trans hall (Nat.mul_le_mul_right size (Nat.le_sub_one_of_lt hn))
    rw [hpage n (Nat.one_le_of_lt hn), of, slice_of_le_offset hoffset]

end PageRequest

namespace Table

theorem Numbered.pairwise_values {α : Type} {t : Table Int α} {f : α → Int} {next : Int}
    (h : t.Numbered (fun v => some (f v)) next) : t.values.Pairwise fun v w => f v < f w := by
  rw [values, List.pairwise_map]
  refine h.sorted.imp_of_mem fun {d e} hd he hlt => ?_
  have hd : f d.2 = d.1 := Option.some.inj (h.id_eq d.1 d.2 (get?_of_mem h.sorted hd))
  have he : f e.2 = e.1 := Option.some.inj (h.id_eq e.1 e.2 (get?_of_mem h.sorted he))
  rw [hd, he]
  exact Std.compare_eq_lt.mp hlt

end Table

namespace Store

variable {s : Store}

/-- The executions of a policy, the newest first. -/
def runsOf (s : Store) (policy : PolicyId) : List Execution :=
  (s.recordsOf policy).reverse.map s.fill

theorem length_runsOf (s : Store) (policy : PolicyId) :
    (s.runsOf policy).length = (s.recordsOf policy).length := by
  rw [runsOf, List.length_map, List.length_reverse]

theorem listExecutions_eq {page : PageRequest} (s : Store) (policy : PolicyId)
    (h : page.fault? = none) : s.listExecutions policy page = .ok (page.of (s.runsOf policy)) := by
  rw [PageRequest.of, length_runsOf]
  simp only [listExecutions, h, runsOf, PageRequest.slice, List.map_take, List.map_drop,
    List.length_reverse]

theorem listTasks_eq {page : PageRequest} (s : Store) (execution : ExecutionId)
    (h : page.fault? = none) : s.listTasks execution page = .ok (page.of (s.tasksOf execution)) := by
  rw [listTasks, h]

theorem Sound.pairwise_runsOf (h : s.Sound) (policy : PolicyId) :
    (s.runsOf policy).Pairwise fun e f => f.id < e.id := by
  rw [runsOf, List.pairwise_map, List.pairwise_reverse]
  exact h.executions.pairwise_values.filter _

theorem Sound.mem_runsOf_iff (h : s.Sound) {policy : PolicyId} {e : Execution} :
    e ∈ s.runsOf policy ↔ s.execution? e.id = some e ∧ e.policyId = policy := by
  rw [runsOf, List.mem_map]
  constructor
  · rintro ⟨r, hr, rfl⟩
    obtain ⟨hget, hpolicy⟩ := h.mem_recordsOf_iff.mp (List.mem_reverse.mp hr)
    exact ⟨congrArg (Option.map s.fill) hget, hpolicy⟩
  · rintro ⟨he, hpolicy⟩
    obtain ⟨r, hr, hfill⟩ := Option.map_eq_some_iff.mp he
    have hid : r.id = e.id := congrArg Execution.id hfill
    have hown : r.policyId = policy := (congrArg Execution.policyId hfill).trans hpolicy
    exact ⟨r, List.mem_reverse.mpr (h.mem_recordsOf_iff.mpr ⟨hid ▸ hr, hown⟩), hfill⟩

theorem Sound.pairwise_tasksOf (h : s.Sound) (execution : ExecutionId) :
    (s.tasksOf execution).Pairwise fun t u => t.id < u.id :=
  h.tasks.pairwise_values.filter _

theorem Sound.mem_tasksOf_iff_task? (h : s.Sound) {execution : ExecutionId} {t : Task} :
    t ∈ s.tasksOf execution ↔ s.task? t.id = some t ∧ t.executionId = execution := by
  rw [h.mem_tasksOf_iff]
  constructor
  · rintro ⟨k, hk, he⟩
    have hid : some t.id = some k := h.tasks.id_eq k t hk
    exact ⟨(Option.some.inj hid).symm ▸ hk, he⟩
  · rintro ⟨hk, he⟩
    exact ⟨t.id, hk, he⟩

/-- Page by page a listing has each of its items once: the executions of a policy from the newest
on, the tasks of an execution from the first on. -/
theorem paged_listings (h : Reachable s) :
    (∀ policy size, 1 ≤ size → (s.recordsOf policy).length ≤ size * (2 ^ 32 - 1) →
      ∃ runs : List Execution, PageRequest.Paged (s.listExecutions policy) size runs ∧
        runs.Pairwise (fun e f => f.id < e.id) ∧
        ∀ e, e ∈ runs ↔ s.execution? e.id = some e ∧ e.policyId = policy) ∧
    (∀ execution size, 1 ≤ size → (s.tasksOf execution).length ≤ size * (2 ^ 32 - 1) →
      ∃ tasks : List Task, PageRequest.Paged (s.listTasks execution) size tasks ∧
        tasks.Pairwise (fun t u => t.id < u.id) ∧
        ∀ t, t ∈ tasks ↔ s.task? t.id = some t ∧ t.executionId = execution) ∧
    ∀ r : PageRequest, r.page < 2 ^ 32 → r.pageSize < 2 ^ 32 →
      ((r.page - 1).toUInt64 * r.pageSize.toUInt64).toNat = r.offset := by
  have hsound := h.sound
  refine ⟨fun policy size hsize hcount => ?_, fun execution size hsize hcount => ?_,
    fun r hpage hsize => PageRequest.offset_toUInt64 hpage hsize⟩
  · refine ⟨s.runsOf policy, ?_, hsound.pairwise_runsOf policy, fun e => hsound.mem_runsOf_iff⟩
    rw [← length_runsOf] at hcount
    exact PageRequest.paged_of_slices (fun _ => s.listExecutions_eq policy) hsize hcount
  · refine ⟨s.tasksOf execution, ?_, hsound.pairwise_tasksOf execution,
      fun t => hsound.mem_tasksOf_iff_task?⟩
    exact PageRequest.paged_of_slices (fun _ => s.listTasks_eq execution) hsize hcount

/-- Three runs of one policy, around a run of another one that is deleted with its policy. -/
def runsAroundDeletion : List (Operation × Instant) :=
  [(.save (.forProject 1), default), (.save (.forProject 2), default),
    (.createExecution 1 .manual false default, default),
    (.createExecution 2 .manual false default, default),
    (.createExecution 1 .manual true default, default),
    (.createTask 3 "library/a" "a", default), (.createTask 3 "library/b" "b", default),
    (.delete 2, default), (.createExecution 1 .schedule false default, default)]

theorem paged_listings_of_short_page :
    let s := after .empty runsAroundDeletion
    Reachable s ∧ (s.recordsOf 1).length = 3 ∧ (s.tasksOf 3).length = 2 ∧
      (∃ runs : List Execution, PageRequest.Paged (s.listExecutions 1) 2 runs ∧ runs.length = 3) ∧
      (∃ tasks : List Task, PageRequest.Paged (s.listTasks 3) 2 tasks ∧ tasks.length = 2) ∧
      ((2 ^ 32 - 1 - 1).toUInt64 * (2 ^ 32 - 1).toUInt64).toNat =
        PageRequest.offset ⟨2 ^ 32 - 1, 2 ^ 32 - 1⟩ := by
  intro s
  have hs : Reachable s := reachable_after .empty runsAroundDeletion
  have hruns : (s.recordsOf 1).length = 3 := by decide
  have htasks : (s.tasksOf 3).length = 2 := by decide
  obtain ⟨runs, hpaged, -⟩ := (paged_listings hs).1 1 2 (by decide) (by rw [hruns]; decide)
  obtain ⟨tasks, hpaged', -⟩ := (paged_listings hs).2.1 3 2 (by decide) (by rw [htasks]; decide)
  have hlength : runs.length = 3 := by
    obtain ⟨p, hp, htotal⟩ := hpaged.total 1 (Nat.le_refl 1)
    rw [s.listExecutions_eq 1 rfl] at hp
    cases hp
    rw [← htotal, ← hruns]
    exact s.length_runsOf 1
  have hlength' : tasks.length = 2 := by
    obtain ⟨p, hp, htotal⟩ := hpaged'.total 1 (Nat.le_refl 1)
    rw [s.listTasks_eq 3 rfl] at hp
    cases hp
    rw [← htotal, ← htasks]
    rfl
  exact ⟨hs, hruns, htasks, ⟨runs, hpaged, hlength⟩, ⟨tasks, hpaged', hlength'⟩,
    (paged_listings hs).2.2 ⟨2 ^ 32 - 1, 2 ^ 32 - 1⟩ (by decide) (by decide)⟩

end Store

end TagRetention
