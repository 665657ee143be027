import Mathlib.Data.List.Nodup
import TagRetention.Proofs.Launcher.Targets

/-!
The repositories of a run, each once, in the order in which the rules of the policy first name them.
-/

namespace TagRetention

section Distinct

variable {α : Type} [DecidableEq α] {a b : α} {l : List α}

theorem nodup_distinct (l : List α) : (distinct l).Nodup := by
  induction l with
  | nil => exact List.nodup_nil
  | cons a l ih =>
    rw [distinct, List.nodup_cons]
    refine ⟨?_, ih.filter _⟩
    simp

theorem distinct_filter (p : α → Bool) (l : List α) :
    distinct (l.filter p) = (distinct l).filter p := by
  induction l with
  | nil => rfl
  | cons a l ih =>
    by_cases ha : p a = true
    · rw [List.filter_cons_of_pos ha, distinct, distinct, List.filter_cons_of_pos ha, ih,
        List.filter_filter, List.filter_filter]
      congr 1
      exact List.filter_congr fun b _ => Bool.and_comm _ _
    -- what fails the test is gone either way, so taking it out once more changes nothing
    · rw [List.filter_cons_of_neg ha, distinct, List.filter_cons_of_neg ha, ih, List.filter_filter]
      apply List.filter_congr
      intro b _
      by_cases hb : b = a
      · simp [hb, ha]
      · simp [hb]

theorem distinct_eq_eraseDups : ∀ l : List α, distinct l = l.eraseDups
  | [] => rfl
  | a :: l => by
    have hfilter : l.filter (· ≠ a) = l.filter fun b => !b == a :=
      List.filter_congr fun b _ => Bool.eq_iff_iff.mpr (by simp)
    rw [distinct, List.eraseDups_cons, ← distinct_filter, hfilter, distinct_eq_eraseDups]
termination_by l => l.length
decreasing_by exact Nat.lt_succ_of_le (List.length_filter_le _ _)

theorem pairwise_idxOf_distinct (l : List α) :
    (distinct l).Pairwise fun a b => l.idxOf a < l.idxOf b := by
  induction l with
  | nil => exact .nil
  | cons a l ih =>
    have hne : ∀ b ∈ (distinct l).filter (· ≠ a), (a :: l).idxOf b = l.idxOf b + 1 := by
      intro b hb
      have hba : a ≠ b := fun h => by simp [h] at hb
      exact List.idxOf_cons_ne l hba
    rw [distinct, List.pairwise_cons]
    constructor
    · intro b hb
      rw [hne b hb, List.idxOf_cons_self]
      exact Nat.succ_pos _
    · apply (ih.filter _).imp_of_mem
      intro b c hb hc hlt
      rw [hne b hb, hne c hc]
      exact Nat.succ_lt_succ hlt

end Distinct

namespace Policy

variable {p : Policy} {t : String}

def named (p : Policy) : List String :=
  p.selecting.flatMap Rule.repositories

/-- The list has each repository once that an enabled rule names, in the order of first mention. -/
structure Selects (p : Policy) (l : List String) : Prop where
  nodup : l.Nodup
  mem_iff : ∀ t, t ∈ l ↔ t ≠ "" ∧ ∃ r ∈ p.rules, r.disabled = false ∧
    r.repository.decoration = .repoMatches ∧ ∃ v ∈ Pattern.decode r.repository.pattern,
      t = Text.trim v
  ordered : l.Pairwise fun t u => p.named.idxOf t < p.named.idxOf u

theorem mem_repositories {r : Rule} :
    t ∈ r.repositories ↔ t ≠ "" ∧ ∃ v ∈ Pattern.decode r.repository.pattern, t = Text.trim v := by
  rw [Rule.repositories, List.mem_filter, List.mem_map, decide_eq_true_eq, and_comm]
  simp only [eq_comm]

theorem mem_selecting {r : Rule} :
    r ∈ p.selecting ↔
      r ∈ p.rules ∧ r.disabled = false ∧ r.repository.decoration = .repoMatches := by
  simp [selecting]

theorem selects_targets (p : Policy) : p.Selects p.targets := by
  refine ⟨nodup_distinct _, fun t => ?_, pairwise_idxOf_distinct p.named⟩
  rw [mem_targets]
  constructor
  · rintro ⟨r, hr, ht⟩
    obtain ⟨hmem, hon, hmatch⟩ := mem_selecting.mp hr
    obtain ⟨hne, v, hv, rfl⟩ := mem_repositories.mp ht
    exact ⟨hne, r, hmem, hon, hmatch, v, hv, rfl⟩
  · rintro ⟨hne, r, hmem, hon, hmatch, v, hv, rfl⟩
    exact ⟨r, mem_selecting.mpr ⟨hmem, hon, hmatch⟩, mem_repositories.mpr ⟨hne, v, hv, rfl⟩⟩

end Policy

end TagRetention
