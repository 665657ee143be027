import TagRetention.Run.Outcome

/-!
The status of an execution as a relation to its tasks, whatever their order. When every task stays
as it is or takes a step of its lifecycle, then so does the execution.
-/

namespace TagRetention

namespace RunStatus

variable {a b : RunStatus}

/-- The status stays or takes a step of the lifecycle. -/
def Moves (a b : RunStatus) : Prop :=
  b = a ∨ a.canBecome b = true

theorem Moves.refl (a : RunStatus) : a.Moves a := .inl rfl

theorem Moves.eq_of_isTerminal (h : a.Moves b) (ha : a.isTerminal = true) : b = a := by
  rcases h with rfl | h
  · rfl
  · rw [canBecome_eq_false_of_isTerminal ha] at h
    cases h

theorem Moves.ne_pending (h : a.Moves b) (ha : a ≠ .pending) : b ≠ .pending := by
  rcases h with rfl | h
  · exact ha
  · rintro rfl
    cases a <;> cases h

theorem Moves.of_pending (h : RunStatus.pending.Moves b) : b ≠ .succeeded ∧ b ≠ .failed := by
  rcases h with rfl | h
  · decide
  · cases b <;> simp_all [canBecome]

theorem moves_pending (hs : b ≠ .succeeded) (hf : b ≠ .failed) : RunStatus.pending.Moves b := by
  cases b <;> simp_all [Moves, canBecome]

theorem moves_running (hb : b ≠ .pending) : RunStatus.running.Moves b := by
  cases b <;> simp_all [Moves, canBecome]

/-- What is under way does not go back to pending, and what is finished stays. -/
structure Onward (a b : RunStatus) : Prop where
  pending : b = .pending → a = .pending
  finished : a.isTerminal = true → b = a

theorem Moves.onward (h : a.Moves b) : a.Onward b := by
  refine ⟨fun hb => ?_, h.eq_of_isTerminal⟩
  exact Decidable.byContradiction fun ha => h.ne_pending ha hb

theorem Onward.trans {c : RunStatus} (h : a.Onward b) (h' : b.Onward c) : a.Onward c := by
  refine ⟨fun hc => h.pending (h'.pending hc), fun ha => ?_⟩
  have hb : b = a := h.finished ha
  exact (h'.finished (hb ▸ ha)).trans hb

instance : Trans Onward Onward Onward := ⟨Onward.trans⟩

theorem isTerminal_of_ne (hp : a ≠ .pending) (hr : a ≠ .running) : a.isTerminal = true := by
  cases a <;> simp_all [isTerminal]

end RunStatus

theorem Instant.mem_of_latest? {l : List Instant} {i : Instant} (h : latest? l = some i) :
    i ∈ l := by
  induction l generalizing i with
  | nil => cases h
  | cons a l ih =>
    rw [latest?] at h
    cases hl : latest? l with
    | none =>
      rw [hl] at h
      cases h
      exact List.mem_cons_self
    | some b =>
      rw [hl] at h
      cases h
      rw [later]
      split
      · exact List.mem_cons_of_mem a (ih hl)
      · exact List.mem_cons_self

namespace Outcome

variable {start start' : Instant} {tasks tasks' : List Task} {a b : RunStatus}

/-- What the tasks of an execution with this status are like. -/
inductive Sums (tasks : List Task) : RunStatus → Prop where
  | pending {t : Task} (ht : t ∈ tasks) (hall : ∀ t ∈ tasks, t.status = .pending) :
    Sums tasks .pending
  | running {t u : Task} (ht : t ∈ tasks) (hopen : t.status.isTerminal = false) (hu : u ∈ tasks)
    (hbegun : u.status ≠ .pending) : Sums tasks .running
  | stopped {t : Task} (hdone : ∀ t ∈ tasks, t.status.isTerminal = true) (ht : t ∈ tasks)
    (hstopped : t.status = .stopped) : Sums tasks .stopped
  | failed {t : Task} (hdone : ∀ t ∈ tasks, t.status.isTerminal = true) (ht : t ∈ tasks)
    (hfailed : t.status = .failed) (hnone : ∀ t ∈ tasks, t.status ≠ .stopped) : Sums tasks .failed
  | succeeded (hall : ∀ t ∈ tasks, t.status = .succeeded) : Sums tasks .succeeded

theorem countStatus_pos_iff : 0 < countStatus a tasks ↔ ∃ t ∈ tasks, t.status = a := by
  simp [countStatus, List.countP_pos_iff]

theorem countStatus_eq_length_iff :
    countStatus a tasks = tasks.length ↔ ∀ t ∈ tasks, t.status = a := by
  simp [countStatus, List.countP_eq_length]

theorem countStatus_lt_length_iff :
    countStatus a tasks < tasks.length ↔ ∃ t ∈ tasks, t.status ≠ a := by
  have hle : countStatus a tasks ≤ tasks.length := List.countP_le_length
  rw [Nat.lt_iff_le_and_ne, and_iff_right hle, Ne, countStatus_eq_length_iff]
  simp

theorem sums_finalStatus (hdone : ∀ t ∈ tasks, t.status.isTerminal = true) :
    Sums tasks (finalStatus tasks) := by
  unfold finalStatus
  split
  · rename_i hstopped
    obtain ⟨t, ht, hs⟩ := countStatus_pos_iff.1 hstopped
    exact .stopped hdone ht hs
  · rename_i hstopped
    have hnone : ∀ t ∈ tasks, t.status ≠ .stopped := by
      intro t ht hs
      exact hstopped (countStatus_pos_iff.2 ⟨t, ht, hs⟩)
    split
    · rename_i hfailed
      obtain ⟨t, ht, hs⟩ := countStatus_pos_iff.1 hfailed
      exact .failed hdone ht hs hnone
    · rename_i hfailed
      refine .succeeded fun t ht => ?_
      have hnofail : t.status ≠ .failed := fun hs => hfailed (countStatus_pos_iff.2 ⟨t, ht, hs⟩)
      have hd := hdone t ht
      have hns := hnone t ht
      cases hs : t.status <;> simp_all [RunStatus.isTerminal]

theorem sums_status (start : Instant) (tasks : List Task) :
    Sums tasks (ofTasks start tasks).status := by
  cases tasks with
  | nil => exact .succeeded (by simp)
  | cons d rest =>
    unfold ofTasks
    rw [if_neg (by simp)]
    generalize hl : d :: rest = l
    have hd : d ∈ l := by simp [← hl]
    split
    · rename_i hrun
      rw [countStatus_pos_iff, countStatus_pos_iff, countStatus_lt_length_iff] at hrun
      rcases hrun with ⟨t, ht, hs⟩ | ⟨⟨t, ht, hs⟩, u, hu, hne⟩
      · exact .running ht (by rw [hs]; rfl) ht (by rw [hs]; decide)
      · exact .running ht (by rw [hs]; rfl) hu hne
    · rename_i hrun
      rw [countStatus_pos_iff, countStatus_pos_iff, countStatus_lt_length_iff] at hrun
      split
      · rename_i hall
        exact .pending hd (countStatus_eq_length_iff.1 hall)
      · rename_i hall
        have hlt : countStatus .pending l < l.length :=
          Nat.lt_of_le_of_ne List.countP_le_length hall
        refine sums_finalStatus fun t ht => ?_
        have hnorun : t.status ≠ .running := fun hs => hrun (.inl ⟨t, ht, hs⟩)
        have hnopend : t.status ≠ .pending := fun hs =>
          hrun (.inr ⟨⟨t, ht, hs⟩, countStatus_lt_length_iff.1 hlt⟩)
        exact RunStatus.isTerminal_of_ne hnopend hnorun

theorem Sums.unique (h : Sums tasks a) (h' : Sums tasks b) : a = b := by
  cases h <;> cases h' <;> grind [RunStatus.isTerminal]

theorem Sums.done (h : Sums tasks a) (ha : a.isTerminal = true) :
    ∀ t ∈ tasks, t.status.isTerminal = true := by
  cases h with
  | pending | running => cases ha
  | stopped hdone | failed hdone => exact hdone
  | succeeded hall =>
    intro t ht
    rw [hall t ht]
    rfl

theorem status_eq_iff : (ofTasks start tasks).status = a ↔ Sums tasks a := by
  constructor
  · rintro rfl
    exact sums_status start tasks
  · exact (sums_status start tasks).unique

/-- An execution ends when it started or when one of its tasks ended. -/
theorem endTime_cases {i : Instant} (h : (ofTasks start tasks).endTime = some i) :
    i = start ∨ ∃ t ∈ tasks, t.endTime = some i := by
  simp only [ofTasks] at h
  split at h
  · exact .inl (Option.some.inj h).symm
  split at h
  · cases h
  split at h
  · cases h
  cases hl : Instant.latest? (tasks.filterMap (·.endTime)) with
  | none =>
    rw [hl] at h
    exact .inl (Option.some.inj h).symm
  | some a =>
    rw [hl] at h
    cases h
    exact .inr (List.mem_filterMap.mp (Instant.mem_of_latest? hl))

/-- Every task of the first list has a successor in the second, and every task of the second a
predecessor in the first. -/
structure Follows (tasks tasks' : List Task) : Prop where
  succ : ∀ t ∈ tasks, ∃ u ∈ tasks', t.status.Moves u.status
  pred : ∀ u ∈ tasks', ∃ t ∈ tasks, t.status.Moves u.status

namespace Follows

theorem pending (h : Follows tasks tasks') (hs : Sums tasks .pending) (hb : Sums tasks' b) :
    RunStatus.pending.Moves b := by
  obtain @⟨t, ht, hall⟩ := hs
  have hfirst : ∀ u ∈ tasks', u.status ≠ .succeeded ∧ u.status ≠ .failed := by
    intro u hu
    obtain ⟨t, ht, hmove⟩ := h.pred u hu
    rw [hall t ht] at hmove
    exact hmove.of_pending
  obtain ⟨u, hu, -⟩ := h.succ t ht
  apply RunStatus.moves_pending
  · rintro rfl
    cases hb with
    | succeeded hsucc => exact (hfirst u hu).1 (hsucc u hu)
  · rintro rfl
    cases hb with
    | failed _ hv hfailed => exact (hfirst _ hv).2 hfailed

theorem running (h : Follows tasks tasks') (hs : Sums tasks .running) (hb : Sums tasks' b) :
    RunStatus.running.Moves b := by
  cases hs with
  | running _ _ ht hbegun =>
    obtain ⟨u, hu, hmove⟩ := h.succ _ ht
    apply RunStatus.moves_running
    rintro rfl
    cases hb with
    | pending _ hall => exact hmove.ne_pending hbegun (hall u hu)

theorem terminal (h : Follows tasks tasks') (hs : Sums tasks a) (ha : a.isTerminal = true) :
    Sums tasks' a := by
  have hdone : ∀ t ∈ tasks, t.status.isTerminal = true := hs.done ha
  have hsucc : ∀ t ∈ tasks, ∃ u ∈ tasks', u.status = t.status := by
    intro t ht
    obtain ⟨u, hu, hmove⟩ := h.succ t ht
    exact ⟨u, hu, hmove.eq_of_isTerminal (hdone t ht)⟩
  have hpred : ∀ u ∈ tasks', ∃ t ∈ tasks, u.status = t.status := by
    intro u hu
    obtain ⟨t, ht, hmove⟩ := h.pred u hu
    exact ⟨t, ht, hmove.eq_of_isTerminal (hdone t ht)⟩
  have hdone' : ∀ u ∈ tasks', u.status.isTerminal = true := by
    intro u hu
    obtain ⟨t, ht, heq⟩ := hpred u hu
    exact heq ▸ hdone t ht
  cases hs with
  | pending | running => cases ha
  | stopped _ ht hstopped =>
    obtain ⟨u, hu, heq⟩ := hsucc _ ht
    exact .stopped hdone' hu (heq.trans hstopped)
  | failed _ ht hfailed hnone =>
    obtain ⟨u, hu, heq⟩ := hsucc _ ht
    refine .failed hdone' hu (heq.trans hfailed) fun v hv => ?_
    obtain ⟨t, ht, hvt⟩ := hpred v hv
    exact hvt ▸ hnone t ht
  | succeeded hall =>
    refine .succeeded fun v hv => ?_
    obtain ⟨t, ht, hvt⟩ := hpred v hv
    exact hvt.trans (hall t ht)

theorem moves (h : Follows tasks tasks') :
    (ofTasks start tasks).status.Moves (ofTasks start' tasks').status := by
  have hs' := sums_status start' tasks'
  cases ha : (ofTasks start tasks).status with
  | pending => exact h.pending (status_eq_iff.1 ha) hs'
  | running => exact h.running (status_eq_iff.1 ha) hs'
  | succeeded | failed | stopped =>
    have hdone := h.terminal (status_eq_iff.1 ha) rfl
    exact .inl (hs'.unique hdone)

end Follows

end Outcome

end TagRetention
