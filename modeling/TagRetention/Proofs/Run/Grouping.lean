import TagRetention.Proofs.Run.Outcome

/-!
Outcomes of tasks taken in groups. What two groups come to as one is told by what each comes to, so
neither the order of the tasks nor the way they are grouped matters.
-/

namespace TagRetention

namespace Instant

variable {l m : List Instant}

theorem later_comm (a b : Instant) : a.later b = b.later a := by
  by_cases hab : a.le b = true <;> by_cases hba : b.le a = true
  · rw [le_antisymm hab hba]
  · simp [later, hab, hba]
  · simp [later, hab, hba]
  · exact absurd le_total (not_or.mpr ⟨hab, hba⟩)

theorem later_assoc (a b c : Instant) : (a.later b).later c = a.later (b.later c) := by
  by_cases hab : a.le b = true <;> by_cases hbc : b.le c = true
  · have hac : a.le c = true := le_trans hab hbc
    simp [later, hab, hbc, hac]
  · simp [later, hab, hbc]
  · simp [later, hab, hbc]
  · -- then `a` comes after `b` and `b` after `c`
    have hba : b.le a = true := le_total.resolve_left hab
    have hac : ¬ a.le c = true := fun hac => hbc (le_trans hba hac)
    simp [later, hab, hbc, hac]

instance : Std.Commutative later := ⟨later_comm⟩

instance : Std.Associative later := ⟨later_assoc⟩

theorem latest?_cons (a : Instant) (l : List Instant) :
    latest? (a :: l) = Option.merge later (some a) (latest? l) := by
  rw [latest?]
  cases latest? l <;> rfl

theorem latest?_append : latest? (l ++ m) = Option.merge later (latest? l) (latest? m) := by
  induction l with
  | nil => simp [latest?]
  | cons a l ih =>
    rw [List.cons_append, latest?_cons, latest?_cons, ih, (Option.associative_merge later).assoc]

theorem latest?_perm (h : l.Perm m) : latest? l = latest? m := by
  induction h with
  | nil => rfl
  | cons a _ ih => rw [latest?_cons, latest?_cons, ih]
  | swap a b l =>
    have hassoc := (Option.associative_merge later).assoc
    simp only [latest?_cons, ← hassoc, Option.merge_some_some, later_comm a b]
  | trans _ _ ih ih' => exact ih.trans ih'

theorem exists_latest? (h : l ≠ []) : ∃ i, latest? l = some i := by
  cases l with
  | nil => exact absurd rfl h
  | cons a l =>
    rw [latest?_cons]
    cases latest? l with
    | none => exact ⟨a, rfl⟩
    | some b => exact ⟨a.later b, rfl⟩

end Instant

namespace RunStatus

/-- A stop outranks a failure, and a failure success. -/
def severity : RunStatus → Nat
  | .stopped => 2
  | .failed => 1
  | _ => 0

def graver (a b : RunStatus) : RunStatus :=
  if a.severity < b.severity then b else a

def together (a b : RunStatus) : RunStatus :=
  if a = .pending ∧ b = .pending then .pending
  else if a.isTerminal = true ∧ b.isTerminal = true then a.graver b
  else .running

theorem together_comm (a b : RunStatus) : a.together b = b.together a := by
  cases a <;> cases b <;> rfl

theorem together_assoc (a b c : RunStatus) :
    (a.together b).together c = a.together (b.together c) := by
  cases a <;> cases b <;> cases c <;> rfl

theorem isTerminal_together (a b : RunStatus) :
    (a.together b).isTerminal = (a.isTerminal && b.isTerminal) := by
  cases a <;> cases b <;> rfl

end RunStatus

namespace Outcome

attribute [ext] Outcome

variable {start : Instant} {A B tasks : List Task} {a b : RunStatus} {t : Task}

/-- What two groups of tasks come to as one. They end, once both have ended, with the later one. -/
def together (o p : Outcome) : Outcome :=
  ⟨o.status.together p.status,
    if o.status.isTerminal && p.status.isTerminal then
      Option.merge Instant.later o.endTime p.endTime
    else none⟩

theorem together_comm (o p : Outcome) : o.together p = p.together o := by
  have hcomm := (Option.commutative_merge Instant.later).comm
  simp only [together, RunStatus.together_comm o.status, Bool.and_comm o.status.isTerminal,
    hcomm o.endTime]

theorem together_assoc (o p q : Outcome) :
    (o.together p).together q = o.together (p.together q) := by
  have hassoc := (Option.associative_merge Instant.later).assoc
  simp only [together, RunStatus.together_assoc, RunStatus.isTerminal_together, mk.injEq, true_and]
  by_cases ho : o.status.isTerminal = true <;> by_cases hp : p.status.isTerminal = true <;>
    by_cases hq : q.status.isTerminal = true <;> simp [ho, hp, hq, hassoc]

theorem Sums.exists_open (h : Sums tasks a) (ha : ¬ a.isTerminal = true) :
    ∃ t ∈ tasks, t.status.isTerminal = false := by
  cases h with
  | pending ht hall => exact ⟨_, ht, by rw [hall _ ht]; rfl⟩
  | running ht hopen => exact ⟨_, ht, hopen⟩
  | stopped | failed | succeeded => exact absurd rfl ha

theorem Sums.exists_begun (h : Sums tasks a) (hne : tasks ≠ []) (ha : a ≠ .pending) :
    ∃ t ∈ tasks, t.status ≠ .pending := by
  cases h with
  | pending => exact absurd rfl ha
  | running _ _ hu hbegun => exact ⟨_, hu, hbegun⟩
  | stopped _ ht hs | failed _ ht hs => exact ⟨_, ht, by rw [hs]; decide⟩
  | succeeded hall =>
    obtain ⟨t, ht⟩ := List.exists_mem_of_ne_nil tasks hne
    exact ⟨t, ht, by rw [hall t ht]; decide⟩

theorem finalStatus_append (A B : List Task) :
    finalStatus (A ++ B) = (finalStatus A).graver (finalStatus B) := by
  simp only [finalStatus, countStatus, List.countP_append, Nat.add_pos_iff_pos_or_pos]
  by_cases hA : 0 < A.countP (·.status == .stopped) <;>
    by_cases hB : 0 < B.countP (·.status == .stopped) <;>
    by_cases hA' : 0 < A.countP (·.status == .failed) <;>
    by_cases hB' : 0 < B.countP (·.status == .failed) <;>
    simp only [hA, hB, hA', hB', or_true, true_or, or_self, if_true, if_false] <;> rfl

theorem exists_append {p : Task → Prop} (h : (∃ t ∈ A, p t) ∨ ∃ t ∈ B, p t) :
    ∃ t ∈ A ++ B, p t := by
  rcases h with ⟨t, ht, hp⟩ | ⟨t, ht, hp⟩
  · exact ⟨t, List.mem_append_left B ht, hp⟩
  · exact ⟨t, List.mem_append_right A ht, hp⟩

theorem Sums.append_pending (hA : Sums A .pending) (hB : Sums B .pending) :
    Sums (A ++ B) .pending := by
  cases hA with
  | pending ht hallA =>
    cases hB with
    | pending _ hallB =>
      exact .pending (List.mem_append_left B ht) (List.forall_mem_append.mpr ⟨hallA, hallB⟩)

theorem Sums.append_done (ha : Sums A a) (hb : Sums B b) (hdoneA : a.isTerminal = true)
    (hdoneB : b.isTerminal = true) : Sums (A ++ B) (a.graver b) := by
  have hfinalA : a = finalStatus A := ha.unique (sums_finalStatus (ha.done hdoneA))
  have hfinalB : b = finalStatus B := hb.unique (sums_finalStatus (hb.done hdoneB))
  rw [hfinalA, hfinalB, ← finalStatus_append]
  apply sums_finalStatus
  exact List.forall_mem_append.mpr ⟨ha.done hdoneA, hb.done hdoneB⟩

theorem Sums.append (hA : A ≠ []) (hB : B ≠ []) (ha : Sums A a) (hb : Sums B b) :
    Sums (A ++ B) (a.together b) := by
  rw [RunStatus.together]
  split
  · rename_i hpending
    obtain ⟨rfl, rfl⟩ := hpending
    exact ha.append_pending hb
  rename_i hpending
  split
  · rename_i hdone
    exact ha.append_done hb hdone.1 hdone.2
  · rename_i hdone
    -- some task is not done, and some task, maybe another, is no longer pending
    obtain ⟨t, ht, hopen⟩ : ∃ t ∈ A ++ B, t.status.isTerminal = false := by
      apply exists_append
      exact (Decidable.not_and_iff_not_or_not.mp hdone).imp ha.exists_open hb.exists_open
    obtain ⟨u, hu, hbegun⟩ : ∃ u ∈ A ++ B, u.status ≠ .pending := by
      apply exists_append
      exact (Decidable.not_and_iff_not_or_not.mp hpending).imp (ha.exists_begun hA)
        (hb.exists_begun hB)
    exact .running ht hopen hu hbegun

/-- Every finished task has an end. -/
def Ended (tasks : List Task) : Prop :=
  ∀ t ∈ tasks, t.status.isTerminal = true → t.endTime.isSome = true

instance (tasks : List Task) : Decidable (Ended tasks) :=
  inferInstanceAs (Decidable (∀ t ∈ tasks, t.status.isTerminal = true → t.endTime.isSome = true))

theorem isTerminal_finalStatus (tasks : List Task) : (finalStatus tasks).isTerminal = true := by
  unfold finalStatus
  split
  · rfl
  · split <;> rfl

theorem endTime_eq (start : Instant) (tasks : List Task) :
    (ofTasks start tasks).endTime =
      if (ofTasks start tasks).status.isTerminal then
        some ((Instant.latest? (tasks.filterMap (·.endTime))).getD start)
      else none := by
  by_cases hnil : tasks = []
  · rw [hnil]
    rfl
  simp only [ofTasks, List.isEmpty_iff, if_neg hnil]
  split
  · rfl
  split
  · rfl
  · rw [isTerminal_finalStatus]
    rfl

theorem isSome_endTime (start : Instant) (tasks : List Task) :
    (ofTasks start tasks).endTime.isSome = (ofTasks start tasks).status.isTerminal := by
  rw [endTime_eq]
  by_cases hdone : (ofTasks start tasks).status.isTerminal = true <;> simp [hdone]

/-- The start is of no account once tasks with ends are there. -/
theorem endTime_of_ended (hne : tasks ≠ []) (hended : Ended tasks)
    (hdone : (ofTasks start tasks).status.isTerminal = true) :
    (ofTasks start tasks).endTime = Instant.latest? (tasks.filterMap (·.endTime)) := by
  obtain ⟨t, ht⟩ := List.exists_mem_of_ne_nil tasks hne
  have hend := hended t ht ((sums_status start tasks).done hdone t ht)
  obtain ⟨i, hi⟩ := Option.isSome_iff_exists.mp hend
  have hends : tasks.filterMap (·.endTime) ≠ [] :=
    List.ne_nil_of_mem (List.mem_filterMap.mpr ⟨t, ht, hi⟩)
  obtain ⟨j, hj⟩ := Instant.exists_latest? hends
  rw [endTime_eq, if_pos hdone, hj, Option.getD_some]

theorem Ended.append (hA : Ended A) (hB : Ended B) : Ended (A ++ B) :=
  List.forall_mem_append.mpr ⟨hA, hB⟩

theorem status_append (start : Instant) (hA : A ≠ []) (hB : B ≠ []) :
    (ofTasks start (A ++ B)).status =
      (ofTasks start A).status.together (ofTasks start B).status :=
  status_eq_iff.mpr ((sums_status start A).append hA hB (sums_status start B))

theorem ofTasks_append (hA : A ≠ []) (hB : B ≠ []) (hendA : Ended A) (hendB : Ended B) :
    ofTasks start (A ++ B) = (ofTasks start A).together (ofTasks start B) := by
  have hstatus := status_append start hA hB
  apply Outcome.ext hstatus
  by_cases hdone : (ofTasks start (A ++ B)).status.isTerminal = true
  · have hboth := hdone
    rw [hstatus, RunStatus.isTerminal_together, Bool.and_eq_true] at hboth
    obtain ⟨hdoneA, hdoneB⟩ := hboth
    have hne : A ++ B ≠ [] := List.append_ne_nil_of_left_ne_nil hA B
    rw [endTime_of_ended hne (hendA.append hendB) hdone, List.filterMap_append,
      Instant.latest?_append, ← endTime_of_ended hA hendA hdoneA,
      ← endTime_of_ended hB hendB hdoneB]
    simp [together, hdoneA, hdoneB]
  · have hnot := hdone
    rw [hstatus, RunStatus.isTerminal_together] at hnot
    rw [endTime_eq, if_neg hdone, together, if_neg hnot]

theorem ofTasks_singleton (hended : Ended [t]) :
    ofTasks start [t] = ⟨t.status, if t.status.isTerminal then t.endTime else none⟩ := by
  have hsums : Sums [t] t.status := by
    have hmem : t ∈ [t] := List.mem_singleton_self t
    cases hs : t.status with
    | pending => exact .pending hmem (by simpa using hs)
    | running => exact .running hmem (by rw [hs]; rfl) hmem (by rw [hs]; decide)
    | succeeded => exact .succeeded (by simpa using hs)
    | failed => exact .failed (by simp [hs, RunStatus.isTerminal]) hmem hs (by simp [hs])
    | stopped => exact .stopped (by simp [hs, RunStatus.isTerminal]) hmem hs
  have hstatus : (ofTasks start [t]).status = t.status := status_eq_iff.mpr hsums
  apply Outcome.ext hstatus
  by_cases hdone : t.status.isTerminal = true
  · rw [endTime_of_ended (List.cons_ne_nil t []) hended (hstatus ▸ hdone), if_pos hdone]
    cases hend : t.endTime <;> simp [hend, Instant.latest?]
  · rw [endTime_eq, hstatus, if_neg hdone, if_neg hdone]

theorem Sums.congr (h : ∀ t, t ∈ A ↔ t ∈ B) (hs : Sums A a) : Sums B a := by
  have hall : ∀ {p : Task → Prop}, (∀ t ∈ A, p t) → ∀ t ∈ B, p t :=
    fun hp t ht => hp t ((h t).mpr ht)
  cases hs with
  | pending ht hp => exact .pending ((h _).mp ht) (hall hp)
  | running ht hopen hu hbegun => exact .running ((h _).mp ht) hopen ((h _).mp hu) hbegun
  | stopped hdone ht hs => exact .stopped (hall hdone) ((h _).mp ht) hs
  | failed hdone ht hs hnone => exact .failed (hall hdone) ((h _).mp ht) hs (hall hnone)
  | succeeded hp => exact .succeeded (hall hp)

theorem ofTasks_perm (h : A.Perm B) : ofTasks start A = ofTasks start B := by
  have hstatus : (ofTasks start A).status = (ofTasks start B).status :=
    status_eq_iff.mpr ((sums_status start B).congr fun _ => h.symm.mem_iff)
  apply Outcome.ext hstatus
  rw [endTime_eq, endTime_eq, hstatus, Instant.latest?_perm (h.filterMap _)]

/-- Any grouping of the tasks, taken in any order, comes to the same. -/
theorem ofTasks_flatten (groups : List (List Task)) (hA : A ≠ []) (hendA : Ended A)
    (hgroups : ∀ g ∈ groups, g ≠ [] ∧ Ended g) :
    (groups.map (ofTasks start)).foldl together (ofTasks start A) =
      ofTasks start (A ++ groups.flatten) := by
  -- over the groups, for any first one: the next is joined to it
  induction groups generalizing A with
  | nil => rw [List.flatten_nil, List.append_nil]; rfl
  | cons g groups ih =>
    obtain ⟨⟨hne, hended⟩, hrest⟩ := List.forall_mem_cons.mp hgroups
    rw [List.map_cons, List.foldl_cons, ← ofTasks_append hA hne hendA hended,
      ih (List.append_ne_nil_of_left_ne_nil hA g) (hendA.append hended) hrest,
      List.flatten_cons, List.append_assoc]

/-- The outcome of tasks is told by the outcomes of the groups they are taken in, down to single
tasks. The order of the tasks and their grouping do not matter. -/
theorem outcome_of_groups (start : Instant) :
    (∀ A B, A ≠ [] → B ≠ [] → Ended A → Ended B →
      ofTasks start (A ++ B) = (ofTasks start A).together (ofTasks start B)) ∧
    (∀ t, Ended [t] →
      ofTasks start [t] = ⟨t.status, if t.status.isTerminal then t.endTime else none⟩) ∧
    (∀ (A : List Task) (groups : List (List Task)) (tasks : List Task), A ≠ [] → Ended A →
      (∀ g ∈ groups, g ≠ [] ∧ Ended g) → (A ++ groups.flatten).Perm tasks →
      (groups.map (ofTasks start)).foldl together (ofTasks start A) = ofTasks start tasks) ∧
    (∀ o p, together o p = together p o) ∧
    (∀ o p q, (together o p).together q = together o (together p q)) ∧
    ∀ tasks, (ofTasks start tasks).endTime.isSome = (ofTasks start tasks).status.isTerminal := by
  refine ⟨fun A B hA hB hendA hendB => ofTasks_append hA hB hendA hendB,
    fun t hended => ofTasks_singleton hended, ?_, together_comm, together_assoc,
    isSome_endTime start⟩
  intro A groups tasks hA hendA hgroups hperm
  rw [ofTasks_flatten groups hA hendA hgroups]
  exact ofTasks_perm hperm

def taskAt (status : RunStatus) (endSecond : Option Int) : Task :=
  ⟨1, 1, "library/a", "job", status, 0, none, endSecond.map (⟨·, 0⟩), 0, 0⟩

theorem outcome_of_groups_of_stopped_run :
    let start : Instant := ⟨0, 0⟩
    let A := [taskAt .succeeded (some 10), taskAt .failed (some 70)]
    let B := [taskAt .stopped (some 30)]
    let shuffled := B ++ A
    (A ≠ [] ∧ B ≠ [] ∧ Ended A ∧ Ended B ∧
      ofTasks start (A ++ B) = (ofTasks start A).together (ofTasks start B) ∧
      (ofTasks start A).together (ofTasks start B) = ⟨.stopped, some ⟨70, 0⟩⟩) ∧
    (Ended [taskAt .running none] ∧ ofTasks start [taskAt .running none] = ⟨.running, none⟩) ∧
    ((∀ g ∈ [B], g ≠ [] ∧ Ended g) ∧ (A ++ [B].flatten).Perm shuffled ∧
      ([B].map (ofTasks start)).foldl together (ofTasks start A) = ofTasks start shuffled) := by
  intro start A B shuffled
  obtain ⟨happend, hsingle, hgroups, -⟩ := outcome_of_groups start
  have hA : A ≠ [] ∧ Ended A := by decide
  have hB : B ≠ [] ∧ Ended B := by decide
  have hone : Ended [taskAt .running none] := by decide
  have hg : ∀ g ∈ [B], g ≠ [] ∧ Ended g := by simpa using hB
  have hperm : (A ++ [B].flatten).Perm shuffled := by decide
  exact ⟨⟨hA.1, hB.1, hA.2, hB.2, happend A B hA.1 hB.1 hA.2 hB.2, by decide⟩,
    ⟨hone, hsingle _ hone⟩, hg, hperm, hgroups A [B] shuffled hA.1 hA.2 hg hperm⟩

end Outcome

end TagRetention
