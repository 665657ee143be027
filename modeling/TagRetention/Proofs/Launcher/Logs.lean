import Mathlib.Data.List.Infix
import TagRetention.Json.Reader
import TagRetention.Launcher.Journal

/-!
The logs of a journal. Every job that was started has one, under an id of its own, and a log only
ever gets longer at its end.
-/

namespace TagRetention.Journal

variable {j j' j'' : Journal} {m n : Nat} {id : String} {now : Instant}

def hexValue (s : List Char) : Nat :=
  s.foldl (fun n c => n * 16 + (Json.hex? c).getD 0) 0

theorem hex?_digitChar (h : n < 16) : Json.hex? n.digitChar = some n := by
  have hall : ∀ d : Fin 16, Json.hex? (Nat.digitChar d) = some d.val := by decide
  exact hall ⟨n, h⟩

theorem hexValue_append_digit (s : List Char) (h : n < 16) :
    hexValue (s ++ [n.digitChar]) = hexValue s * 16 + n := by
  simp [hexValue, hex?_digitChar h]

theorem hexValue_toDigits (n : Nat) : hexValue (Nat.toDigits 16 n) = n := by
  induction n using Nat.strongRecOn with
  | _ n ih =>
    rw [Nat.toDigits_eq_if (by decide)]
    split
    · rename_i hlt
      exact (hexValue_append_digit [] hlt).trans (Nat.zero_add n)
    · have hdiv : n / 16 < n := by omega
      rw [hexValue_append_digit _ (Nat.mod_lt n (by decide)), ih _ hdiv]
      omega

theorem hexValue_zeros (k : Nat) (s : List Char) :
    hexValue (List.replicate k '0' ++ s) = hexValue s := by
  induction k with
  | zero => rfl
  | succ k ih => exact ih

theorem jobId_injective (h : jobId m = jobId n) : m = n := by
  have hchars := String.ofList_injective h
  rw [List.append_assoc, List.append_assoc, List.append_cancel_left_eq] at hchars
  have hvalue := congrArg hexValue hchars
  rwa [hexValue_zeros, hexValue_zeros, hexValue_toDigits, hexValue_toDigits] at hvalue

/-- There is a log for each job that was started, and for no other. -/
def Complete (j : Journal) : Prop :=
  ∀ id, (j.logs.get? id).isSome = true ↔ ∃ n < j.issued, id = jobId n

/-- Each log of the first journal is the beginning of the log in the second one. -/
def Extends (j j' : Journal) : Prop :=
  ∀ id log, j.logs.get? id = some log → ∃ log', j'.logs.get? id = some log' ∧ log <+: log'

theorem Complete.get?_jobId (h : j.Complete) (hn : j.issued ≤ n) : j.logs.get? (jobId n) = none := by
  rw [← Option.not_isSome_iff_eq_none, h]
  rintro ⟨m, hm, hid⟩
  have := jobId_injective hid
  omega

theorem Extends.refl (j : Journal) : j.Extends j :=
  fun _ log hlog => ⟨log, hlog, List.prefix_refl log⟩

theorem Extends.trans (h : j.Extends j') (h' : j'.Extends j'') : j.Extends j'' := by
  intro id log hlog
  obtain ⟨log', hlog', hp⟩ := h id log hlog
  obtain ⟨log'', hlog'', hp'⟩ := h' id log' hlog'
  exact ⟨log'', hlog'', hp.trans hp'⟩

/-- The journal with one more job. -/
def withJob (j : Journal) (log : List String) : Journal :=
  ⟨j.logs.insert (jobId j.issued) log, j.issued + 1⟩

theorem Complete.withJob (h : j.Complete) (log : List String) : (j.withJob log).Complete := by
  intro id
  rw [Journal.withJob, Table.isSome_get?_insert, Bool.or_eq_true, decide_eq_true_eq, h]
  constructor
  · rintro (rfl | ⟨n, hn, rfl⟩)
    · exact ⟨j.issued, Nat.lt_succ_self _, rfl⟩
    · exact ⟨n, Nat.lt_succ_of_lt hn, rfl⟩
  · rintro ⟨n, hn, rfl⟩
    rcases Nat.lt_succ_iff_lt_or_eq.mp hn with hlt | rfl
    · exact .inr ⟨n, hlt, rfl⟩
    · exact .inl rfl

theorem Complete.extends_withJob (h : j.Complete) (log : List String) :
    j.Extends (j.withJob log) := by
  intro id old hold
  refine ⟨old, ?_, List.prefix_refl old⟩
  have hne : id ≠ jobId j.issued := by
    rintro rfl
    rw [h.get?_jobId (Nat.le_refl _)] at hold
    cases hold
  rw [Journal.withJob, Table.get?_insert, if_neg hne, hold]

theorem map_repository_start (now : Instant) (p : Policy) (e : Execution)
    (repositories : List String) (j : Journal) :
    (start now p e repositories j).1.map (·.repository) = repositories := by
  induction repositories generalizing j with
  | nil => rfl
  | cons repository rest ih => exact congrArg (repository :: ·) (ih _)

theorem launch_ok (now : Instant) (p : Policy) (e : Execution) (j : Journal) :
    ∃ jobs j', launcher.launch now p e j = (.ok jobs, j') ∧
      jobs.map (·.repository) = p.targets :=
  ⟨_, _, rfl, map_repository_start now p e p.targets j⟩

/-- What starts with a list of jobs: the journal keeps what it has, and the ids are new. -/
theorem Complete.start (h : j.Complete) (now : Instant) (p : Policy) (e : Execution)
    (repositories : List String) :
    (start now p e repositories j).2.Complete ∧ j.Extends (start now p e repositories j).2 ∧
      (start now p e repositories j).2.issued = j.issued + repositories.length ∧
      (start now p e repositories j).1.map (·.id) =
        (List.range' j.issued repositories.length).map jobId := by
  induction repositories generalizing j with
  | nil => exact ⟨h, .refl j, rfl, rfl⟩
  | cons repository rest ih =>
    obtain ⟨hcomplete, hextends, hissued, hids⟩ := ih (h.withJob (opening now p e repository))
    refine ⟨hcomplete, (h.extends_withJob _).trans hextends, ?_, ?_⟩
    · exact hissued.trans (Nat.add_right_comm _ _ _)
    · exact congrArg (jobId j.issued :: ·) hids

theorem isSome_get?_append (id line : String) (j : Journal) (key : String) :
    ((j.append id line).logs.get? key).isSome = (j.logs.get? key).isSome := by
  rw [append]
  cases hid : j.logs.get? id with
  | none => rfl
  | some _ =>
    rw [Table.isSome_get?_insert]
    by_cases hkey : key = id
    · simp [hkey, hid]
    · simp [hkey]

theorem extends_append (id line : String) (j : Journal) : j.Extends (j.append id line) := by
  intro key log hlog
  rw [append]
  cases hid : j.logs.get? id with
  | none => exact ⟨log, hlog, List.prefix_refl log⟩
  | some _ =>
    rw [Table.get?_insert]
    by_cases hkey : key = id
    · rw [hkey, hid] at hlog
      cases hlog
      exact ⟨log ++ [line], if_pos hkey, List.prefix_append log [line]⟩
    · exact ⟨log, (if_neg hkey).trans hlog, List.prefix_refl log⟩

theorem issued_append (id line : String) (j : Journal) : (j.append id line).issued = j.issued := by
  rw [append]
  split <;> rfl

theorem Complete.append (h : j.Complete) (id line : String) : (j.append id line).Complete := by
  intro key
  rw [isSome_get?_append, issued_append]
  exact h key

theorem Complete.requestStop (h : j.Complete) (now : Instant) (ids : List String) :
    (requestStop now ids j).Complete ∧ j.Extends (requestStop now ids j) ∧
      (requestStop now ids j).issued = j.issued := by
  induction ids generalizing j with
  | nil => exact ⟨h, .refl j, rfl⟩
  | cons id rest ih =>
    obtain ⟨hcomplete, hextends, hissued⟩ := ih (h.append id _)
    exact ⟨hcomplete, (extends_append id _ j).trans hextends, hissued.trans (issued_append id _ j)⟩

end TagRetention.Journal
