import TagRetention.Proofs.Api.Effects
import TagRetention.Proofs.Api.Paths
import TagRetention.Proofs.Json.Yields
import TagRetention.Proofs.Store.TaskStep

/-!
The numbers in the reports on tasks. A report is read from a document, so its numbers have the size
that the document allows, and the numbers of every task have it too.
-/

namespace TagRetention

/-- The revision has 64 bits and the counts have 32, one of them for the sign. -/
structure Task.NumbersFit (t : Task) : Prop where
  revision : Fits 63 t.revision
  total : Fits 31 t.total
  retained : Fits 31 t.retained

structure StatusReport.NumbersFit (r : StatusReport) : Prop where
  revision : Fits 63 r.revision
  total : ∀ n, r.total = some n → Fits 31 n
  retained : ∀ n, r.retained = some n → Fits 31 n

theorem Task.NumbersFit.apply {t : Task} {r : StatusReport} (ht : t.NumbersFit)
    (hr : r.NumbersFit) (now : Instant) : (t.apply r now).NumbersFit := by
  refine ⟨hr.revision, ?_, ?_⟩
  · rw [Task.apply]
    cases htotal : r.total with
    | none => exact ht.total
    | some n => exact hr.total n htotal
  · rw [Task.apply]
    cases hretained : r.retained with
    | none => exact ht.retained
    | some n => exact hr.retained n hretained

namespace Api

open Json Json.Decode

variable {σ : Type} {c : Setting σ} {jobs : σ} {s : State σ} {r : Request} {call : Call}

theorem fits_of_optional {name : String} {o : Option Int}
    (h : (optional name int32).Yields o) : ∀ n, o = some n → Fits 31 n := by
  rintro n rfl
  cases h with
  | read h => exact fits_of_int32 (of_nullable h n rfl)
  | absent h => cases h
  | short h => cases h

theorem fits_of_revision {name : String} {n : Int} (h : (defaulted name int64 0).Yields n) :
    Fits 63 n := by
  cases h with
  | read h => exact fits_of_int64 h
  | absent h | short h =>
    cases h
    exact fits_zero 63

theorem fits_of_statusReport {n : Node} {status : RunStatus} {revision : Int}
    {total retained : Option Int}
    (h : statusReport n = .ok (status, revision, total, retained)) (task : TaskId) :
    StatusReport.NumbersFit ⟨task, status, revision, total, retained⟩ := by
  obtain ⟨t, ht, hbuild⟩ := Fields.yield_record h
  cases ht with
  | cons hstatus ht =>
    cases ht with
    | cons hrevision ht =>
      cases ht with
      | cons htotal ht =>
        cases ht with
        | cons hretained ht =>
          cases hbuild
          exact ⟨fits_of_revision hrevision, fits_of_optional htotal, fits_of_optional hretained⟩

theorem bodyOf_eq_ok {α : Type} {d : Decoder α} {a : α} (h : bodyOf r d = .ok a) :
    ∃ n, d n = .ok a := by
  rw [bodyOf] at h
  split at h
  · split at h
    · rename_i b hb
      cases h
      exact ⟨_, hb⟩
    · cases h
    · cases h
  · cases h

theorem fits_of_callOf {id : PolicyId} {e : ExecutionId} {k : TaskId} {status : RunStatus}
    {revision : Int} {total retained : Option Int}
    (h : callOf r = .ok (.report id e k status revision total retained)) :
    StatusReport.NumbersFit ⟨k, status, revision, total, retained⟩ := by
  simp only [callOf] at h
  split at h
  · cases h
  · unfold callOn at h
    split at h
    case h_12 =>
      obtain ⟨_, -, h⟩ := bind_eq_ok h
      obtain ⟨_, -, h⟩ := bind_eq_ok h
      obtain ⟨_, -, h⟩ := bind_eq_ok h
      obtain ⟨_, hbody, ⟨⟩⟩ := bind_eq_ok h
      obtain ⟨n, hn⟩ := bodyOf_eq_ok hbody
      exact fits_of_statusReport hn k
    -- no other request makes a report
    case h_1 | h_4 | h_13 => cases h
    case h_2 | h_3 | h_5 => obtain ⟨_, -, ⟨⟩⟩ := bind_eq_ok h
    case h_6 | h_7 | h_8 =>
      obtain ⟨_, -, h⟩ := bind_eq_ok h
      obtain ⟨_, -, ⟨⟩⟩ := bind_eq_ok h
    case h_9 | h_10 | h_11 =>
      obtain ⟨_, -, h⟩ := bind_eq_ok h
      obtain ⟨_, -, h⟩ := bind_eq_ok h
      obtain ⟨_, -, ⟨⟩⟩ := bind_eq_ok h

theorem numbersFit_run {store : Store} {op : Store.Operation} (hs : store.Sound) (now : Instant)
    (hop : ∀ report, op = .updateTask report → report.NumbersFit)
    (h : ∀ k t, store.task? k = some t → t.NumbersFit) (k : TaskId) (t : Task)
    (ht : (op.run now store).2.task? k = some t) : t.NumbersFit := by
  have hstep := hs.taskStep now op k
  have hold := h k
  rw [Store.task?] at ht hold
  rw [ht] at hstep
  generalize store.tasks.get? k = before at hstep hold
  cases hstep with
  | keep => exact hold t rfl
  | create =>
    exact ⟨fits_zero 63, fits_zero 31, fits_zero 31⟩
  | report _ _ => exact (hold _ rfl).apply (hop _ rfl) now
  | stop _ => exact ⟨(hold _ rfl).revision, (hold _ rfl).total, (hold _ rfl).retained⟩

theorem Reachable.numbersFit (h : Reachable c jobs s) {k : TaskId} {t : Task}
    (ht : s.store.task? k = some t) : t.NumbersFit := by
  have hall : ∀ k t, s.store.task? k = some t → t.NumbersFit := by
    clear ht
    induction h with
    | fresh => simp [State.fresh, Store.empty, Store.task?, Table.get?]
    | @request s hs r now ih =>
      refine invariant_of_advance (P := fun store => ∀ k t, store.task? k = some t → t.NumbersFit)
        (fun call store store' hcall hstore hold hadvance => ?_) hs.store ih now
      obtain ⟨op, time, heffect, rfl⟩ := hadvance
      refine numbersFit_run hstore.sound time (fun report hop => ?_) hold
      subst hop
      cases heffect with
      | updateTask => exact fits_of_callOf hcall
  exact hall k t ht

end Api

end TagRetention
