import TagRetention.Proofs.Api.Isolation
import TagRetention.Proofs.Json.Equality
import TagRetention.Proofs.Store.Reopening
import TagRetention.Proofs.Wire.RunRecords

/-!
Which responses report executions: one as the body, or a page of them. No other document of the
service can be taken for an execution.
-/

namespace TagRetention

namespace Wire

theorem encodeStatus_injective {a b : RunStatus} (h : encodeStatus a = encodeStatus b) : a = b := by
  have hread := runStatus_ofJson a
  rw [h, runStatus_ofJson] at hread
  exact (Except.ok.inj hread).symm

theorem encodeExecution_inj {x y : Execution} (h : encodeExecution x = encodeExecution y) :
    x.id = y.id ∧ x.status = y.status := by
  simp only [encodeExecution, Json.obj.injEq, List.cons.injEq, Prod.mk.injEq, true_and, Json.int,
    Json.num.injEq, Json.Number.int.injEq] at h
  exact ⟨h.1, encodeStatus_injective h.2.2.1⟩

def executionKeys : List String :=
  ["id", "policy_id", "status", "trigger", "dry_run", "start_time", "end_time"]

theorem ne_encodeExecution_of_keys {fields : List (String × Json)}
    (h : fields.map (·.1) ≠ executionKeys) (x : Execution) : .obj fields ≠ encodeExecution x := by
  intro heq
  rw [Json.obj.inj heq] at h
  exact h rfl

theorem encodeTask_ne_encodeExecution (t : Task) (x : Execution) :
    encodeTask t ≠ encodeExecution x := by
  rw [encodeTask]
  exact ne_encodeExecution_of_keys (by simp [executionKeys]) x

end Wire

namespace Api

open Wire

variable {s : Store} {x : Execution} {status : Nat}

/-- The items of a listing, or the one document that the body is. -/
def Body.documents : Body → List Json
  | .document (.arr items) => items
  | .document j => [j]
  | .empty | .text _ => []

def Response.Reports (r : Response) (x : Execution) : Prop :=
  encodeExecution x ∈ r.body.documents

instance (r : Response) (x : Execution) : Decidable (r.Reports x) :=
  inferInstanceAs (Decidable (encodeExecution x ∈ r.body.documents))

/-- Every execution that the response reports has this status in the store. -/
def Response.Truthful (r : Response) (s : Store) : Prop :=
  ∀ x, r.Reports x → s.status? x.id = some x.status

theorem truthful_of_silent {r : Response} (h : r.body.documents = []) : r.Truthful s := by
  intro x hx
  rw [Response.Reports, h] at hx
  cases hx

theorem truthful_refusal (refusal : Refusal) : refusal.response.Truthful s := by
  cases refusal <;> exact truthful_of_silent rfl

theorem truthful_of_keys {fields : List (String × Json)}
    (h : fields.map (·.1) ≠ executionKeys) : (Response.json status (.obj fields)).Truthful s := by
  intro x hx
  have heq : encodeExecution x = .obj fields := List.mem_singleton.mp hx
  exact absurd heq.symm (ne_encodeExecution_of_keys h x)

theorem truthful_fault (f : ApiFault) : (Response.fault f).Truthful s :=
  truthful_of_keys (by simp [executionKeys])

theorem truthful_policy (p : Policy) : (Response.json status (encodePolicy p)).Truthful s := by
  rw [encodePolicy]
  cases p.id with
  | none => exact truthful_of_keys (by simp [executionKeys])
  | some id => exact truthful_of_keys (by simp [executionKeys])

theorem truthful_execution (h : s.status? x.id = some x.status) :
    (Response.json status (encodeExecution x)).Truthful s := by
  intro y hy
  have heq : encodeExecution y = encodeExecution x := List.mem_singleton.mp hy
  obtain ⟨hid, hstatus⟩ := encodeExecution_inj heq
  rw [hid, hstatus, h]

theorem truthful_executions {total : Nat} {items : List Execution}
    (h : ∀ x ∈ items, s.status? x.id = some x.status) :
    (Response.listing total (items.map encodeExecution)).Truthful s := by
  intro y hy
  obtain ⟨x, hx, heq⟩ := List.mem_map.mp hy
  obtain ⟨hid, hstatus⟩ := encodeExecution_inj heq
  rw [← hid, ← hstatus, h x hx]

theorem truthful_tasks (total : Nat) (tasks : List Task) :
    (Response.listing total (tasks.map encodeTask)).Truthful s := by
  intro y hy
  obtain ⟨t, -, heq⟩ := List.mem_map.mp hy
  exact absurd heq (encodeTask_ne_encodeExecution t y)

end Api

end TagRetention
