import TagRetention.Proofs.Api.Steps

/-!
How a request is answered: refused before anything happens, or by what its call ends with. Look-ups
find a record only under the policy and the execution of the path.
-/

namespace TagRetention.Api

open Handler

variable {σ α β : Type} {c : Setting σ} {now : Instant} {s s' : State σ}

def Response.ofResult : Except ApiFault Response → Response
  | .ok response => response
  | .error f => .fault f

/-- An answer to `HEAD` is the one to `GET` without its body. -/
def Request.shown (r : Request) (response : Response) : Response :=
  if r.method = "HEAD" then response.withoutBody else response

theorem Request.status_shown (r : Request) (response : Response) :
    (r.shown response).status = response.status := by
  rw [shown]
  split <;> rfl

theorem serve_of_refused {r : Request} {refusal : Refusal} (h : callOf r = .error refusal) :
    (serve c r).run now s = (r.shown refusal.response, s) := by
  rw [serve, run_bind, answer, h]
  rfl

theorem serve_of_call {r : Request} {call : Call} (h : callOf r = .ok call) :
    (serve c r).run now s =
      (r.shown (.ofResult ((handle c call).run now s).1), ((handle c call).run now s).2) := by
  rw [serve, run_bind, answer, h]
  simp only [respond, run_bind]
  cases ((handle c call).run now s).1 <;> rfl

theorem le_status_of_refusal (refusal : Refusal) : 400 ≤ refusal.response.status := by
  cases refusal <;> decide

theorem le_status_of_fault (f : ApiFault) : 400 ≤ (Response.fault f).status := by
  change 400 ≤ f.status
  cases f <;> simp [ApiFault.status]

theorem callOf_of_status {r : Request} (h : ((serve c r).run now s).1.status < 400) :
    ∃ call, callOf r = .ok call := by
  cases hcall : callOf r with
  | error refusal =>
    rw [serve_of_refused hcall, Request.status_shown] at h
    exact absurd (le_status_of_refusal refusal) (Nat.not_le.mpr h)
  | ok call => exact ⟨call, rfl⟩

theorem serve_succeeded {r : Request} {call : Call} (hcall : callOf r = .ok call)
    (h : ((serve c r).run now s).1.status < 400) :
    ∃ response s', (handle c call).run now s = (.ok response, s') ∧
      (serve c r).run now s = (r.shown response, s') := by
  rw [serve_of_call hcall] at h ⊢
  cases hr : (handle c call).run now s with
  | mk result s' =>
    cases result with
    | error f =>
      rw [hr, Request.status_shown] at h
      exact absurd (le_status_of_fault f) (Nat.not_le.mpr h)
    | ok response => exact ⟨response, s', rfl, rfl⟩

theorem run_orElse_of_error {h : Answer σ α} {e : ApiFault} (f : α → Answer σ β)
    (hh : h.run now s = (.error e, s')) : (h.orElse f).run now s = (.error e, s') := by
  rw [run_orElse, hh]

theorem run_orElse_of_ok {h : Answer σ α} {a : α} (f : α → Answer σ β)
    (hh : h.run now s = (.ok a, s')) : (h.orElse f).run now s = (f a).run now s' := by
  rw [run_orElse, hh]

theorem orElse_eq_ok {h : Answer σ α} {f : α → Answer σ β} {b : β}
    (hrun : (h.orElse f).run now s = (.ok b, s')) :
    ∃ a s₁, h.run now s = (.ok a, s₁) ∧ (f a).run now s₁ = (.ok b, s') := by
  cases hh : h.run now s with
  | mk result s₁ =>
    cases result with
    | error e =>
      rw [run_orElse_of_error f hh] at hrun
      cases hrun
    | ok a => exact ⟨a, s₁, rfl, run_orElse_of_ok f hh ▸ hrun⟩

theorem onStore_eq_ok {f : Instant → Store → Except StoreFault α × Store} {a : α}
    (h : (onStore f).run now s = (.ok a, s')) : f now s.store = (.ok a, s'.store) := by
  rw [run_onStore] at h
  obtain ⟨hresult, rfl⟩ := Prod.mk.inj h
  cases hf : f now s.store with
  | mk result store =>
    rw [hf] at hresult
    cases result with
    | error e => cases hresult
    | ok b =>
      cases hresult
      rfl

theorem run_findExecution_of_some {e : ExecutionId} {x : Execution}
    (hx : s.store.execution? e = some x) :
    (findExecution x.policyId e).run now s = (.ok x, s) := by
  rw [findExecution, run_read, hx, Option.filter_some, if_pos (beq_self_eq_true x.policyId)]

theorem run_findExecution {id : ExecutionId} {r : ExecutionRecord}
    (hr : s.store.executions.get? id = some r) :
    (findExecution r.policyId id).run now s = (.ok (s.store.fill r), s) := by
  have hx : s.store.execution? id = some (s.store.fill r) := by
    rw [Store.execution?, hr, Option.map_some]
  exact run_findExecution_of_some hx

theorem findExecution_ok {policy : PolicyId} {id : ExecutionId} {e : Execution}
    (h : (findExecution policy id).run now s = (.ok e, s')) :
    ∃ r, s.store.executions.get? id = some r ∧ r.policyId = policy := by
  rw [findExecution, run_read, Store.execution?] at h
  cases hr : s.store.executions.get? id with
  | none => simp [hr] at h
  | some r =>
    by_cases hp : r.policyId = policy
    · exact ⟨r, rfl, hp⟩
    · simp [hr, Option.filter_some, Store.fill, hp] at h

theorem findTask_ok {policy : PolicyId} {execution : ExecutionId} {id : TaskId} {t : Task}
    (h : (findTask policy execution id).run now s = (.ok t, s')) :
    (∃ r, s.store.executions.get? execution = some r ∧ r.policyId = policy) ∧
      s.store.tasks.get? id = some t ∧ t.executionId = execution := by
  obtain ⟨e, s₁, he, ht⟩ := orElse_eq_ok h
  refine ⟨findExecution_ok he, ?_⟩
  have hsame : s₁ = s := congrArg Prod.snd he.symm
  rw [run_read, hsame] at ht
  cases hu : (s.store.task? id).filter (·.executionId == execution) with
  | none =>
    rw [hu] at ht
    cases ht
  | some u =>
    rw [hu] at ht
    cases ht
    rwa [Option.filter_eq_some_iff, beq_iff_eq] at hu

theorem findExecution_of_foreign {policy : PolicyId} {id : ExecutionId}
    (h : ∀ e, s.store.execution? id = some e → e.policyId ≠ policy) :
    ∃ f, (findExecution policy id).run now s = (.error f, s) := by
  have hnone : (s.store.execution? id).filter (·.policyId == policy) = none := by
    rw [Option.filter_eq_none_iff]
    intro e he
    simpa using h e he
  rw [findExecution, run_read, hnone]
  exact ⟨_, rfl⟩

theorem findTask_of_foreign {policy : PolicyId} {execution : ExecutionId} {id : TaskId}
    (h : ∀ t, s.store.task? id = some t → t.executionId ≠ execution) :
    ∃ f, (findTask policy execution id).run now s = (.error f, s) := by
  have hnone : (s.store.task? id).filter (·.executionId == execution) = none := by
    rw [Option.filter_eq_none_iff]
    intro t ht
    simpa using h t ht
  cases he : (findExecution policy execution).run now s with
  | mk result s₁ =>
    obtain rfl : s = s₁ := congrArg Prod.snd he
    rw [findTask]
    cases result with
    | error f => exact ⟨f, run_orElse_of_error _ he⟩
    | ok e =>
      rw [run_orElse_of_ok _ he, run_read, hnone]
      exact ⟨_, rfl⟩

end TagRetention.Api
