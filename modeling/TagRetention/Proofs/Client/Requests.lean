import TagRetention.Client.Orchestrator

/-!
The requests that a call sends when it runs on its own. A mutation writes at most one document, the
effect of its plan on the local copy.
-/

namespace TagRetention.Client

variable {σ α β S : Type}

/-- The policy that a request is to store. -/
def Request.document? : Request → Option Policy
  | .createPolicy p => some p
  | .updatePolicy _ p => some p
  | _ => none

namespace Call

def requests (service : Service S) : Call σ α → σ → S → List Request
  | .finish _, _, _ => []
  | .act change next, s, w => (next s).requests service (change s) w
  | .ask q _ next, s, w => q :: (next (service q w).1).requests service s (service q w).2

theorem requests_bind (service : Service S) (c : Call σ α) (f : α → Call σ β) (s : σ) (w : S) :
    (c.bind f).requests service s w =
      c.requests service s w ++
        (f (c.run service s w).1).requests service (c.run service s w).2.1
          (c.run service s w).2.2 := by
  induction c generalizing s w with
  | finish a => rfl
  | act change next ih => exact ih s (change s) w
  | ask q abandon next ih => exact congrArg (q :: ·) (ih _ s _)

theorem requests_releasing (service : Service S) (release : σ → σ) (c : Call σ α) (s : σ)
    (w : S) : (c.releasing release).requests service s w = c.requests service s w := by
  induction c generalizing s w with
  | finish a => rfl
  | act change next ih => exact ih s (change s) w
  | ask q abandon next ih => exact congrArg (q :: ·) (ih _ s _)

theorem eq_of_mem_request {service : Service S} {q q₀ : Request} {next : q₀.Reply → Call σ α}
    {s : σ} {w : S} (hnext : ∀ r s w, q ∉ (next r).requests service s w)
    (hq : q ∈ (Call.request q₀ next).requests service s w) : q = q₀ := by
  rw [Call.request, requests, List.mem_cons] at hq
  rcases hq with rfl | hq
  · rfl
  · exact absurd hq (hnext _ _ _)

end Call

namespace Orchestrator

theorem requests_reload (service : Service S) (id : PolicyId) (o : Orchestrator) (w : S) :
    (reload id).requests service o w = [.getPolicy id] := by
  simp only [reload, Call.request, Call.requests]
  cases (service (.getPolicy id) w).1 <;> rfl

theorem requests_refresh (service : Service S) (id : PolicyId) (o : Orchestrator) (w : S) :
    (refresh id).requests service o w = [.getPolicy id] := by
  rw [refresh, Call.map, Call.requests_bind, requests_reload]
  exact List.append_nil _

theorem document_of_persist (service : Service S) (draft : Policy) (o : Orchestrator) (w : S)
    {q : Request} {d : Policy} (hq : q ∈ (persist draft).requests service o w)
    (hd : q.document? = some d) : d = draft := by
  have hget (id : PolicyId) (o : Orchestrator) (w : S) : q ∉ (refresh id).requests service o w := by
    rw [requests_refresh, List.mem_singleton]
    rintro rfl
    simp [Request.document?] at hd
  unfold persist whileLoading at hq
  simp only [Call.look, Call.change, Call.requests, Call.requests_releasing, id_eq] at hq
  cases hs : (setLoading true o).saved with
  | none =>
    rw [hs] at hq
    have hwrite : q = .createPolicy draft := by
      refine Call.eq_of_mem_request ?_ hq
      rintro (e | id) o w
      · exact List.not_mem_nil
      · exact hget id _ _
    rw [hwrite] at hd
    exact (Option.some.inj hd).symm
  | some id =>
    rw [hs] at hq
    have hwrite : q = .updatePolicy id draft := by
      refine Call.eq_of_mem_request ?_ hq
      rintro (e | u) o w
      · exact List.not_mem_nil
      · exact hget id _ _
    rw [hwrite] at hd
    exact (Option.some.inj hd).symm

theorem requests_carryOut (service : Service S) (m : Mutation) (draft : Policy)
    (o : Orchestrator) (w : S) :
    (carryOut m draft).requests service o w = (persist draft).requests service o w := by
  rw [carryOut, Call.requests_bind]
  split <;> exact List.append_nil _

theorem document_of_mutate (service : Service S) (m : Mutation) (o : Orchestrator) (w : S)
    {q : Request} {d : Policy} (hq : q ∈ (mutate m).requests service o w)
    (hd : q.document? = some d) :
    ∃ edit, m.plan o.policy o.catalog = .ok (some edit) ∧ d = edit.apply o.policy := by
  unfold mutate at hq
  simp only [Call.look, Call.requests] at hq
  split at hq
  · simp [Call.requests] at hq
  · simp only [Call.change, Call.requests, Call.requests_releasing] at hq
    cases hp : m.plan o.policy o.catalog with
    | error e => simp [hp, Call.requests] at hq
    | ok edit =>
      cases edit with
      | none => simp [hp, Call.requests] at hq
      | some edit =>
        rw [hp] at hq
        rw [requests_carryOut] at hq
        exact ⟨edit, rfl, document_of_persist service _ _ w hq hd⟩

end Orchestrator

end TagRetention.Client
