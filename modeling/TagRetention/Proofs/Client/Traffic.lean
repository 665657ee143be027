import TagRetention.Proofs.Client.Endings
import TagRetention.Proofs.Client.Requests

/-!
All that a load or a mutation sends, in order. A mutation that is let through sends one write, and
a lookup of what was stored unless the write is turned down; any other mutation sends nothing.
-/

namespace TagRetention.Client.Orchestrator

variable {S : Type} {service : Service S} {m : Mutation} {o : Orchestrator} {w : S}

def writeRequest (saved : Option PolicyId) (draft : Policy) : Request :=
  match saved with
  | none => .createPolicy draft
  | some id => .updatePolicy id draft

theorem document_writeRequest (saved : Option PolicyId) (draft : Policy) :
    (writeRequest saved draft).document? = some draft := by
  cases saved <;> rfl

/-- What is sent once it is known which policy to load. -/
def lookups : Option PolicyId → List Request
  | none => []
  | some id => [.getPolicy id]

theorem requests_persist (service : Service S) (draft : Policy) (o : Orchestrator) (w : S) :
    (persist draft).requests service o w =
      writeRequest o.saved draft :: lookups (write service o.saved draft w).1.toOption := by
  simp only [persist, whileLoading, Call.look, Call.change, Call.requests,
    Call.requests_releasing, id_eq]
  have hsaved : (setLoading true o).saved = o.saved := rfl
  rw [hsaved]
  cases o.saved with
  | none =>
    simp only [Call.request, Call.requests, writeRequest, write]
    cases (service (.createPolicy draft) w).1 with
    | error e => rfl
    | ok id => exact congrArg _ (requests_refresh service id _ _)
  | some id =>
    simp only [Call.request, Call.requests, writeRequest, write]
    cases (service (.updatePolicy id draft) w).1 with
    | error e => rfl
    | ok u => exact congrArg _ (requests_refresh service id _ _)

theorem requests_reloadProject (service : Service S) (o : Orchestrator) (w : S) :
    reloadProject.requests service o w =
      .projectRetention o.project ::
        lookups (service (.projectRetention o.project) w).1.toOption.join := by
  simp only [reloadProject, Call.look, Call.request, Call.requests, id_eq]
  rcases service (.projectRetention o.project) w with ⟨f | found, w'⟩
  · rfl
  · cases found with
    | none => rfl
    | some id => exact congrArg _ (requests_reload service id o w')

theorem requests_load (service : Service S) (o : Orchestrator) (w : S) :
    load.requests service o w =
      .projectRetention o.project ::
        lookups (service (.projectRetention o.project) w).1.toOption.join := by
  refine Eq.trans ?_ (requests_reloadProject service (setLoading true o) w)
  simp only [load, whileLoading, Call.change, Call.requests, Call.requests_releasing,
    Call.requests_bind]
  -- what comes after the lookups sends nothing
  cases (reloadProject.run service (setLoading true o) w).1 <;> exact List.append_nil _

theorem run_mutate_pending (h : o.mutationPending = true) :
    (mutate m).run service o w = (.error .inProgress, o, w) := by
  simp only [mutate, Call.look, Call.run, h, if_true, id_eq]

/-- A mutation that has nothing to do leaves no trace. -/
theorem run_mutate_of_plan_none (hfree : o.mutationPending = false)
    (h : m.plan o.policy o.catalog = .ok none) :
    (mutate m).run service o w = (.ok (), o, w) := by
  have hrest : setPending false (setPending true o) = o := by
    obtain ⟨project, saved, policy, catalog, editing, loading, pending⟩ := o
    cases hfree
    rfl
  simp only [mutate, Call.look, Call.change, Call.run, Call.run_releasing, hfree,
    Bool.false_eq_true, if_false, id_eq, h, hrest]

theorem requests_mutate_pending (h : o.mutationPending = true) :
    (mutate m).requests service o w = [] := by
  simp only [mutate, Call.look, Call.requests, h, if_true, id_eq]

theorem requests_mutate_eq_nil (h : ∀ edit, m.plan o.policy o.catalog ≠ .ok (some edit)) :
    (mutate m).requests service o w = [] := by
  simp only [mutate, Call.look, Call.requests, id_eq]
  split
  · rfl
  · simp only [Call.change, Call.requests, Call.requests_releasing]
    split
    · rfl
    · rfl
    · rename_i hplan
      exact absurd hplan (h _)

theorem requests_mutate_of_plan {edit : Edit} (hfree : o.mutationPending = false)
    (h : m.plan o.policy o.catalog = .ok (some edit)) :
    (mutate m).requests service o w =
      writeRequest o.saved (edit.apply o.policy) ::
        lookups (write service o.saved (edit.apply o.policy) w).1.toOption := by
  simp only [mutate, Call.look, Call.requests, hfree, Bool.false_eq_true, if_false, id_eq,
    Call.change, Call.requests_releasing, h, requests_carryOut]
  exact requests_persist service _ (setPending true o) w

end TagRetention.Client.Orchestrator
