import TagRetention.Client.LocalService
import TagRetention.Proofs.Client.Endings

/-!
The answers of the service in memory. A request that fails leaves the policies as they are, a
lookup answers what is stored, and a write stores the policy that it carries under its id.
-/

namespace TagRetention.Client.LocalService

variable {w w' : LocalService} {q : Request} {f : ServiceFault} {id : PolicyId} {p : Policy}

structure SamePolicies (w w' : LocalService) : Prop where
  policies : w'.policies = w.policies
  projects : w'.projects = w.projects
  lastId : w'.lastId = w.lastId

theorem SamePolicies.refl (w : LocalService) : w.SamePolicies w := ⟨rfl, rfl, rfl⟩

theorem SamePolicies.trans {w'' : LocalService} (h : w.SamePolicies w')
    (h' : w'.SamePolicies w'') : w.SamePolicies w'' :=
  ⟨h'.policies.trans h.policies, h'.projects.trans h.projects, h'.lastId.trans h.lastId⟩

/-- What a write leaves of a draft: a policy that was not saved gets the next id. -/
structure Stored (w : LocalService) (saved : Option PolicyId) (draft : Policy) (id : PolicyId)
    (w' : LocalService) : Prop where
  id_eq : id = saved.getD w.nextId
  policies : w'.policies = w.policies.insert id (draft.withId id)
  projects : w'.projects =
    if saved.isSome then w.projects else w.projects.insert draft.scope.reference id

theorem Stored.congr {w'' : LocalService} {saved : Option PolicyId} {draft : Policy}
    (h : w.Stored saved draft id w') (hsame : w'.SamePolicies w'') : w.Stored saved draft id w'' :=
  ⟨h.id_eq, hsame.policies.trans h.policies, hsame.projects.trans h.projects⟩

/-- After its write the client knows the policy, even if it has not seen it. -/
theorem Stored.saved_noted {o : Orchestrator} {draft : Policy} (h : w.Stored o.saved draft id w') :
    (o.noted id draft).saved = some id := by
  unfold Orchestrator.noted
  cases hs : o.saved with
  | none => rfl
  | some id' =>
    rw [hs] at h
    exact hs.trans (congrArg some h.id_eq.symm)

theorem samePolicies_of_respond_error (h : w.respond q = (.error f, w')) : w.SamePolicies w' := by
  have hwriting {α : Type} {result : α × LocalService}
      (h : writing w result = (.error f, w')) : w.SamePolicies w' := by
    unfold writing at h
    split at h <;> cases h
    exact .refl w
  have hreading {α : Type} {result : Except ServiceFault α × LocalService}
      (hresult : result = (.error f, w') → w.SamePolicies w')
      (h : reading w result = (.error f, w')) : w.SamePolicies w' := by
    unfold reading at h
    split at h
    · cases h
      exact .refl w
    · exact hresult h
  cases q with
  | createPolicy | updatePolicy | triggerExecution | abortExecution => exact hwriting h
  | projectRetention | getPolicy | ruleCatalog | listTasks | taskLog =>
    refine hreading (fun hr => ?_) h
    obtain ⟨-, rfl⟩ := Prod.mk.inj hr
    exact .refl w
  | listExecutions id page =>
    refine hreading (fun hr => ?_) h
    unfold listExecutions at hr
    split at hr <;> cases hr

/-- A request fails by a fault that waits for it, or it reaches the service. -/
theorem service_cases (q : Request) (w : LocalService) :
    (∃ f w', service q w = (.error f, w') ∧ w.SamePolicies w') ∨
      ∃ w', w.SamePolicies w' ∧ service q w = w'.respond q := by
  dsimp only [service]
  split
  · exact .inl ⟨_, _, rfl, rfl, rfl, rfl⟩
  · exact .inr ⟨{ w with received := w.received ++ [q] }, ⟨rfl, rfl, rfl⟩, rfl⟩

theorem samePolicies_of_error (h : service q w = (.error f, w')) : w.SamePolicies w' := by
  rcases service_cases q w with ⟨f', v, hv, hsame⟩ | ⟨v, hsame, hv⟩
  · rw [hv] at h
    cases h
    exact hsame
  · rw [hv] at h
    exact hsame.trans (samePolicies_of_respond_error h)

theorem respond_of_ok {a : q.Answer} (h : service q w = (.ok a, w')) :
    ∃ v, w.SamePolicies v ∧ v.respond q = (.ok a, w') := by
  rcases service_cases q w with ⟨f', v, hv, -⟩ | ⟨v, hsame, hv⟩
  · rw [hv] at h
    cases h
  · exact ⟨v, hsame, hv.symm.trans h⟩

theorem writing_ok {α : Type} {a : α} {result : α × LocalService}
    (h : writing w result = (.ok a, w')) : result = (a, w') := by
  unfold writing at h
  split at h <;> cases h
  rfl

theorem reading_ok {α : Type} {a : α} {result : Except ServiceFault α × LocalService}
    (h : reading w result = (.ok a, w')) : result = (.ok a, w') := by
  unfold reading at h
  split at h
  · cases h
  · exact h

theorem projectRetention_ok {project : ProjectId} {found : Option PolicyId}
    (h : service (.projectRetention project) w = (.ok found, w')) :
    found = w.projects.get? project ∧ w.SamePolicies w' := by
  obtain ⟨v, hsame, h⟩ := respond_of_ok h
  cases reading_ok h
  exact ⟨by rw [hsame.projects], hsame⟩

theorem getPolicy_ok (h : service (.getPolicy id) w = (.ok p, w')) :
    w.policies.get? id = some p ∧ w.SamePolicies w' := by
  obtain ⟨v, hsame, h⟩ := respond_of_ok h
  have hread := reading_ok h
  rw [hsame.policies] at hread
  cases hp : w.policies.get? id with
  | none =>
    rw [hp] at hread
    cases hread
  | some stored =>
    rw [hp] at hread
    cases hread
    exact ⟨rfl, hsame⟩

theorem ruleCatalog_ok {m : Catalog} (h : service .ruleCatalog w = (.ok m, w')) :
    w.SamePolicies w' := by
  obtain ⟨v, hsame, h⟩ := respond_of_ok h
  cases reading_ok h
  exact hsame

open Orchestrator in
theorem write_error {saved : Option PolicyId} {draft : Policy}
    (h : write service saved draft w = (.error f, w')) : w.SamePolicies w' := by
  cases saved with
  | none => exact samePolicies_of_error h
  | some id =>
    rcases hq : service (.updatePolicy id draft) w with ⟨f' | u, v⟩
    · simp only [write, hq] at h
      cases h
      exact samePolicies_of_error hq
    · simp only [write, hq] at h
      cases h

open Orchestrator in
theorem write_ok {saved : Option PolicyId} {draft : Policy}
    (h : write service saved draft w = (.ok id, w')) : w.Stored saved draft id w' := by
  cases saved with
  | none =>
    obtain ⟨v, hsame, h⟩ := respond_of_ok h
    cases writing_ok h
    have hnext : v.nextId = w.nextId := by rw [nextId, nextId, hsame.lastId]
    refine ⟨hnext, ?_, ?_⟩
    · simp only [putPolicy, hsame.policies]
    · simp only [putPolicy, Policy.withId, hsame.projects, Option.isSome_none, Bool.false_eq_true,
        if_false]
  | some id' =>
    rcases hq : service (.updatePolicy id' draft) w with ⟨f | u, v⟩
    · simp only [write, hq] at h
      cases h
    · simp only [write, hq] at h
      cases h
      obtain ⟨v, hsame, h⟩ := respond_of_ok hq
      cases writing_ok h
      refine ⟨rfl, ?_, ?_⟩
      · simp only [hsame.policies]
      · simp only [hsame.projects, Option.isSome_some, if_true]

theorem createPolicy_ok {draft : Policy} (h : service (.createPolicy draft) w = (.ok id, w')) :
    w.Stored none draft id w' :=
  write_ok h

theorem updatePolicy_ok {draft : Policy} {u : Unit}
    (h : service (.updatePolicy id draft) w = (.ok u, w')) : w.Stored (some id) draft id w' := by
  apply write_ok
  simp only [Orchestrator.write, h]
  rfl

end TagRetention.Client.LocalService
