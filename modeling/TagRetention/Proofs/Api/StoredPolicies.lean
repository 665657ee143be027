import TagRetention.Proofs.Api.Effects
import TagRetention.Proofs.Policy.Validity

/-!
The policies that the service stores, along any sequence of requests: they pass the check of the
service, and no request moves one to another id or to another project.
-/

namespace TagRetention

open Api

namespace Store

variable {s s' s'' : Store} {m : Catalog} {call : Call}

theorem policies_of_advance (h : Advance m call s s') :
    s'.policies = s.policies ∨
      (∃ p : Policy, p.check m = .ok () ∧
        s'.policies = s.policies.insert s.nextPolicy (p.withId s.nextPolicy)) ∨
      ∃ (id : PolicyId) (p old : Policy), p.check m = .ok () ∧ s.policies.get? id = some old ∧
        s'.policies = s.policies.insert id { p.withId id with scope := old.scope } := by
  obtain ⟨op, now, he, rfl⟩ := h
  rcases run_cases now s op with ⟨f, hr⟩ | ⟨r, hr, -⟩ | ⟨r, s', hr, hc⟩
  · exact .inl (by rw [hr])
  · exact .inl (by rw [hr])
  · rw [hr]
    cases hc with
    | save p =>
      cases he with
      | save hp => exact .inr (.inl ⟨p, hp, rfl⟩)
    | @update _ old k hid hold =>
      cases he with
      | update id hp =>
        obtain rfl : id = k := Option.some.inj hid
        exact .inr (.inr ⟨id, _, old, hp, hold, rfl⟩)
    | delete => cases he
    | createExecution | createTask | updateTask | stopExecution => exact .inl rfl

def Checked (m : Catalog) (s : Store) : Prop :=
  ∀ id p, s.policy? id = some p → p.check m = .ok ()

theorem Checked.advance (h : s.Checked m) (ha : Advance m call s s') : s'.Checked m := by
  intro id q hq
  rw [policy?] at hq
  rcases policies_of_advance ha with hsame | ⟨p, hp, hnew⟩ | ⟨k, p, old, hp, -, hnew⟩
  · exact h id q (by rwa [hsame] at hq)
  · rw [hnew, Table.get?_insert] at hq
    split at hq
    · cases hq
      exact hp
    · exact h id q hq
  · rw [hnew, Table.get?_insert] at hq
    split at hq
    · cases hq
      exact hp
    · exact h id q hq

/-- Every policy is still there, under its id and for its project. -/
def PoliciesStay (s s' : Store) : Prop :=
  ∀ id p, s.policy? id = some p → ∃ q, s'.policy? id = some q ∧ q.id = p.id ∧ q.scope = p.scope

theorem PoliciesStay.refl (s : Store) : PoliciesStay s s :=
  fun _ p hp => ⟨p, hp, rfl, rfl⟩

theorem PoliciesStay.trans (h : PoliciesStay s s') (h' : PoliciesStay s' s'') :
    PoliciesStay s s'' := by
  intro id p hp
  obtain ⟨q, hq, hid, hscope⟩ := h id p hp
  obtain ⟨r, hr, hid', hscope'⟩ := h' id q hq
  exact ⟨r, hr, hid'.trans hid, hscope'.trans hscope⟩

theorem Sound.policiesStay_of_advance (h : s.Sound) (ha : Advance m call s s') :
    PoliciesStay s s' := by
  intro id p hp
  rcases policies_of_advance ha with hsame | ⟨q, -, hnew⟩ | ⟨k, q, old, -, hold, hnew⟩
  · exact ⟨p, by rwa [policy?, hsame], rfl, rfl⟩
  · have hlt : id < s.nextPolicy := h.policies.lt_next id p hp
    refine ⟨p, ?_, rfl, rfl⟩
    rwa [policy?, hnew, Table.get?_insert, if_neg (Int.ne_of_lt hlt)]
  · by_cases hk : id = k
    · subst hk
      obtain rfl : p = old := Option.some.inj (hp.symm.trans hold)
      have hid : p.id = some id := h.policies.id_eq id p hp
      refine ⟨{ q.withId id with scope := p.scope }, ?_, hid.symm, rfl⟩
      rw [policy?, hnew, Table.get?_insert, if_pos rfl]
    · refine ⟨p, ?_, rfl, rfl⟩
      rwa [policy?, hnew, Table.get?_insert, if_neg hk]

/-- The id of the policy of a project. -/
def retentionId? (s : Store) (project : ProjectId) : Option PolicyId :=
  (s.policyOf? project).bind (·.id)

theorem Sound.retentionId?_eq_some_iff (h : s.Sound) {project : ProjectId} {id : PolicyId} :
    s.retentionId? project = some id ↔
      ∃ p, s.policy? id = some p ∧ p.scope.reference = project := by
  rw [retentionId?, Option.bind_eq_some_iff]
  constructor
  · rintro ⟨p, hp, hid⟩
    obtain ⟨k, hk, hproject⟩ := h.policyOf?_eq_some_iff.mp hp
    have hkey : p.id = some k := h.policies.id_eq k p hk
    obtain rfl : id = k := Option.some.inj (hid.symm.trans hkey)
    exact ⟨p, hk, hproject⟩
  · rintro ⟨p, hp, hproject⟩
    exact ⟨p, h.policyOf?_eq_some_iff.mpr ⟨id, hp, hproject⟩, h.policies.id_eq id p hp⟩

theorem PoliciesStay.retentionId? (h : PoliciesStay s s') (hs : s.Sound) (hs' : s'.Sound)
    {project : ProjectId} {id : PolicyId} (hid : s.retentionId? project = some id) :
    s'.retentionId? project = some id := by
  obtain ⟨p, hp, hproject⟩ := hs.retentionId?_eq_some_iff.mp hid
  obtain ⟨q, hq, -, hscope⟩ := h id p hp
  exact hs'.retentionId?_eq_some_iff.mpr ⟨q, hq, hscope ▸ hproject⟩

end Store

namespace Api

open Handler

variable {σ : Type} {c : Setting σ} {jobs : σ} {now : Instant} {s : State σ}

theorem Reachable.checked (h : Reachable c jobs s) : s.store.Checked c.catalog := by
  induction h with
  | fresh =>
    intro id p hp
    cases hp
  | request h r now ih =>
    exact invariant_of_advance (fun _ _ _ _ _ hchecked => hchecked.advance) h.store ih now

theorem Reachable.policiesStay (h : Reachable c jobs s) (r : Request) (now : Instant) :
    Store.PoliciesStay s.store ((serve c r).run now s).2.store :=
  invariant_of_advance
    (fun _ _ _ _ hreach hstay ha => hstay.trans (hreach.sound.policiesStay_of_advance ha)) h.store
    (.refl s.store) now

theorem Reachable.policiesStay_after (h : Reachable c jobs s) (rs : List (Request × Instant)) :
    Store.PoliciesStay s.store (s.after c rs).store := by
  induction rs generalizing s with
  | nil => exact .refl s.store
  | cons e rs ih => exact (h.policiesStay e.1 e.2).trans (ih (h.request e.1 e.2))

theorem answer_projectRetention {r : Request} {project : ProjectId}
    (hcall : callOf r = .ok (.projectRetention project)) :
    ((serve c r).run now s).1 = r.shown
      (.json 200 (.obj [("retention_id", .ofOption .int (s.store.retentionId? project))])) := by
  rw [serve_of_call hcall]
  rfl

/-- Whatever requests come, each stored policy passes the check, keeps its id and its project, and
stays the policy that the service names for this project. -/
theorem stored_policies_stay (h : Reachable c jobs s) :
    (∀ id p, s.store.policy? id = some p →
      p.check c.catalog = .ok () ∧ p.Valid c.catalog ∧ p.id = some id) ∧
    (∀ rs id p, s.store.policy? id = some p →
      ∃ q, (s.after c rs).store.policy? id = some q ∧ q.id = p.id ∧ q.scope = p.scope) ∧
    ∀ project,
      (∀ r now, callOf r = .ok (.projectRetention project) →
        ((serve c r).run now s).1 = r.shown
          (.json 200 (.obj [("retention_id", .ofOption .int (s.store.retentionId? project))]))) ∧
      ∀ rs id, s.store.retentionId? project = some id →
        (s.after c rs).store.retentionId? project = some id := by
  refine ⟨fun id p hp => ?_, fun rs => h.policiesStay_after rs, fun project => ⟨?_, ?_⟩⟩
  · have hcheck := h.checked id p hp
    exact ⟨hcheck, Policy.valid_of_check hcheck, h.store.sound.policies.id_eq id p hp⟩
  · intro r now hcall
    exact answer_projectRetention hcall
  · intro rs id hid
    exact (h.policiesStay_after rs).retentionId? h.store.sound (h.after rs).store.sound hid

/-- Wants the policy to be another one, of another project. -/
def moveRequest : Request :=
  ⟨"PUT", "/api/retentions/1", some jsonType, .document (Wire.encodePolicy
    { (Policy.forProject 2).setCron hourlyCron with id := some 7 })⟩

theorem callOf_moveRequest :
    callOf moveRequest = .ok (.updatePolicy 1
      { (Policy.forProject 2).setCron hourlyCron with id := some 7 }) := by
  have hpath : moveRequest.segments = ["", "api", "retentions", "1"] := by decide +kernel
  refine callOf_update hpath rfl rfl (bodyOf_policy rfl rfl ?_)
  refine Wire.portable_of_no_rules ?_ (by decide) rfl
  rintro _ ⟨⟩
  decide

theorem stored_policies_stay_of_move :
    let s := stateAfter .willing [createRequest (.forProject 1)]
    let later := s.after (settingOf .willing) [(moveRequest, default)]
    ∃ p q, s.store.policy? 1 = some p ∧ later.store.policy? 1 = some q ∧
      p.trigger.cron = "" ∧ q.trigger.cron = hourlyCron ∧ q.check .standard = .ok () ∧
      q.id = some 1 ∧ q.scope = p.scope ∧ s.store.retentionId? 1 = some 1 ∧
      later.store.retentionId? 1 = some 1 := by
  intro s later
  have hs : Reachable (settingOf .willing) () s := reachable_stateAfter _ _
  have hcreated : s = _ := stateAfter_eq .willing (.cons callOf_createRequest_one .nil)
  have hbefore : (s.store.policy? 1).map (·.trigger.cron) = some "" := by
    rw [hcreated]
    decide +kernel
  obtain ⟨p, hp, hcron⟩ := Option.map_eq_some_iff.mp hbefore
  have hid : s.store.retentionId? 1 = some 1 := by
    rw [hcreated]
    decide +kernel
  obtain ⟨q, hq, hqid, hscope⟩ := (stored_policies_stay hs).2.1 [(moveRequest, default)] 1 p hp
  have hpid : p.id = some 1 := ((stored_policies_stay hs).1 1 p hp).2.2
  have hcheck : q.check .standard = .ok () :=
    ((stored_policies_stay (hs.after [(moveRequest, default)])).1 1 q hq).1
  have hafter : (later.store.policy? 1).map (·.trigger.cron) = some hourlyCron := by
    have hupdated : later = _ := State.after_of_call callOf_moveRequest default []
    rw [hupdated, hcreated]
    decide +kernel
  rw [hq] at hafter
  exact ⟨p, q, hp, hq, hcron, Option.some.inj hafter, hcheck, hqid.trans hpid, hscope, hid,
    ((stored_policies_stay hs).2.2 1).2 [(moveRequest, default)] 1 hid⟩

end Api

end TagRetention
