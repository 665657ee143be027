import TagRetention.Proofs.Client.LocalCopy

/-!
One client on a service that was empty at first. Whatever fails on the way, the service holds at
most the one policy that the client made, and the client knows its id as long as there is one.
-/

namespace TagRetention.Client

open Orchestrator

theorem LocalService.lastId_of_write {w w' : LocalService} {saved : Option PolicyId}
    {draft : Policy} {id : PolicyId} (h : write service saved draft w = (.ok id, w')) :
    w'.lastId = if saved.isSome then w.lastId else w.lastId + 1 := by
  cases saved with
  | none =>
    obtain ⟨v, hsame, h⟩ := respond_of_ok h
    cases writing_ok h
    exact congrArg (· + 1) hsame.lastId
  | some id' =>
    rcases hq : service (.updatePolicy id' draft) w with ⟨f | u, v⟩
    · simp only [write, hq] at h
      cases h
    · simp only [write, hq] at h
      cases h
      obtain ⟨v, hsame, h⟩ := respond_of_ok hq
      cases writing_ok h
      exact hsame.lastId

namespace Session

/-- All policies there are belong to the project and are known to the client. -/
structure Sole (project : ProjectId) (x : Session) : Prop where
  project_eq : x.client.project = project
  tracks : ∃ b, Tracks b x
  keys : x.service.policies.keys = x.client.saved.toList
  copyScope : x.client.policy.scope.reference = project
  scopes : ∀ e ∈ x.service.policies, e.2.scope.reference = project
  count : x.service.lastId = x.service.policies.length

variable {project : ProjectId} {x y : Session}

theorem Sole.congr (h : Sole project x) (hproject : y.client.project = x.client.project)
    (hsaved : y.client.saved = x.client.saved) (hcopy : y.client.policy = x.client.policy)
    (hsame : x.service.SamePolicies y.service) : Sole project y where
  project_eq := hproject.trans h.project_eq
  tracks := h.tracks.imp fun _ ht => ht.congr hproject hsaved hcopy hsame
  keys := by rw [hsame.policies, hsaved, h.keys]
  copyScope := hcopy ▸ h.copyScope
  scopes := hsame.policies ▸ h.scopes
  count := by rw [hsame.lastId, hsame.policies, h.count]

/-- The copy may change if the client still knows the same policy. -/
theorem Sole.adopted (h : Sole project x) (hproject : y.client.project = x.client.project)
    (htracks : Tracks false y) (hcopy : y.client.policy.scope.reference = project)
    (hsame : x.service.SamePolicies y.service) : Sole project y where
  project_eq := hproject.trans h.project_eq
  tracks := ⟨false, htracks⟩
  keys := by
    obtain ⟨b, hb⟩ := h.tracks
    rw [hsame.policies, htracks.saved_eq, hproject, hsame.projects, ← hb.saved_eq, h.keys]
  copyScope := hcopy
  scopes := hsame.policies ▸ h.scopes
  count := by rw [hsame.lastId, hsame.policies, h.count]

theorem Sole.policies_of_write (h : Sole project x) {draft : Policy} {id : PolicyId}
    {w : LocalService}
    (hw : write LocalService.service x.client.saved draft x.service = (.ok id, w)) :
    w.policies = [(id, draft.withId id)] ∧ w.lastId = 1 := by
  have hstored := LocalService.write_ok hw
  have hlast := LocalService.lastId_of_write hw
  have hkeys := h.keys
  have hcount := h.count
  rw [hstored.policies, hlast]
  cases hs : x.client.saved with
  | none =>
    rw [hs] at hkeys
    have hnil : x.service.policies = [] := List.map_eq_nil_iff.1 hkeys
    rw [hnil] at hcount ⊢
    exact ⟨rfl, congrArg (· + 1) hcount⟩
  | some id' =>
    have hid : id = id' := by rw [hstored.id_eq, hs, Option.getD_some]
    rw [hs] at hkeys
    obtain ⟨e, hone, hkey⟩ := List.map_eq_singleton_iff.1 hkeys
    rw [hone] at hcount ⊢
    rw [hid, ← hkey]
    exact ⟨by simp [Table.insert], hcount⟩

theorem Sole.written (h : Sole project x) {edit : Edit} {id : PolicyId} {w : LocalService}
    (hw : write LocalService.service x.client.saved (edit.apply x.client.policy) x.service =
      (.ok id, w)) (hsame : w.SamePolicies y.service) (htracks : ∃ b, Tracks b y)
    (hproject : y.client.project = x.client.project) (hsaved : y.client.saved = some id)
    (hcopy : y.client.policy.scope.reference = project) : Sole project y := by
  obtain ⟨hpolicies, hlast⟩ := h.policies_of_write hw
  rw [← hsame.policies] at hpolicies
  rw [← hsame.lastId] at hlast
  refine ⟨hproject.trans h.project_eq, htracks, ?_, hcopy, ?_, ?_⟩
  · rw [hpolicies, hsaved]
    rfl
  · rw [hpolicies]
    intro e he
    rw [List.mem_singleton.1 he]
    exact (congrArg Scope.reference (edit.scope_apply x.client.policy)).trans h.copyScope
  · rw [hpolicies, hlast]
    rfl

theorem Sole.load (h : Sole project x) : Sole project (x.call Orchestrator.load).2 := by
  have hend := load_end LocalService.service x.client x.service
  have htracks : (x.call Orchestrator.load).1.isOk = true →
      Tracks false (x.call Orchestrator.load).2 := tracks_of_load
  unfold call at htracks ⊢
  generalize Orchestrator.load.run LocalService.service x.client x.service = r at hend htracks ⊢
  cases hend with
  | lost hfind => exact h.congr rfl rfl rfl (LocalService.samePolicies_of_error hfind)
  | absent hfind =>
    have hsame := (LocalService.projectRetention_ok hfind).2
    exact h.adopted rfl (htracks rfl) h.project_eq hsame
  | unread hfind hread =>
    have hfound := (LocalService.projectRetention_ok hfind).2
    exact h.congr rfl rfl rfl (hfound.trans (LocalService.samePolicies_of_error hread))
  | done hfind hread =>
    have hfound := (LocalService.projectRetention_ok hfind).2
    obtain ⟨hp, hsame⟩ := LocalService.getPolicy_ok hread
    rw [hfound.policies] at hp
    exact h.adopted rfl (htracks rfl) (h.scopes _ (Table.mem_of_get? hp)) (hfound.trans hsame)

theorem Sole.loadCatalog (h : Sole project x) :
    Sole project (x.call Orchestrator.loadCatalog).2 := by
  simp only [call, Orchestrator.loadCatalog, Call.request, Call.run]
  rcases hread : LocalService.service .ruleCatalog x.service with ⟨f | m, w⟩
  · exact h.congr rfl rfl rfl (LocalService.samePolicies_of_error hread)
  · exact h.congr rfl rfl rfl (LocalService.ruleCatalog_ok hread)

theorem scope_noted (edit : Edit) (id : PolicyId) (o : Orchestrator) :
    (o.noted id (edit.apply o.policy)).policy.scope = o.policy.scope := by
  unfold noted
  cases o.saved with
  | none => exact edit.scope_apply o.policy
  | some id' => rfl

theorem project_noted (id : PolicyId) (draft : Policy) (o : Orchestrator) :
    (o.noted id draft).project = o.project := by
  unfold noted
  cases o.saved <;> rfl

theorem Sole.mutate (h : Sole project x) (m : Mutation) :
    Sole project (x.call (Orchestrator.mutate m)).2 := by
  obtain ⟨b, hb⟩ := h.tracks
  have htracks : ∃ b, Tracks b (x.call (Orchestrator.mutate m)).2 := ⟨_, hb.mutate m⟩
  have hend := mutate_end LocalService.service m x.client x.service
  unfold call at htracks ⊢
  generalize (Orchestrator.mutate m).run LocalService.service x.client x.service = r
    at hend htracks ⊢
  cases hend with
  | busy | refuse | keep => exact h.congr rfl rfl rfl (.refl _)
  | reject hplan hw => exact h.congr rfl rfl rfl (LocalService.write_error hw)
  | unseen hplan hw hread =>
    apply h.written hw (LocalService.samePolicies_of_error hread) htracks
    · exact project_noted _ _ x.client
    · exact (LocalService.write_ok hw).saved_noted
    · exact (congrArg Scope.reference (scope_noted _ _ x.client)).trans h.copyScope
  | @done edit id p w w' hplan hw hread =>
    obtain ⟨hp, hsame⟩ := LocalService.getPolicy_ok hread
    have hscope : p.scope.reference = project := by
      rw [(h.policies_of_write hw).1] at hp
      have hmem := Table.mem_of_get? hp
      rw [List.mem_singleton, Prod.mk.injEq] at hmem
      rw [hmem.2]
      exact (congrArg Scope.reference (edit.scope_apply x.client.policy)).trans h.copyScope
    apply h.written hw hsame htracks
    · cases m <;> rfl
    · cases m <;> rfl
    · cases m <;> exact hscope

theorem Sole.step (h : Sole project x) (st : Step) : Sole project (x.step st) := by
  cases st with
  | load => exact h.load
  | loadCatalog => exact h.loadCatalog
  | mutate m => exact h.mutate m
  | editSchedule editing => exact h.congr rfl rfl rfl (.refl _)
  | disturb rejectWrites failReads faults => exact h.congr rfl rfl rfl ⟨rfl, rfl, rfl⟩

theorem Sole.after (h : Sole project x) (steps : List Step) : Sole project (x.after steps) := by
  induction steps generalizing x with
  | nil => exact h
  | cons st steps ih => exact ih (h.step st)

theorem sole_new (project : ProjectId) : Sole project (new project) :=
  ⟨rfl, ⟨false, .unsaved rfl rfl rfl⟩, rfl, rfl, nofun, rfl⟩

theorem Sole.saved_eq_none_iff (h : Sole project x) :
    x.client.saved = none ↔ ∀ e ∈ x.service.policies, e.2.scope.reference ≠ project := by
  have hkeys := h.keys
  constructor
  · intro hs
    rw [hs] at hkeys
    rw [List.map_eq_nil_iff.1 hkeys]
    nofun
  · intro hnone
    cases hs : x.client.saved with
    | none => rfl
    | some id =>
      rw [hs] at hkeys
      obtain ⟨e, hone, -⟩ := List.map_eq_singleton_iff.1 hkeys
      have he : e ∈ x.service.policies := hone ▸ List.mem_cons_self
      exact absurd (h.scopes e he) (hnone e he)

/-- Whatever a client does on a service that was empty, and whatever fails: there is at most one
policy and no id was given to another one; the client has its id exactly when the service maps the
project to it, and none exactly when the service has no policy of the project. -/
theorem created_once (project : ProjectId) (steps : List Step) :
    let x := (new project).after steps
    x.service.policies.length ≤ 1 ∧ x.service.lastId = x.service.policies.length ∧
      (∀ id, x.client.saved = some id ↔ x.service.projects.get? project = some id) ∧
      (x.client.saved = none ↔ x.service.projects.get? project = none) ∧
      (x.client.saved = none ↔ ∀ e ∈ x.service.policies, e.2.scope.reference ≠ project) := by
  intro x
  have h : Sole project x := (sole_new project).after steps
  obtain ⟨b, hb⟩ := h.tracks
  have hsaved : x.client.saved = x.service.projects.get? project := by
    rw [hb.saved_eq, h.project_eq]
  have hlength : x.service.policies.length = x.client.saved.toList.length := by
    rw [← h.keys, Table.keys, List.length_map]
  refine ⟨?_, h.count, fun id => by rw [hsaved], by rw [hsaved], h.saved_eq_none_iff⟩
  rw [hlength]
  exact Option.length_toList_le

/-- A creation that was not seen and a rejected write later, there is still one policy. -/
example :
    let x := (new 1).after [.load, .failReads true, .mutate (.setTrigger dailyCron),
      .disturb (some "no") false [], .mutate (.setTrigger weeklyCron)]
    x.client.saved = some 1 ∧ x.service.policies.keys = [1] := by
  decide +kernel

end Session

end TagRetention.Client
