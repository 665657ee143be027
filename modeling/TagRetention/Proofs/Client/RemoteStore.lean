import TagRetention.Proofs.Api.FanOut
import TagRetention.Proofs.Api.StoredPolicies
import TagRetention.Proofs.Client.Messages
import TagRetention.Proofs.Client.Replies

/-!
A client behind HTTP gets from the service what the store holds: the policies that it creates and
updates, and the pages of the listings.
-/

namespace TagRetention

/-- A page that a listing accepts, with numbers of 32 bits as a query has them. -/
structure PageRequest.Proper (page : PageRequest) : Prop where
  valid : page.fault? = none
  page_lt : page.page < 2 ^ 32
  size_lt : page.pageSize < 2 ^ 32

namespace Store

variable {s : Store} {p old : Policy} {id : PolicyId}

theorem update_eq (h : s.policy? id = some old) :
    s.update (p.withId id) =
      (.ok { p.withId id with scope := old.scope }, (s.update (p.withId id)).2) := by
  rw [policy?] at h
  simp only [update, Policy.withId, h]

theorem policy?_update (h : s.policy? id = some old) :
    (s.update (p.withId id)).2.policy? id = some { p.withId id with scope := old.scope } := by
  rw [policy?] at h
  simp only [update, Policy.withId, h, policy?, Table.get?_insert, if_true]

end Store

namespace Client

open Api Json Json.Node Json.Decode Transport Handler

variable {σ α : Type} {c : Setting σ} {jobs : σ} {now : Instant} {s s' : State σ} {p old : Policy}
  {id : PolicyId} {page : PageRequest}

theorem decodeBody_encodePolicy {d : Decoder α} {a : α} (hp : p.Portable)
    (hd : d (ofJson (Wire.encodePolicy p)) = .ok a) (status : Nat) :
    decodeBody d (.ofResponse (.json status (Wire.encodePolicy p))) = .ok a :=
  decodeBody_document rfl (Wire.isExact_encodePolicy hp.inRange hp.exactParams) hp.depth hd

theorem shown_message (q : Request) (response : Response) :
    (message q).shown response = response := by
  have hmethod : (message q).method ≠ "HEAD" := by
    cases q <;> simp [message, sending]
  exact if_neg hmethod

theorem remote_of_call {q : Request} {call : Api.Call} {response : Response}
    (hcall : callOf (message q) = .ok call)
    (hrun : (handle c call).run now s = (.ok response, s'))
    (hstatus : isSuccess (.ofResponse response) = true) :
    remote c now q s = (accepted (.ofResponse response) q, s') := by
  simp only [remote, serve_of_call hcall, hrun, Response.ofResult, shown_message, interpret,
    hstatus, if_true]

theorem remote_of_malformed {q : Request} (hcall : callOf (message q) = .error .malformedBody) :
    remote c now q s = (.error (.rejected 400 "Failed to read the body as JSON"), s) := by
  have hstatus : isSuccess (.ofResponse Refusal.malformedBody.response) = false := rfl
  have hdetail : rejection (.ofResponse Refusal.malformedBody.response) =
      .rejected 400 "Failed to read the body as JSON" := rfl
  simp only [remote, serve_of_refused hcall, shown_message, interpret, hstatus, hdetail,
    Bool.false_eq_true, if_false]

theorem remote_createPolicy (now : Instant) (hp : p.Portable)
    (hcheck : p.check c.catalog = .ok ()) (hfree : s.store.policyOf? p.scope.reference = none)
    (hnext : Fits 63 s.store.nextPolicy) :
    remote c now (.createPolicy p) s =
      (.ok s.store.nextPolicy, { s with store := (s.store.save p).2 }) := by
  have hrun : (handle c (.createPolicy p)).run now s =
      (.ok (.json 201 (Wire.encodePolicy (p.withId s.store.nextPolicy))),
        { s with store := (s.store.save p).2 }) := by
    rw [handle, hcheck, guarded, run_ok, run_onStore_ok (Store.save_eq hfree)]
    rfl
  have hstored : (p.withId s.store.nextPolicy).Portable :=
    Wire.portable_stored hp hnext hp.inRange.2.1
  have hcall : callOf (message (.createPolicy p)) = .ok (.createPolicy p) := by
    rw [callOf_createPolicy hp.inRange hp.exactParams, if_pos hp.depth]
  have hreply : decodeBody createdId
      (.ofResponse (.json 201 (Wire.encodePolicy (p.withId s.store.nextPolicy)))) =
        .ok s.store.nextPolicy :=
    decodeBody_encodePolicy hstored (createdId_ofJson rfl hnext) 201
  rw [remote_of_call hcall hrun rfl, accepted, hreply]

theorem remote_getPolicy (hid : Fits 63 id) (hget : s.store.policy? id = some p)
    (hp : p.Portable) : remote c now (.getPolicy id) s = (.ok p, s) := by
  have hrun : (handle c (.getPolicy id)).run now s =
      (.ok (.json 200 (Wire.encodePolicy p)), s) := by
    rw [handle, run_ok, findPolicy, run_read, hget]
    rfl
  have hreply : decodeBody Wire.policy (.ofResponse (.json 200 (Wire.encodePolicy p))) = .ok p :=
    decodeBody_encodePolicy hp (Wire.policy_ofJson hp.inRange) 200
  rw [remote_of_call (callOf_getPolicy hid) hrun rfl, accepted, hreply]

theorem remote_projectRetention {project : ProjectId} (hproject : Fits 63 project)
    (hid : Fits 63 id) (hfound : s.store.retentionId? project = some id) :
    remote c now (.projectRetention project) s = (.ok (some id), s) := by
  have hrun : (handle c (.projectRetention project)).run now s =
      (.ok (.json 200 (.obj [("retention_id", .int id)])), s) := by
    rw [Store.retentionId?] at hfound
    rw [handle, run_ok, run_read, Except.map, hfound]
    rfl
  have hreply : decodeBody retentionId
      (.ofResponse (.json 200 (.obj [("retention_id", .int id)]))) = .ok (some id) := by
    have hdepth : (Json.obj [("retention_id", .int id)]).depth ≤ maxDepth :=
      Nat.le_of_lt (by decide : 1 < maxDepth)
    exact decodeBody_document rfl ⟨Wire.isExact_int hid, trivial⟩ hdepth (retentionId_ofJson hid)
  rw [remote_of_call (callOf_projectRetention hproject) hrun rfl, accepted, hreply]

theorem remote_updatePolicy (hid : Fits 63 id) (hp : p.Portable)
    (hcheck : p.check c.catalog = .ok ()) (hold : s.store.policy? id = some old) :
    remote c now (.updatePolicy id p) s =
      (.ok (), { s with store := (s.store.update (p.withId id)).2 }) := by
  have hrun : (handle c (.updatePolicy id p)).run now s =
      (.ok (.json 200 (Wire.encodePolicy { p.withId id with scope := old.scope })),
        { s with store := (s.store.update (p.withId id)).2 }) := by
    rw [handle, hcheck, guarded, run_ok, run_onStore_ok (Store.update_eq hold)]
    rfl
  have hcall : callOf (message (.updatePolicy id p)) = .ok (.updatePolicy id p) := by
    rw [callOf_updatePolicy hid hp.inRange hp.exactParams, if_pos hp.depth]
  exact remote_of_call hcall hrun rfl

theorem remote_listExecutions (h : s.store.Reachable) (hb : s.store.Bounded)
    (hk : s.store.TimesKept) (hp : s.store.policy? id = some p) (hpage : page.Proper) :
    remote c now (.listExecutions id page) s = (.ok (page.of (s.store.runsOf id)), s) := by
  have hrun : (handle c (.listExecutions id page)).run now s =
      (.ok (.listing (s.store.runsOf id).length
        ((page.slice (s.store.runsOf id)).map Wire.encodeExecution)), s) := by
    have hfind : (findPolicy id).run now s = (.ok p, s) := by rw [findPolicy, run_read, hp]
    rw [handle, run_orElse_of_ok _ hfind, run_ok,
      run_onStore_ok (congrArg (·, s.store) (s.store.listExecutions_eq id hpage.valid))]
    rfl
  have hportable : ∀ e ∈ page.slice (s.store.runsOf id), e.Portable := fun e he =>
    h.portable_of_mem_runsOf hb hk hp (List.mem_of_mem_drop (List.mem_of_mem_take he))
  have hreply : pageOf Wire.execution (.ofResponse (.listing (s.store.runsOf id).length
      ((page.slice (s.store.runsOf id)).map Wire.encodeExecution))) =
        .ok (page.of (s.store.runsOf id)) :=
    pageOf_listing (h.length_runsOf_lt hb id)
      (fun e he => Wire.isExact_encodeExecution (hportable e he))
      (fun e _ => (Wire.depth_encodeExecution e).trans_le (by decide))
      (fun e he => Wire.execution_ofJson (hportable e he))
  have hcall := callOf_listExecutions (h.fits_policyId hb hp) hpage.page_lt hpage.size_lt
  rw [remote_of_call hcall hrun rfl, accepted, hreply]

theorem remote_listTasks (h : Api.Reachable c jobs s) (hb : s.store.Bounded)
    (hk : s.store.TimesKept) {e : ExecutionId} {x : Execution}
    (hx : s.store.execution? e = some x) (hpage : page.Proper) :
    remote c now (.listTasks x.policyId e page) s = (.ok (page.of (s.store.tasksOf e)), s) := by
  obtain ⟨r, hr, hfill⟩ := Option.map_eq_some_iff.mp hx
  have hpolicy : r.policyId = x.policyId := congrArg Execution.policyId hfill
  obtain ⟨p, hp⟩ := Option.isSome_iff_exists.mp (h.store.sound.policy_of_execution e r hr)
  have hid : Fits 63 x.policyId := h.store.fits_policyId hb (hpolicy ▸ hp)
  have hrun : (handle c (.listTasks x.policyId e page)).run now s =
      (.ok (.listing (s.store.tasksOf e).length
        ((page.slice (s.store.tasksOf e)).map Wire.encodeTask)), s) := by
    rw [handle, run_orElse_of_ok _ (run_findExecution_of_some hx), run_ok,
      run_onStore_ok (congrArg (·, s.store) (s.store.listTasks_eq e hpage.valid))]
    rfl
  have hportable : ∀ t ∈ page.slice (s.store.tasksOf e), t.Portable := fun t ht =>
    h.portable_of_mem_tasksOf hb hk hr (List.mem_of_mem_drop (List.mem_of_mem_take ht))
  have hreply : pageOf Wire.task (.ofResponse (.listing (s.store.tasksOf e).length
      ((page.slice (s.store.tasksOf e)).map Wire.encodeTask))) =
        .ok (page.of (s.store.tasksOf e)) :=
    pageOf_listing (h.store.length_tasksOf_lt hb e)
      (fun t ht => Wire.isExact_encodeTask (hportable t ht))
      (fun t _ => (Wire.depth_encodeTask t).trans_le (by decide))
      (fun t ht => Wire.task_ofJson (hportable t ht))
  have hcall := callOf_listTasks hid (h.store.fits_executionId hb hr) hpage.page_lt hpage.size_lt
  rw [remote_of_call hcall hrun rfl, accepted, hreply]

theorem reachable_remote (h : Api.Reachable c jobs s) (q : Request) (now : Instant) :
    Api.Reachable c jobs (remote c now q s).2 :=
  h.request (message q) now

theorem remote_updated (hid : Fits 63 id) (hscope : Fits 63 old.scope.reference)
    (hold : s.store.policy? id = some old) (hp : p.Portable) (hcheck : p.check c.catalog = .ok ()) :
    ∃ s', remote c now (.updatePolicy id p) s = (.ok (), s') ∧
      ∀ now, remote c now (.getPolicy id) s' =
        (.ok { p.withId id with scope := old.scope }, s') :=
  ⟨_, remote_updatePolicy hid hp hcheck hold, fun _ =>
    remote_getPolicy hid (Store.policy?_update hold) (Wire.portable_stored hp hid hscope)⟩

/-- A client finds the policy that it created under the id that it was given, and finds it as it
updates it, whatever requests come in between. The pages that it lists are those of the store. -/
theorem remote_agrees_with_store (h : Api.Reachable c jobs s) (hb : s.store.Bounded)
    (hk : s.store.TimesKept) :
    (∀ (p : Policy) now, p.Portable → p.check c.catalog = .ok () →
      s.store.policyOf? p.scope.reference = none →
        ∃ id s₁, remote c now (.createPolicy p) s = (.ok id, s₁) ∧
          (∀ now, remote c now (.getPolicy id) s₁ = (.ok (p.withId id), s₁)) ∧
          ∀ rs, (∀ now, remote c now (.projectRetention p.scope.reference) (s₁.after c rs) =
              (.ok (some id), s₁.after c rs)) ∧
            ∀ (q : Policy) now, q.Portable → q.check c.catalog = .ok () →
              ∃ s₂, remote c now (.updatePolicy id q) (s₁.after c rs) = (.ok (), s₂) ∧
                ∀ now, remote c now (.getPolicy id) s₂ =
                  (.ok { q.withId id with scope := p.scope }, s₂)) ∧
    (∀ id p page now, s.store.policy? id = some p → page.Proper →
      ∃ listing, s.store.listExecutions id page = .ok listing ∧
        remote c now (.listExecutions id page) s = (.ok listing, s)) ∧
    ∀ e x page now, s.store.execution? e = some x → page.Proper →
      ∃ listing, s.store.listTasks e page = .ok listing ∧
        remote c now (.listTasks x.policyId e page) s = (.ok listing, s) := by
  refine ⟨fun p now hp hcheck hfree => ?_, fun id p page now hid hpage => ?_,
    fun e x page now hx hpage => ?_⟩
  · have hcreate := remote_createPolicy now hp hcheck hfree hb.policies
    have hget := Store.policy?_save hfree
    have hreach := reachable_remote h (.createPolicy p) now
    rw [hcreate] at hreach
    have hproject : Fits 63 p.scope.reference := hp.inRange.2.1
    refine ⟨_, _, hcreate, fun _ => ?_, fun rs => ?_⟩
    · exact remote_getPolicy hb.policies hget (Wire.portable_stored hp hb.policies hproject)
    -- No request takes the policy from its id or its project, so the update still finds it.
    · obtain ⟨r, hr, -, hscope⟩ := hreach.policiesStay_after rs _ _ hget
      have hscope : r.scope = p.scope := hscope
      have hsound := (hreach.after rs).store.sound
      refine ⟨fun _ => ?_, fun q now hq hqcheck => ?_⟩
      · exact remote_projectRetention hproject hb.policies
          (hsound.retentionId?_eq_some_iff.mpr ⟨r, hr, congrArg Scope.reference hscope⟩)
      · rw [← hscope] at hproject ⊢
        exact remote_updated hb.policies hproject hr hq hqcheck
  · exact ⟨_, s.store.listExecutions_eq id hpage.valid,
      remote_listExecutions h.store hb hk hid hpage⟩
  · exact ⟨_, s.store.listTasks_eq e hpage.valid, remote_listTasks h hb hk hx hpage⟩

/-- A run of two tasks is in the store as the client creates a policy for another project. -/
theorem remote_agrees_with_store_of_second_policy :
    let s := (State.fresh .empty).after journaled
      [(keepRequest "\x7ba,b\x7d", default), (startRequest, default)]
    let p := Policy.forProject 2
    let q := { (Policy.forProject 3).setCron hourlyCron with id := some 9 }
    Api.Reachable journaled .empty s ∧ s.store.Bounded ∧ s.store.TimesKept ∧
      (∃ id s₁ s₂, remote journaled default (.createPolicy p) s = (.ok id, s₁) ∧
        remote journaled default (.getPolicy id) s₁ = (.ok (p.withId id), s₁) ∧
        remote journaled default (.projectRetention 2) s₁ = (.ok (some id), s₁) ∧
        remote journaled default (.updatePolicy id q) s₁ = (.ok (), s₂) ∧
        remote journaled default (.getPolicy id) s₂ =
          (.ok { q.withId id with scope := p.scope }, s₂)) ∧
      (∃ runs, s.store.listExecutions 1 ⟨1, 10⟩ = .ok runs ∧ runs.total = 1 ∧
        remote journaled default (.listExecutions 1 ⟨1, 10⟩) s = (.ok runs, s)) ∧
      ∃ tasks, s.store.listTasks 1 ⟨2, 1⟩ = .ok tasks ∧ tasks.total = 2 ∧
        remote journaled default (.listTasks 1 1 ⟨2, 1⟩) s = (.ok tasks, s) := by
  intro s p q
  have hs : Api.Reachable journaled .empty s := Reachable.fresh.after _
  have hfacts : (s.store.nextPolicy = 2 ∧ s.store.nextExecution = 2 ∧ s.store.nextTask = 3) ∧
      ((∀ r ∈ s.store.executions.values, r.startTime.Kept) ∧
        (∀ t ∈ s.store.tasks.values, ∀ i ∈ t.startTime, i.Kept) ∧
        ∀ t ∈ s.store.tasks.values, ∀ i ∈ t.endTime, i.Kept) ∧
      (s.store.policyOf? 2).isNone ∧ (s.store.policy? 1).isSome ∧
      (s.store.execution? 1).map (·.policyId) = some 1 ∧ (s.store.runsOf 1).length = 1 ∧
      (s.store.tasksOf 1).length = 2 := by
    have hstarted : s = _ := (State.after_of_call (callOf_keepRequest _) _ _).trans
      (State.after_of_call callOf_startRequest _ _)
    rw [hstarted]
    decide +kernel
  obtain ⟨⟨hpolicy, hexecution, htask⟩, ⟨hbegun, hstarted, hended⟩, hfree, hsome, hrun, hruns,
    htasks⟩ := hfacts
  have hbounded : s.store.Bounded :=
    ⟨hpolicy ▸ by decide, hexecution ▸ by decide, htask ▸ by decide⟩
  have hkept : s.store.TimesKept := ⟨hbegun, hstarted, hended⟩
  have hp : p.Portable := Wire.portable_forProject 2 (by decide)
  have hq : q.Portable := by
    refine Wire.portable_of_no_rules ?_ (by decide) rfl
    rintro _ ⟨⟩
    decide
  obtain ⟨hcreate, hlistRuns, hlistTasks⟩ := remote_agrees_with_store hs hbounded hkept
  obtain ⟨id, s₁, hid, hget, hlater⟩ :=
    hcreate p default hp (by decide +kernel) (Option.isNone_iff_eq_none.mp hfree)
  obtain ⟨s₂, hupdate, hupdated⟩ := (hlater []).2 q default hq (by decide +kernel)
  obtain ⟨stored, hstored⟩ := Option.isSome_iff_exists.mp hsome
  obtain ⟨x, hx, hpolicy⟩ := Option.map_eq_some_iff.mp hrun
  obtain ⟨runs, hlist, hremote⟩ :=
    hlistRuns 1 stored ⟨1, 10⟩ default hstored ⟨rfl, by decide, by decide⟩
  obtain ⟨tasks, hlist', hremote'⟩ :=
    hlistTasks 1 x ⟨2, 1⟩ default hx ⟨rfl, by decide, by decide⟩
  rw [hpolicy] at hremote'
  clear_value s
  refine ⟨hs, hbounded, hkept,
    ⟨id, s₁, s₂, hid, hget default, (hlater []).1 default, hupdate, hupdated default⟩,
    ⟨runs, hlist, ?_, hremote⟩, tasks, hlist', ?_, hremote'⟩
  · rw [s.store.listExecutions_eq 1 rfl] at hlist
    cases hlist
    exact hruns
  · rw [s.store.listTasks_eq 1 rfl] at hlist'
    cases hlist'
    exact htasks

/-- A policy whose document nests too deep is not created, nor does it replace another one. -/
theorem remote_refuses_deep_policy (h : p.InRange) (hparams : p.ExactParams)
    (hdeep : maxDepth < (Wire.encodePolicy p).depth) :
    (∃ detail, remote c now (.createPolicy p) s = (.error (.rejected 400 detail), s)) ∧
      ∀ id, Fits 63 id →
        ∃ detail, remote c now (.updatePolicy id p) s = (.error (.rejected 400 detail), s) := by
  refine ⟨⟨_, remote_of_malformed ?_⟩, fun id hid => ⟨_, remote_of_malformed ?_⟩⟩
  · rw [callOf_createPolicy h hparams, if_neg (Nat.not_le_of_lt hdeep)]
  · rw [callOf_updatePolicy hid h hparams, if_neg (Nat.not_le_of_lt hdeep)]

def nested : Nat → Json.Value
  | 0 => .null
  | n + 1 => .array [nested n]

/-- Four containers are around the parameter, so 128 in all nest, one more than the reader takes. -/
def deepPolicy : Policy :=
  { Policy.forProject 1 with
    rules := [{ Rule.blank with
      template := "always"
      params := Members.empty.insert "note" (nested 124)
      repository := RepositoryDecoration.repoMatches.selector "**"
      tag := TagDecoration.matches.selector "**"
      label := LabelDecoration.withLabels.selector "**" }] }

theorem isExact_nested (n : Nat) : (nested n).json.IsExact := by
  induction n with
  | zero => trivial
  | succ n ih => exact ⟨ih, trivial⟩

theorem deepPolicy_not_created :
    let s := State.fresh Journal.empty
    Api.Reachable journaled .empty s ∧ deepPolicy.InRange ∧ deepPolicy.ExactParams ∧
      deepPolicy.check journaled.catalog = .ok () ∧
      s.store.policyOf? deepPolicy.scope.reference = none ∧
      ∃ detail, remote journaled default (.createPolicy deepPolicy) s =
        (.error (.rejected 400 detail), s) := by
  intro s
  have hrange : deepPolicy.InRange := by
    refine ⟨by rintro _ ⟨⟩, by decide, fun r hr => ?_⟩
    obtain rfl := List.mem_singleton.mp hr
    exact fits_zero 31
  have hparams : deepPolicy.ExactParams := by
    intro r hr
    obtain rfl := List.mem_singleton.mp hr
    exact ⟨isExact_nested 124, trivial⟩
  have hcheck : deepPolicy.check journaled.catalog = .ok () := by decide +kernel
  have hdeep : maxDepth < (Wire.encodePolicy deepPolicy).depth := by decide +kernel
  exact ⟨.fresh, hrange, hparams, hcheck, rfl, (remote_refuses_deep_policy hrange hparams hdeep).1⟩

end Client

end TagRetention
