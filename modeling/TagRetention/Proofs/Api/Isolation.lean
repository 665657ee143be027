import TagRetention.Proofs.Api.Effects
import TagRetention.Proofs.Api.Paths
import TagRetention.Proofs.Store.Footprint

/-!
Requests under the path of one policy. Ids of executions and tasks are the same for all policies;
a request reaches them through the policy and the execution of its path only.
-/

namespace TagRetention

open Api

namespace Store

variable {s s' s'' : Store} {m : Catalog} {call : Call} {id : PolicyId} {now : Instant}
  {op : Operation}

/-- The stores agree on all that belongs to other policies. -/
structure Elsewhere (id : PolicyId) (s s' : Store) : Prop where
  policy : ∀ k, k ≠ id → s'.policy? k = s.policy? k
  execution : ∀ e x, x.policyId ≠ id → (s'.execution? e = some x ↔ s.execution? e = some x)
  task : ∀ k t x, s.execution? t.executionId = some x → x.policyId ≠ id →
    (s'.task? k = some t ↔ s.task? k = some t)

theorem Elsewhere.refl (id : PolicyId) (s : Store) : Elsewhere id s s :=
  ⟨fun _ _ => rfl, fun _ _ _ => Iff.rfl, fun _ _ _ _ _ => Iff.rfl⟩

theorem Elsewhere.trans (h : Elsewhere id s s') (h' : Elsewhere id s' s'') :
    Elsewhere id s s'' := by
  refine ⟨fun k hk => (h'.policy k hk).trans (h.policy k hk),
    fun e x hx => (h'.execution e x hx).trans (h.execution e x hx), fun k t x hx hne => ?_⟩
  have hx' : s'.execution? t.executionId = some x := (h.execution _ x hne).mpr hx
  exact (h'.task k t x hx' hne).trans (h.task k t x hx hne)

/-- The execution is of the policy or is not there yet. -/
def Own (id : PolicyId) (s : Store) (e : ExecutionId) : Prop :=
  ∀ r, s.executions.get? e = some r → r.policyId = id

theorem execution?_eq_some {e : ExecutionId} {x : Execution} (h : s.execution? e = some x) :
    ∃ r, s.executions.get? e = some r ∧ r.policyId = x.policyId := by
  obtain ⟨r, hr, rfl⟩ := Option.map_eq_some_iff.mp h
  exact ⟨r, hr, rfl⟩

theorem Sound.record_of_run (hs : s.Sound) {e : ExecutionId} {r : ExecutionRecord}
    (h : (op.run now s).2.executions.get? e = some r) :
    s.executions.get? e = some r ∨
      ∃ trigger dryRun start, op = .createExecution r.policyId trigger dryRun start := by
  rcases run_cases now s op with ⟨f, hr⟩ | ⟨_, hr, -⟩ | ⟨_, s', hr, hc⟩
  · rw [hr] at h
    exact .inl h
  · rw [hr] at h
    exact .inl h
  · rw [hr] at h
    cases hc with
    | save | update | createTask | updateTask | stopExecution => exact .inl h
    | delete =>
      rw [Table.get?_retain _ hs.executions.sorted, Option.filter_eq_some_iff] at h
      exact .inl h.1
    | createExecution =>
      rw [withRun, Table.get?_insert] at h
      split at h
      · cases h
        exact .inr ⟨_, _, _, rfl⟩
      · exact .inl h

theorem Sound.within_of_effect (h : s.Sound) {more : List Int} (htrail : call.trail = id :: more)
    (he : Effect m s call op) : op.Within (Own id s) s := by
  cases he with
  | save | update => trivial
  | createExecution =>
    intro r hr
    rw [h.executions.get?_next] at hr
    cases hr
  | createTask hr | stopExecution hr =>
    cases htrail
    intro r' hr'
    rw [hr] at hr'
    cases hr'
    rfl
  | updateTask ht hr =>
    cases htrail
    intro t ht' r' hr'
    cases ht.symm.trans ht'
    cases hr.symm.trans hr'
    rfl

theorem policy?_of_effect {more : List Int} (htrail : call.trail = id :: more)
    (he : Effect m s call op) {k : PolicyId} (hk : k ≠ id) :
    (op.run now s).2.policy? k = s.policy? k := by
  rcases run_cases now s op with ⟨f, hr⟩ | ⟨_, hr, -⟩ | ⟨_, s', hr, hc⟩
  · rw [hr]
  · rw [hr]
  · rw [hr]
    cases hc with
    | createExecution | createTask | updateTask | stopExecution => rfl
    | save => cases he; cases htrail
    | delete => cases he
    | @update _ old l hl hold =>
      cases he
      cases htrail
      obtain rfl : id = l := Option.some.inj hl
      rw [policy?, Table.get?_insert, if_neg hk]
      rfl

theorem Sound.elsewhere_of_advance (h : s.Sound) {more : List Int}
    (htrail : call.trail = id :: more) (ha : Advance m call s s') : Elsewhere id s s' := by
  obtain ⟨op, now, he, rfl⟩ := ha
  have hapart : Apart (Own id s) s (op.run now s).2 :=
    h.apart_run now (h.within_of_effect htrail he)
  have hforeign : ∀ e x, s.execution? e = some x → x.policyId ≠ id → ¬ Own id s e := by
    intro e x hx hne hown
    obtain ⟨r, hr, hpolicy⟩ := execution?_eq_some hx
    exact hne (hpolicy ▸ hown r hr)
  refine ⟨fun k hk => policy?_of_effect htrail he hk, fun e x hne => ?_, fun k t x hx hne => ?_⟩
  · by_cases hown : Own id s e
    -- the operation may work on this execution, but it is not another policy's before or after
    · have hbefore : s.execution? e ≠ some x := fun hx => hforeign e x hx hne hown
      have hafter : (op.run now s).2.execution? e ≠ some x := by
        intro hx
        obtain ⟨r, hr, hpolicy⟩ := execution?_eq_some hx
        rcases h.record_of_run hr with hold | ⟨trigger, dryRun, start, rfl⟩
        · exact hne (hpolicy ▸ hown r hold)
        · cases he
          cases htrail
          exact hne hpolicy.symm
      exact iff_of_false hafter hbefore
    · rw [hapart.execution e hown]
  · exact hapart.task k t (hforeign _ x hx hne)

theorem Sound.listExecutions_ok (h : s.Sound) {page : PageRequest} {p : Page Execution}
    (hp : s.listExecutions id page = .ok p) :
    p.total = (s.recordsOf id).length ∧
      ∀ x ∈ p.items, s.execution? x.id = some x ∧ x.policyId = id := by
  rw [listExecutions] at hp
  split at hp
  · cases hp
  · cases hp
    refine ⟨List.length_reverse, fun x hx => ?_⟩
    obtain ⟨r, hr, rfl⟩ := List.mem_map.mp hx
    have hmem : r ∈ s.recordsOf id :=
      List.mem_reverse.mp (List.mem_of_mem_drop (List.mem_of_mem_take hr))
    obtain ⟨hget, hpolicy⟩ := h.mem_recordsOf_iff.mp hmem
    refine ⟨?_, hpolicy⟩
    rw [execution?, show (s.fill r).id = r.id from rfl, hget, Option.map_some]

theorem Sound.listTasks_ok (h : s.Sound) {e : ExecutionId} {page : PageRequest} {p : Page Task}
    (hp : s.listTasks e page = .ok p) :
    p.total = (s.tasksOf e).length ∧ ∀ t ∈ p.items, s.task? t.id = some t ∧ t.executionId = e := by
  rw [listTasks] at hp
  split at hp
  · cases hp
  · cases hp
    refine ⟨rfl, fun t ht => ?_⟩
    have hmem : t ∈ s.tasksOf e := List.mem_of_mem_drop (List.mem_of_mem_take ht)
    obtain ⟨k, hk, he⟩ := h.mem_tasksOf_iff.mp hmem
    have hid : some t.id = some k := h.tasks.id_eq k t hk
    refine ⟨?_, he⟩
    rw [task?, Option.some.inj hid, hk]

end Store

namespace Api

open Handler

variable {σ : Type} {c : Setting σ} {jobs : σ} {now : Instant} {s : State σ} {call : Call}
  {id : PolicyId} {r : Request}

theorem handle_of_foreign_execution {e : ExecutionId} {more : List Int}
    (htrail : call.trail = id :: e :: more)
    (h : ∀ x, s.store.execution? e = some x → x.policyId ≠ id) :
    ∃ f, (handle c call).run now s = (.error f, s) := by
  have hfind : ∃ f, (findExecution id e).run now s = (.error f, s) := findExecution_of_foreign h
  obtain ⟨f, hf⟩ := hfind
  cases call with
  | act _ _ action =>
    cases htrail
    rw [handle]
    split
    · exact ⟨f, run_orElse_of_error _ (run_orElse_of_error _ hf)⟩
    · exact ⟨_, rfl⟩
  | listTasks =>
    cases htrail
    exact ⟨f, run_orElse_of_error _ hf⟩
  | taskLog | report =>
    cases htrail
    exact ⟨f, run_orElse_of_error _ (run_orElse_of_error _ hf)⟩
  | _ => cases htrail

theorem handle_of_foreign_task {e : ExecutionId} {t : TaskId} (htrail : call.trail = [id, e, t])
    (h : ∀ x, s.store.task? t = some x → x.executionId ≠ e) :
    ∃ f, (handle c call).run now s = (.error f, s) := by
  have hfind : ∃ f, (findTask id e t).run now s = (.error f, s) := findTask_of_foreign h
  obtain ⟨f, hf⟩ := hfind
  cases call with
  | taskLog | report =>
    cases htrail
    exact ⟨f, run_orElse_of_error _ hf⟩
  | _ => cases htrail

/-- The request fails without any effect. -/
def Rejected (c : Setting σ) (r : Request) (now : Instant) (s : State σ) : Prop :=
  400 ≤ ((serve c r).run now s).1.status ∧ ((serve c r).run now s).2 = s

theorem rejected_of_error
    (h : ∀ call, callOf r = .ok call → ∃ f, (handle c call).run now s = (.error f, s)) :
    Rejected c r now s := by
  rw [Rejected]
  cases hcall : callOf r with
  | error refusal =>
    rw [serve_of_refused hcall, Request.status_shown]
    exact ⟨le_status_of_refusal refusal, rfl⟩
  | ok call =>
    obtain ⟨f, hf⟩ := h call hcall
    rw [serve_of_call hcall, Request.status_shown, hf]
    exact ⟨le_status_of_fault f, rfl⟩

/-- The response has executions of the policy, as they are stored, and counts no others. -/
def ShowsExecutions (s : Store) (id : PolicyId) (response : Response) : Prop :=
  ∃ items : List Execution,
    response = .listing (s.recordsOf id).length (items.map Wire.encodeExecution) ∧
      ∀ x ∈ items, s.execution? x.id = some x ∧ x.policyId = id

/-- The response has tasks of the execution, as they are stored, and counts no others. -/
def ShowsTasks (s : Store) (e : ExecutionId) (response : Response) : Prop :=
  ∃ items : List Task,
    response = .listing (s.tasksOf e).length (items.map Wire.encodeTask) ∧
      ∀ t ∈ items, s.task? t.id = some t ∧ t.executionId = e

theorem answer_of_lookup {α β : Type} {find : Answer σ α} {look : Store → Except StoreFault β}
    {f : β → Response} (hfind : (find.run now s).2 = s)
    (hhandle : handle c call = find.orElse fun _ => ok (onStore fun _ s => (look s, s)) f)
    (hcall : callOf r = .ok call) (hget : r.method = "GET")
    (h : ((serve c r).run now s).1.status < 400) :
    ∃ b, look s.store = .ok b ∧ ((serve c r).run now s).1 = f b := by
  obtain ⟨response, s', hrun, hserve⟩ := serve_succeeded hcall h
  rw [hhandle] at hrun
  obtain ⟨a, s₁, hfound, hlisted⟩ := orElse_eq_ok hrun
  rw [hfound] at hfind
  obtain rfl : s₁ = s := hfind
  obtain ⟨b, s₂, hlook, hsent⟩ := orElse_eq_ok hlisted
  cases hsent
  refine ⟨b, congrArg Prod.fst (onStore_eq_ok hlook), ?_⟩
  rw [hserve, Request.shown, hget]
  rfl

theorem answer_listExecutions (hs : s.store.Sound) {page : PageRequest}
    (hcall : callOf r = .ok (.listExecutions id page)) (hget : r.method = "GET")
    (h : ((serve c r).run now s).1.status < 400) :
    ShowsExecutions s.store id ((serve c r).run now s).1 := by
  obtain ⟨p, hp, hanswer⟩ := answer_of_lookup rfl rfl hcall hget h
  obtain ⟨htotal, hitems⟩ := hs.listExecutions_ok hp
  exact ⟨p.items, htotal ▸ hanswer, hitems⟩

theorem answer_listTasks (hs : s.store.Sound) {e : ExecutionId} {page : PageRequest}
    (hcall : callOf r = .ok (.listTasks id e page)) (hget : r.method = "GET")
    (h : ((serve c r).run now s).1.status < 400) :
    ShowsTasks s.store e ((serve c r).run now s).1 := by
  obtain ⟨p, hp, hanswer⟩ := answer_of_lookup rfl rfl hcall hget h
  obtain ⟨htotal, hitems⟩ := hs.listTasks_ok hp
  exact ⟨p.items, htotal ▸ hanswer, hitems⟩

/-- A request under the path of a policy reaches what belongs to this policy and nothing else. -/
theorem isolated_by_path (h : Reachable c jobs s) {policy : String} {rest : List String}
    (hpath : r.segments = "" :: "api" :: "retentions" :: policy :: rest)
    (hid : pathId policy = .ok id) (now : Instant) :
    Store.Elsewhere id s.store ((serve c r).run now s).2.store ∧
    (∀ e more, rest = "executions" :: e :: more →
      (∀ eid x, pathId e = .ok eid → s.store.execution? eid = some x → x.policyId ≠ id) →
      Rejected c r now s) ∧
    (∀ e t more, rest = "executions" :: e :: "tasks" :: t :: more →
      (∀ eid tid x, pathId e = .ok eid → pathId t = .ok tid → s.store.task? tid = some x →
        x.executionId ≠ eid) →
      Rejected c r now s) ∧
    (r.method = "GET" → ((serve c r).run now s).1.status < 400 →
      (rest = ["executions"] → ShowsExecutions s.store id ((serve c r).run now s).1) ∧
      ∀ e, rest = ["executions", e, "tasks"] →
        ∃ eid, pathId e = .ok eid ∧ ShowsTasks s.store eid ((serve c r).run now s).1) := by
  have hsound := h.store.sound
  refine ⟨?_, ?_, ?_, fun hget hstatus => ⟨?_, ?_⟩⟩
  -- one operation at a time, and each has the policy of the path
  · apply invariant_of_advance _ h.store (.refl id s.store)
    intro call store store' hcall hstore helse hadvance
    obtain ⟨more, htrail⟩ := trail_of_path hpath hid hcall
    exact helse.trans (hstore.sound.elsewhere_of_advance htrail hadvance)
  -- ids that lead nowhere: the handler fails at its first look-up
  · rintro e more rfl hforeign
    apply rejected_of_error
    intro call hcall
    obtain ⟨eid, l, he, htrail⟩ := trail_of_execution_path hpath hid hcall
    exact handle_of_foreign_execution htrail (hforeign eid · he)
  · rintro e t more rfl hforeign
    apply rejected_of_error
    intro call hcall
    obtain ⟨eid, tid, he, ht, htrail⟩ := trail_of_task_path hpath hid hcall
    exact handle_of_foreign_task htrail (hforeign eid tid · he ht)
  · rintro rfl
    obtain ⟨call, hcall⟩ := callOf_of_status hstatus
    obtain ⟨page, rfl⟩ := listExecutions_of_path hpath hid hget hcall
    exact answer_listExecutions hsound hcall hget hstatus
  · rintro e rfl
    obtain ⟨call, hcall⟩ := callOf_of_status hstatus
    obtain ⟨eid, page, he, rfl⟩ := listTasks_of_path hpath hid hget hcall
    exact ⟨eid, he, answer_listTasks hsound hcall hget hstatus⟩

/-- Asks for the run of policy 1 under policy 2. -/
def strayRequest : Request :=
  ⟨"PATCH", "/api/retentions/2/executions/1", some jsonType,
    .document (.obj [("action", .str "stop")])⟩

theorem isolated_by_path_of_other_run :
    let s := stateAfter .willing
      [createRequest (.forProject 1), createRequest (.forProject 2), startRequest]
    (s.store.execution? 1).map (·.policyId) = some 1 ∧
      Rejected (settingOf .willing) strayRequest default s := by
  intro s
  have hs : Reachable (settingOf .willing) () s := reachable_stateAfter _ _
  have hpath : strayRequest.segments = ["", "api", "retentions", "2", "executions", "1"] := by
    decide +kernel
  have hid : pathId "2" = .ok 2 := rfl
  have howner : (s.store.execution? 1).map (·.policyId) = some 1 := by
    have hcreate := callOf_createRequest (Wire.portable_forProject 2 (by decide))
    have hstarted : s = _ := stateAfter_eq .willing
      (.cons callOf_createRequest_one (.cons hcreate (.cons callOf_startRequest .nil)))
    rw [hstarted]
    decide +kernel
  refine ⟨howner, (isolated_by_path hs hpath hid default).2.1 "1" [] rfl ?_⟩
  intro eid x he hx
  have hone : pathId "1" = .ok 1 := rfl
  cases hone.symm.trans he
  rw [hx] at howner
  have hpolicy : x.policyId = 1 := Option.some.inj howner
  rw [hpolicy]
  decide

end Api

end TagRetention
