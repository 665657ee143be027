import Mathlib.Logic.Relation
import TagRetention.Proofs.Api.FailedRequest

/-!
What a call may do to the store, said once: the operations that it can come to, each with what is
known when it is carried out. A request takes the store along a path of such operations.
-/

namespace TagRetention.Api

open Handler Relation

variable {σ α β : Type} {c : Setting σ} {m : Catalog} {call : Call} {now : Instant} {s : State σ}
  {R : Store → Store → Prop} {jobs : σ}

inductive Effect (m : Catalog) (s : Store) : Call → Store.Operation → Prop where
  | save {p : Policy} (hp : p.check m = .ok ()) : Effect m s (.createPolicy p) (.save p)
  | update {p : Policy} (id : PolicyId) (hp : p.check m = .ok ()) :
    Effect m s (.updatePolicy id p) (.update (p.withId id))
  | createExecution (id : PolicyId) (dryRun : Bool) (start : Instant) :
    Effect m s (.trigger id dryRun) (.createExecution id .manual dryRun start)
  | createTask {execution : ExecutionId} {r : ExecutionRecord}
    (hr : s.executions.get? execution = some r) (dryRun : Bool) (job : Job) :
    Effect m s (.trigger r.policyId dryRun) (.createTask execution job.repository job.id)
  | stopExecution {execution : ExecutionId} {r : ExecutionRecord}
    (hr : s.executions.get? execution = some r) (action : String) :
    Effect m s (.act r.policyId execution action) (.stopExecution execution)
  | updateTask {report : StatusReport} {r : ExecutionRecord} {t : Task}
    (ht : s.tasks.get? report.taskId = some t) (hr : s.executions.get? t.executionId = some r) :
    Effect m s (.report r.policyId t.executionId report.taskId report.status report.revision
      report.total report.retained) (.updateTask report)

def Advance (m : Catalog) (call : Call) (s s' : Store) : Prop :=
  ∃ op now, Effect m s call op ∧ s' = (op.run now s).2

/-- The handler takes the store along the relation. -/
def Takes (R : Store → Store → Prop) (h : Handler (State σ) α) (now : Instant) (s : State σ) :
    Prop :=
  ReflTransGen R s.store (h.run now s).2.store

theorem takes_of_keeps {h : Handler (State σ) α} (hk : ∀ P, Keeps P h) : Takes R h now s :=
  hk (ReflTransGen R s.store) now s .refl

theorem takes_onStore {f : Instant → Store → Except StoreFault α × Store} {op : Store.Operation}
    (hf : (f now s.store).2 = (op.run now s.store).2) (he : Effect m s.store call op) :
    Takes (Advance m call) (onStore f : Answer σ α) now s :=
  .single ⟨op, now, he, hf⟩

theorem Takes.orElse {h : Answer σ α} {f : α → Answer σ β} (hh : Takes R h now s)
    (hf : ∀ a s', h.run now s = (.ok a, s') → Takes R (f a) now s') :
    Takes R (h.orElse f) now s := by
  cases hr : h.run now s with
  | mk result s' =>
    rw [Takes, hr] at hh
    rw [Takes]
    cases result with
    | error e => rwa [run_orElse_of_error f hr]
    | ok a =>
      rw [run_orElse_of_ok f hr]
      exact hh.trans (hf a s' hr)

theorem Takes.orElse_of_keeps {h : Answer σ α} {f : α → Answer σ β} (hk : ∀ P, Keeps P h)
    (hf : ∀ a s', h.run now s = (.ok a, s') → s'.store = s.store → Takes R (f a) now s') :
    Takes R (h.orElse f) now s := by
  refine (takes_of_keeps hk).orElse fun a s' hr => hf a s' hr ?_
  have hstore := hk (· = s.store) now s rfl
  rwa [hr] at hstore

theorem Takes.ok {h : Answer σ α} (hh : Takes R h now s) (f : α → Response) :
    Takes R (ok h f) now s :=
  hh.orElse fun _ _ _ => .refl

theorem Takes.guarded {h : Answer σ α} {check : Except Fault Unit}
    (hh : check = .ok () → Takes R h now s) : Takes R (guarded check h) now s := by
  cases check with
  | error f => exact .refl
  | ok _ => exact hh rfl

theorem createExecution_ok {store store' : Store} {policy : PolicyId} {trigger : RunTrigger}
    {dryRun : Bool} {start : Instant} {e : Execution}
    (h : store.createExecution policy trigger dryRun start = (.ok e, store')) :
    ∃ r, store'.executions.get? e.id = some r ∧ r.policyId = policy := by
  rw [Store.createExecution] at h
  split at h
  · cases h
  · cases h
    exact ⟨_, Store.get?_withRun, rfl⟩

theorem takes_createTasks {execution : ExecutionId} {r : ExecutionRecord}
    (hr : s.store.executions.get? execution = some r) (dryRun : Bool) (jobs : List Job) :
    Takes (Advance m (.trigger r.policyId dryRun)) (createTasks execution jobs) now s := by
  induction jobs generalizing s with
  | nil => exact .refl
  | cons job jobs ih =>
    apply Takes.orElse (takes_onStore rfl (.createTask hr dryRun job))
    intro t s' ht
    have hstore : s'.store = s.store.withTask execution now job := by
      have htask := onStore_eq_ok ht
      rw [Store.createTask_eq hr] at htask
      exact (Prod.mk.inj htask).2.symm
    apply ih
    rw [hstore]
    exact hr

theorem takes_launchJobs (c : Setting σ) (p : Policy) {e : Execution} {r : ExecutionRecord}
    (hr : s.store.executions.get? e.id = some r) (dryRun : Bool) :
    Takes (Advance m (.trigger r.policyId dryRun)) (launchJobs c p e) now s := by
  rw [launchJobs]
  split
  · apply Takes.orElse_of_keeps fun _ => keeps_onJobs _
    intro jobs s' _ hstore
    exact takes_createTasks (hstore ▸ hr) dryRun jobs
  · exact .refl

theorem takes_triggerRun (c : Setting σ) (id : PolicyId) (dryRun : Bool) :
    Takes (Advance m (.trigger id dryRun)) (triggerRun c id dryRun) now s := by
  apply Takes.orElse_of_keeps fun _ => keeps_findPolicy id
  intro p s₁ _ _
  apply Takes.orElse (takes_onStore rfl (.createExecution id dryRun now))
  intro e s₂ he
  obtain ⟨r, hr, rfl⟩ := createExecution_ok (onStore_eq_ok he)
  apply (takes_launchJobs c p hr dryRun).orElse
  intro _ s₃ _
  exact takes_of_keeps fun _ => keeps_findExecution r.policyId e.id

theorem takes_stopRun (c : Setting σ) (id : PolicyId) (execution : ExecutionId) (action : String) :
    Takes (Advance m (.act id execution action)) (stopRun c id execution) now s := by
  apply Takes.orElse_of_keeps fun _ => keeps_findExecution id execution
  intro e s₁ he h₁
  obtain ⟨r, hr, rfl⟩ := findExecution_ok he
  apply Takes.orElse_of_keeps fun _ => keeps_lookup _
  intro tasks s₂ _ h₂
  apply Takes.orElse_of_keeps fun _ => keeps_onJobs _
  intro _ s₃ _ h₃
  -- nothing before the stop changes the store, so the execution is still there
  have hr₃ : s₃.store.executions.get? execution = some r := by
    rw [h₃, h₂, h₁, hr]
  apply (takes_onStore rfl (.stopExecution hr₃ action)).orElse
  intro _ s₄ _
  exact takes_of_keeps fun _ => keeps_findExecution r.policyId execution

theorem takes_handle (c : Setting σ) (call : Call) :
    Takes (Advance c.catalog call) (handle c call) now s := by
  cases call with
  | health | catalog => exact .refl
  | projectRetention project =>
    apply Takes.ok
    exact takes_of_keeps fun _ => preserves_read _
  | createPolicy p =>
    apply Takes.guarded
    intro hp
    exact (takes_onStore rfl (.save hp)).ok _
  | getPolicy id => exact (takes_of_keeps fun _ => keeps_findPolicy id).ok _
  | updatePolicy id p =>
    apply Takes.guarded
    intro hp
    exact (takes_onStore rfl (.update id hp)).ok _
  | trigger id dryRun => exact (takes_triggerRun c id dryRun).ok _
  | listExecutions id page =>
    apply Takes.orElse_of_keeps fun _ => keeps_findPolicy id
    intro _ _ _ _
    exact (takes_of_keeps fun _ => keeps_lookup _).ok _
  | act id execution action =>
    rw [handle]
    split
    · exact (takes_stopRun c id execution action).ok _
    · exact .refl
  | listTasks id execution page =>
    apply Takes.orElse_of_keeps fun _ => keeps_findExecution id execution
    intro _ _ _ _
    exact (takes_of_keeps fun _ => keeps_lookup _).ok _
  | taskLog id execution task =>
    apply Takes.orElse_of_keeps fun _ => keeps_findTask id execution task
    intro _ _ _ _
    exact (takes_of_keeps fun _ => keeps_onJobs _).ok _
  | report id execution task status revision total retained =>
    apply Takes.orElse_of_keeps fun _ => keeps_findTask id execution task
    intro t s' ht hstore
    obtain ⟨⟨r, hr, rfl⟩, hstored, rfl⟩ := findTask_ok ht
    rw [← hstore] at hr hstored
    exact (takes_onStore rfl
      (@Effect.updateTask _ _ ⟨task, status, revision, total, retained⟩ _ _ hstored hr)).ok _

theorem takes_serve {r : Request} (hcall : callOf r = .ok call) :
    Takes (Advance c.catalog call) (serve c r) now s := by
  rw [Takes, serve_of_call hcall]
  exact takes_handle c call

/-- The state after the requests, each answered before the next one comes in. -/
def State.after (c : Setting σ) (s : State σ) : List (Request × Instant) → State σ
  | [] => s
  | (r, now) :: rs => State.after c ((serve c r).run now s).2 rs

theorem State.after_of_call {r : Request} {call : Call} (h : callOf r = .ok call) (now : Instant)
    (rs : List (Request × Instant)) :
    s.after c ((r, now) :: rs) = State.after c ((handle c call).run now s).2 rs := by
  rw [State.after, serve_of_call h]

theorem Reachable.after (h : Reachable c jobs s) (rs : List (Request × Instant)) :
    Reachable c jobs (s.after c rs) := by
  induction rs generalizing s with
  | nil => exact h
  | cons e rs ih => exact ih (h.request e.1 e.2)

theorem advance_reachable {store store' : Store}
    (h : store.Reachable) (ha : Advance m call store store') : store'.Reachable := by
  obtain ⟨op, now, -, rfl⟩ := ha
  exact h.step op now

/-- What every operation of its call keeps, a request keeps. -/
theorem invariant_of_advance {P : Store → Prop} {r : Request}
    (hP : ∀ call store store', callOf r = .ok call → store.Reachable → P store →
      Advance c.catalog call store store' → P store')
    (hs : s.store.Reachable) (h : P s.store) (now : Instant) :
    P ((serve c r).run now s).2.store := by
  cases hcall : callOf r with
  | error refusal => rwa [serve_of_refused hcall]
  | ok call =>
    have hpath : Takes (Advance c.catalog call) (serve c r) now s := takes_serve hcall
    rw [Takes] at hpath
    generalize ((serve c r).run now s).2.store = store at hpath ⊢
    have hboth : store.Reachable ∧ P store := by
      induction hpath with
      | refl => exact ⟨hs, h⟩
      | tail _ ha ih => exact ⟨advance_reachable ih.1 ha, hP call _ _ hcall ih.1 ih.2 ha⟩
    exact hboth.2

end TagRetention.Api
