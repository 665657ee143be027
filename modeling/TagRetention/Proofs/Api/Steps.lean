import TagRetention.Api.Service
import TagRetention.Store.Operation

/-!
Handlers step by step. The service changes its store by operations of the store only, so a state
that requests lead to holds a store that operations lead to.
-/

namespace TagRetention.Api

namespace Handler

variable {σ α β ε : Type} {P : σ → Prop}

theorem run_orElse (now : Instant) (h : Handler σ (Except ε α))
    (f : α → Handler σ (Except ε β)) (s : σ) :
    (h.orElse f).run now s =
      match h.run now s with
      | (.error e, s') => (.error e, s')
      | (.ok a, s') => (f a).run now s' := by
  rw [orElse, run_bind]
  cases hr : h.run now s with
  | mk result s' => cases result <;> rfl

theorem run_read (now : Instant) (f : σ → α) (s : σ) : (read f).run now s = (f s, s) := by
  rw [read, run_atomic]

def Preserves (P : σ → Prop) (h : Handler σ α) : Prop :=
  ∀ now s, P s → P (h.run now s).2

theorem preserves_answer (a : α) : (answer a : Handler σ α).Preserves P :=
  fun _ _ hs => hs

theorem Preserves.bind {h : Handler σ α} {f : α → Handler σ β} (hh : h.Preserves P)
    (hf : ∀ a, (f a).Preserves P) : (h.bind f).Preserves P := by
  intro now s hs
  rw [run_bind]
  exact hf _ now _ (hh now s hs)

theorem Preserves.orElse {h : Handler σ (Except ε α)} {f : α → Handler σ (Except ε β)}
    (hh : h.Preserves P) (hf : ∀ a, (f a).Preserves P) : (h.orElse f).Preserves P := by
  apply hh.bind
  intro result
  cases result with
  | error e => exact preserves_answer _
  | ok a => exact hf a

theorem preserves_read (f : σ → α) : (read f).Preserves P :=
  fun _ _ hs => hs

end Handler

open Handler

variable {σ α : Type} {c : Setting σ} {P : Store → Prop}

theorem run_onStore (now : Instant) (f : Instant → Store → Except StoreFault α × Store)
    (s : State σ) :
    (onStore f).run now s =
      ((f now s.store).1.mapError .ofStoreFault, { s with store := (f now s.store).2 }) := rfl

theorem run_onStore_ok {now : Instant} {f : Instant → Store → Except StoreFault α × Store}
    {s : State σ} {a : α} {store : Store} (h : f now s.store = (.ok a, store)) :
    (onStore f).run now s = (.ok a, { s with store := store }) := by
  rw [run_onStore, h]
  rfl

theorem run_onJobs (now : Instant) (f : Instant → σ → Except LaunchFault α × σ) (s : State σ) :
    (onJobs f).run now s =
      ((f now s.jobs).1.mapError .ofLaunchFault, { s with jobs := (f now s.jobs).2 }) := rfl

/-- The handler keeps a property of the store. -/
abbrev Keeps (P : Store → Prop) (h : Handler (State σ) α) : Prop :=
  h.Preserves fun s => P s.store

theorem keeps_onJobs (f : Instant → σ → Except LaunchFault α × σ) : Keeps P (onJobs f) :=
  fun _ _ hs => hs

theorem keeps_lookup (f : Store → Except StoreFault α) :
    Keeps P (onStore fun _ s => (f s, s) : Answer σ α) :=
  fun _ _ hs => hs

theorem keeps_findPolicy (id : PolicyId) : Keeps P (findPolicy id : Answer σ Policy) :=
  preserves_read _

theorem keeps_findExecution (policy : PolicyId) (id : ExecutionId) :
    Keeps P (findExecution policy id : Answer σ Execution) :=
  preserves_read _

theorem keeps_findTask (policy : PolicyId) (execution : ExecutionId) (id : TaskId) :
    Keeps P (findTask policy execution id : Answer σ Task) :=
  (keeps_findExecution policy execution).orElse fun _ => preserves_read _

theorem keeps_ok {h : Answer σ α} (hh : Keeps P h) (f : α → Response) : Keeps P (ok h f) :=
  hh.orElse fun _ => preserves_answer _

theorem run_ok (now : Instant) (h : Answer σ α) (f : α → Response) (s : State σ) :
    (ok h f).run now s = ((h.run now s).1.map f, (h.run now s).2) := by
  rw [ok, run_orElse]
  cases hr : h.run now s with
  | mk result s' => cases result <;> rfl

theorem error_of_ok {now : Instant} {h : Answer σ α} {f : α → Response} {s : State σ}
    {e : ApiFault} (he : ((ok h f).run now s).1 = .error e) : (h.run now s).1 = .error e := by
  rw [run_ok] at he
  cases hr : (h.run now s).1 with
  | error _ =>
    rw [hr] at he
    cases he
    rfl
  | ok _ =>
    rw [hr] at he
    cases he

theorem keeps_guarded {h : Answer σ α} (check : Except Fault Unit) (hh : Keeps P h) :
    Keeps P (guarded check h) := by
  cases check with
  | error f => exact preserves_answer _
  | ok _ => exact hh

/-- What the handler does to the store is one of its operations. -/
def Performs (f : Instant → Store → Except StoreFault α × Store) (op : Store.Operation) : Prop :=
  ∃ g : α → Store.Reply, ∀ now s, op.run now s = Store.reply g (f now s)

theorem Performs.keeps_reachable {f : Instant → Store → Except StoreFault α × Store}
    {op : Store.Operation} (hf : Performs f op) :
    Keeps Store.Reachable (onStore f : Answer σ α) := by
  obtain ⟨g, hg⟩ := hf
  intro now s hs
  have := hs.step op now
  rw [hg] at this
  exact this

theorem performs_save (p : Policy) : Performs (fun _ s => s.save p) (.save p) :=
  ⟨.policy ∘ some, fun _ _ => rfl⟩

theorem performs_update (p : Policy) : Performs (fun _ s => s.update p) (.update p) :=
  ⟨.policy ∘ some, fun _ _ => rfl⟩

theorem performs_createTask (execution : ExecutionId) (job : Job) :
    Performs (fun now s => s.createTask execution job.repository job.id now)
      (.createTask execution job.repository job.id) :=
  ⟨.task ∘ some, fun _ _ => rfl⟩

theorem performs_updateTask (r : StatusReport) :
    Performs (fun now s => s.updateTask r now) (.updateTask r) :=
  ⟨.applied, fun _ _ => rfl⟩

theorem performs_stopExecution (id : ExecutionId) :
    Performs (fun now s => s.stopExecution id now) (.stopExecution id) :=
  ⟨.stopped, fun _ _ => rfl⟩

theorem keeps_createTasks (execution : ExecutionId) (jobs : List Job) :
    Keeps Store.Reachable (createTasks execution jobs : Answer σ Unit) := by
  induction jobs with
  | nil => exact preserves_answer _
  | cons job r ih => exact (performs_createTask execution job).keeps_reachable.orElse fun _ => ih

theorem keeps_launchJobs (c : Setting σ) (p : Policy) (e : Execution) :
    Keeps Store.Reachable (launchJobs c p e) := by
  rw [launchJobs]
  split
  · exact (keeps_onJobs _).orElse (keeps_createTasks e.id)
  · exact preserves_answer _

theorem keeps_triggerRun (c : Setting σ) (id : PolicyId) (dryRun : Bool) :
    Keeps Store.Reachable (triggerRun c id dryRun) := by
  apply (keeps_findPolicy id).orElse
  intro p
  refine Preserves.orElse (fun now s hs => hs.step (.createExecution id .manual dryRun now) now) ?_
  intro e
  exact (keeps_launchJobs c p e).orElse fun _ => keeps_findExecution id e.id

theorem keeps_stopRun (c : Setting σ) (id : PolicyId) (execution : ExecutionId) :
    Keeps Store.Reachable (stopRun c id execution) := by
  apply (keeps_findExecution id execution).orElse
  intro _
  apply (keeps_lookup _).orElse
  intro tasks
  apply (keeps_onJobs _).orElse
  intro _
  exact (performs_stopExecution execution).keeps_reachable.orElse fun _ =>
    keeps_findExecution id execution

theorem keeps_handle (c : Setting σ) (call : Call) : Keeps Store.Reachable (handle c call) := by
  cases call with
  | health | catalog => exact preserves_answer _
  | projectRetention project => exact keeps_ok (preserves_read _) _
  | createPolicy p => exact keeps_guarded _ (keeps_ok (performs_save p).keeps_reachable _)
  | getPolicy id => exact keeps_ok (keeps_findPolicy id) _
  | updatePolicy id p => exact keeps_guarded _ (keeps_ok (performs_update _).keeps_reachable _)
  | trigger id dryRun => exact keeps_ok (keeps_triggerRun c id dryRun) _
  | listExecutions id page =>
    exact (keeps_findPolicy id).orElse fun _ => keeps_ok (keeps_lookup _) _
  | act id execution action =>
    rw [handle]
    split
    · exact keeps_ok (keeps_stopRun c id execution) _
    · exact preserves_answer _
  | listTasks id execution page =>
    exact (keeps_findExecution id execution).orElse fun _ => keeps_ok (keeps_lookup _) _
  | taskLog id execution task =>
    exact (keeps_findTask id execution task).orElse fun _ => keeps_ok (keeps_onJobs _) _
  | report id execution task status revision total retained =>
    exact (keeps_findTask id execution task).orElse fun _ =>
      keeps_ok (performs_updateTask _).keeps_reachable _

theorem keeps_serve (c : Setting σ) (r : Request) : Keeps Store.Reachable (serve c r) := by
  refine Preserves.bind ?_ fun _ => preserves_answer _
  rw [answer]
  split
  · exact preserves_answer _
  · apply (keeps_handle c _).bind
    intro result
    cases result <;> exact preserves_answer _

theorem Reachable.store {jobs : σ} {s : State σ} (h : Reachable c jobs s) :
    s.store.Reachable := by
  induction h with
  | fresh => exact .empty
  | request _ r now ih => exact keeps_serve c r now _ ih

end TagRetention.Api
