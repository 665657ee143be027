import TagRetention.Proofs.Api.Interleaving

/-!
The conduct of a handler among others: what each of its steps may do to whatever store it finds, and
that an answer is true of executions when it is given.
-/

namespace TagRetention.Api

open Handler

variable {σ α β : Type} {c : Setting σ}

/-- What a step does to the store, for a request that has created the execution `started`. -/
inductive Act (started : Option ExecutionId) (s : Store) : Store → Prop where
  | idle : Act started s s
  | perform (op : Store.Operation) (hop : op.GrowsOnly started) (now : Instant) :
    Act started s (op.run now s).2

section

variable {started : Option ExecutionId} {s s' : Store}

theorem Act.sound (h : Act started s s') (hs : s.Sound) : s'.Sound := by
  cases h with
  | idle => exact hs
  | perform op _ now => exact hs.run now op

theorem Act.status? (h : Act started s s') (hs : s.Sound) {e : ExecutionId} {status : RunStatus}
    (hstatus : s.status? e = some status) (hdone : status.isTerminal = true) :
    s'.status? e = some status ∨ Store.Renews e s s' ∨ (started = some e ∧ Store.Gains e s s') := by
  cases h with
  | idle => exact .inl hstatus
  | perform op hop now => exact hs.status?_of_growsOnly hop hstatus hdone

theorem Performs.act {f : Instant → Store → Except StoreFault α × Store} {op : Store.Operation}
    (hf : Performs f op) (hop : op.GrowsOnly started) (now : Instant) (s : Store) :
    Act started s (f now s).2 := by
  obtain ⟨g, hg⟩ := hf
  have hrun : (op.run now s).2 = (f now s).2 := by
    rw [hg]
    rfl
  exact hrun ▸ .perform op hop now

theorem startedAfter_self (started : Option ExecutionId) (s : Store) :
    startedAfter started s s = started :=
  if_neg (Int.lt_irrefl _)

end

/-- Whatever stores its steps find, the handler only acts as it may, and `Q` holds of what it ends
with: of the execution it has created, the store at that moment and the result. -/
def Handler.Abides (Q : Option ExecutionId → Store → α → Prop) :
    Handler (State σ) α → Option ExecutionId → Store → Prop
  | .answer a, started, s => Q started s a
  | .step change next, started, _ => ∀ now s, s.store.Sound →
    Act started s.store (change now s).store ∧
      (next now s).Abides Q (startedAfter started s.store (change now s).store) (change now s).store

/-- Nothing is asked of an error. -/
def IfOk (Q : Option ExecutionId → Store → α → Prop) :
    Option ExecutionId → Store → Except ApiFault α → Prop
  | started, s, .ok a => Q started s a
  | _, _, .error _ => True

/-- The store shows the execution with this status. -/
def Seen : Option ExecutionId → Store → Execution → Prop :=
  fun _ s x => s.status? x.id = some x.status

def Told : Option ExecutionId → Store → Response → Prop :=
  fun _ s r => r.Truthful s

variable {Q : Option ExecutionId → Store → α → Prop} {R : Option ExecutionId → Store → β → Prop}
  {started : Option ExecutionId} {s : Store}

theorem Handler.Abides.bind {h : Handler (State σ) α} {f : α → Handler (State σ) β}
    (hh : h.Abides Q started s) (hf : ∀ started s a, Q started s a → (f a).Abides R started s) :
    (h.bind f).Abides R started s := by
  induction h generalizing started s with
  | answer a => exact hf started s a hh
  | step change next ih =>
    intro now s' hs
    obtain ⟨hact, hrest⟩ := hh now s' hs
    exact ⟨hact, ih now s' hrest⟩

/-- The store matters to the answer alone. -/
theorem Handler.Abides.of_unanswered {h : Handler (State σ) α} (hh : h.Abides Q started s)
    (hopen : h.answer? = none) (s' : Store) : h.Abides Q started s' := by
  cases h with
  | answer a => cases hopen
  | step change next => exact hh

theorem Handler.Abides.orElse {h : Answer σ α} {f : α → Answer σ β}
    (hh : h.Abides (IfOk Q) started s)
    (hf : ∀ started s a, Q started s a → (f a).Abides (IfOk R) started s) :
    (h.orElse f).Abides (IfOk R) started s := by
  apply hh.bind
  intro started s result hresult
  cases result with
  | error e => exact trivial
  | ok a => exact hf started s a hresult

theorem abides_read {f : State σ → Except ApiFault α}
    (hQ : ∀ s, s.store.Sound → IfOk Q started s.store (f s)) :
    (read f : Answer σ α).Abides (IfOk Q) started s := by
  intro now s' hs
  refine ⟨.idle, ?_⟩
  rw [startedAfter_self]
  exact hQ s' hs

theorem abides_onStore {f : Instant → Store → Except StoreFault α × Store}
    (hf : ∀ now s, Act started s (f now s).2)
    (hQ : ∀ now s a s', s.Sound → f now s = (.ok a, s') → Q (startedAfter started s s') s' a) :
    (onStore f : Answer σ α).Abides (IfOk Q) started s := by
  intro now s' hs
  change Act started s'.store (f now s'.store).2 ∧
    IfOk Q (startedAfter started s'.store (f now s'.store).2) (f now s'.store).2
      ((f now s'.store).1.mapError ApiFault.ofStoreFault)
  refine ⟨hf now s'.store, ?_⟩
  cases hresult : f now s'.store with
  | mk result store =>
    cases result with
    | error e => exact trivial
    | ok a => exact hQ now s'.store a store hs hresult

theorem abides_lookup {f : Store → Except StoreFault α}
    (hQ : ∀ s a, s.Sound → f s = .ok a → Q started s a) :
    (onStore fun _ s => (f s, s) : Answer σ α).Abides (IfOk Q) started s := by
  apply abides_onStore fun _ _ => .idle
  intro now s a s' hs hlook
  obtain ⟨hresult, rfl⟩ := Prod.mk.inj hlook
  rw [startedAfter_self]
  exact hQ s a hs hresult

theorem abides_onJobs {f : Instant → σ → Except LaunchFault α × σ}
    (hQ : ∀ s a, Q started s a) : (onJobs f : Answer σ α).Abides (IfOk Q) started s := by
  intro now s' hs
  refine ⟨.idle, ?_⟩
  change IfOk Q (startedAfter started s'.store s'.store) s'.store
    ((f now s'.jobs).1.mapError ApiFault.ofLaunchFault)
  rw [startedAfter_self]
  cases (f now s'.jobs).1 with
  | error e => exact trivial
  | ok a => exact hQ s'.store a

theorem abides_ok {h : Answer σ α} {f : α → Response} (hh : h.Abides (IfOk Q) started s)
    (hf : ∀ started s a, Q started s a → (f a).Truthful s) :
    (ok h f).Abides (IfOk Told) started s :=
  hh.orElse hf

theorem abides_guarded {h : Answer σ α} (check : Except Fault Unit)
    (hh : h.Abides (IfOk Q) started s) : (guarded check h).Abides (IfOk Q) started s := by
  cases check with
  | error f => exact trivial
  | ok _ => exact hh

theorem abides_findPolicy (id : PolicyId) :
    (findPolicy id : Answer σ Policy).Abides (IfOk fun known _ _ => known = started) started s := by
  apply abides_read
  intro s' _
  split
  · rfl
  · trivial

theorem abides_findExecution (policy : PolicyId) (id : ExecutionId) :
    (findExecution policy id : Answer σ Execution).Abides (IfOk Seen) started s := by
  apply abides_read
  intro s' hs
  split
  · rename_i x hx
    exact hs.status?_of_execution? (Option.filter_eq_some_iff.mp hx).1
  · trivial

theorem abides_findTask (policy : PolicyId) (execution : ExecutionId) (id : TaskId) :
    (findTask policy execution id : Answer σ Task).Abides (IfOk fun _ _ _ => True) started s := by
  apply (abides_findExecution policy execution).orElse
  intro started s _ _
  apply abides_read
  intro s' _
  split <;> trivial

theorem abides_createTasks (execution : ExecutionId) (jobs : List Job) :
    (createTasks execution jobs : Answer σ Unit).Abides (IfOk fun _ _ _ => True) (some execution)
      s := by
  induction jobs generalizing s with
  | nil => exact trivial
  | cons job jobs ih =>
    apply Abides.orElse (Q := fun known _ _ => known = some execution)
    · apply abides_onStore (Performs.act (performs_createTask execution job) rfl)
      intro now s a s' _ hrun
      rw [Store.createTask] at hrun
      split at hrun
      · cases hrun
      · cases hrun
        exact startedAfter_self _ _
    · rintro _ s t rfl
      exact ih

theorem abides_launchJobs (c : Setting σ) (p : Policy) (e : Execution) :
    (launchJobs c p e).Abides (IfOk fun _ _ _ => True) (some e.id) s := by
  rw [launchJobs]
  split
  · apply Abides.orElse (Q := fun known _ _ => known = some e.id)
    · exact abides_onJobs fun _ _ => rfl
    · rintro _ s jobs rfl
      exact abides_createTasks e.id jobs
  · exact trivial

theorem abides_triggerRun (c : Setting σ) (id : PolicyId) (dryRun : Bool) :
    (triggerRun c id dryRun).Abides (IfOk Seen) started s := by
  apply (abides_findPolicy id).orElse
  rintro _ s p rfl
  -- From here on the request has created this execution, the only one that it gives tasks to.
  apply Abides.orElse (Q := fun known _ (e : Execution) => known = some e.id)
  · apply abides_onStore
    · exact fun now s => .perform (.createExecution id .manual dryRun now) trivial now
    · intro now s e s' _ hrun
      rw [Store.createExecution] at hrun
      split at hrun
      · cases hrun
      · cases hrun
        exact if_pos (Int.lt_succ _)
  · rintro _ s e rfl
    apply (abides_launchJobs c p e).orElse
    intro started s _ _
    exact abides_findExecution id e.id

theorem abides_stopRun (c : Setting σ) (id : PolicyId) (execution : ExecutionId) :
    (stopRun c id execution).Abides (IfOk Seen) started s := by
  apply (abides_findExecution id execution).orElse
  intro started s _ _
  apply Abides.orElse (Q := fun _ _ _ => True) (abides_lookup fun _ _ _ _ => trivial)
  intro started s tasks _
  apply Abides.orElse (Q := fun _ _ _ => True) (abides_onJobs fun _ _ => trivial)
  intro started s _ _
  apply Abides.orElse (Q := fun _ _ _ => True)
  · exact abides_onStore (Performs.act (performs_stopExecution execution) trivial)
      fun _ _ _ _ _ _ => trivial
  · intro started s _ _
    exact abides_findExecution id execution

theorem abides_handle (c : Setting σ) (call : Call) :
    (handle c call).Abides (IfOk Told) started s := by
  cases call with
  | health => exact truthful_of_keys (by simp [Wire.executionKeys])
  | projectRetention project =>
    apply abides_ok (Q := fun _ _ _ => True)
    · exact abides_read fun _ _ => trivial
    · exact fun _ _ _ _ => truthful_of_keys (by simp [Wire.executionKeys])
  | createPolicy p =>
    apply abides_guarded
    apply abides_ok (Q := fun _ _ _ => True)
    · exact abides_onStore (Performs.act (performs_save p) trivial) fun _ _ _ _ _ _ => trivial
    · exact fun _ _ p _ => truthful_policy p
  | catalog => exact truthful_of_keys (by simp [Wire.executionKeys])
  | getPolicy id => exact abides_ok (abides_findPolicy id) fun _ _ p _ => truthful_policy p
  | updatePolicy id p =>
    apply abides_guarded
    apply abides_ok (Q := fun _ _ _ => True)
    · exact abides_onStore (Performs.act (performs_update _) trivial) fun _ _ _ _ _ _ => trivial
    · exact fun _ _ p _ => truthful_policy p
  | trigger id dryRun =>
    exact abides_ok (abides_triggerRun c id dryRun) fun _ _ _ hx => truthful_execution hx
  | listExecutions id page =>
    apply (abides_findPolicy id).orElse
    intro started s _ _
    apply abides_ok (Q := fun _ s p => ∀ x ∈ p.items, s.status? x.id = some x.status)
    · refine abides_lookup fun s p hs hp x hx => ?_
      exact hs.status?_of_execution? ((hs.listExecutions_ok hp).2 x hx).1
    · exact fun _ _ _ hitems => truthful_executions hitems
  | act id execution action =>
    rw [handle]
    split
    · exact abides_ok (abides_stopRun c id execution) fun _ _ _ hx => truthful_execution hx
    · exact trivial
  | listTasks id execution page =>
    apply (abides_findExecution id execution).orElse
    intro started s _ _
    apply abides_ok (Q := fun _ _ _ => True) (abides_lookup fun _ _ _ _ => trivial)
    exact fun _ _ p _ => truthful_tasks p.total p.items
  | taskLog id execution task =>
    apply (abides_findTask id execution task).orElse
    intro started s t _
    apply abides_ok (Q := fun _ _ _ => True) (abides_onJobs fun _ _ => trivial)
    exact fun _ _ _ _ => truthful_of_silent rfl
  | report id execution task status revision total retained =>
    apply (abides_findTask id execution task).orElse
    intro started s t _
    apply abides_ok (Q := fun _ _ _ => True)
    · exact abides_onStore (Performs.act (performs_updateTask _) trivial)
        fun _ _ _ _ _ _ => trivial
    · exact fun _ _ _ _ => truthful_of_keys (by simp [Wire.executionKeys])

theorem abides_serve (c : Setting σ) (r : Request) :
    (serve c r).Abides Told started s := by
  apply Abides.bind (Q := Told)
  · rw [answer]
    split
    · rename_i refusal _
      exact truthful_refusal refusal
    · rename_i call _
      apply (abides_handle c call).bind
      intro started s result hresult
      cases result with
      | error f => exact truthful_fault f
      | ok response => exact hresult
  · intro started s response htrue
    split
    · exact truthful_of_silent rfl
    · exact htrue

end TagRetention.Api
