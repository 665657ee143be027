import TagRetention.Launcher.Executor
import TagRetention.Proofs.Api.Answers
import TagRetention.Proofs.Api.Documents
import TagRetention.Proofs.Api.Failure
import TagRetention.Proofs.Store.NewTasks

/-!
What a request leaves behind that is answered with an error: nothing, unless the launcher refuses a
run that the service has recorded by then.
-/

namespace TagRetention.Api

open Handler

variable {σ : Type} {c : Setting σ} {now : Instant} {s : State σ}

theorem failsClean_stopRun (c : Setting σ) (id : PolicyId) (execution : ExecutionId) :
    FailsClean (stopRun c id execution) now s := by
  apply FailsClean.orElse_of_keeps fun _ => keeps_findExecution id execution
  intro e s₁ he h₁
  obtain ⟨r, hr, hp⟩ := findExecution_ok he
  apply FailsClean.orElse_of_keeps fun _ => keeps_lookup _
  intro tasks s₂ _ h₂
  apply FailsClean.orElse_of_keeps fun _ => keeps_onJobs _
  intro _ s₃ _ h₃
  apply (performs_stopExecution execution).failsClean.orElse_of_succeeds
  intro n s₄ h₄
  have hr₄ : s₄.store.executions.get? execution = some r := by
    rw [run_onStore] at h₄
    rw [← (Prod.mk.inj h₄).2, Store.executions_stopExecution, h₃, h₂, h₁, hr]
  rw [← hp, run_findExecution hr₄]
  exact ⟨_, rfl⟩

theorem run_createTasks {execution : ExecutionId} {r : ExecutionRecord}
    (hr : s.store.executions.get? execution = some r) (jobs : List Job) :
    (createTasks execution jobs).run now s =
      (.ok (), { s with store := s.store.withTasks execution now jobs }) := by
  induction jobs generalizing s with
  | nil => rfl
  | cons job jobs ih =>
    rw [createTasks, run_orElse_of_ok _ (run_onStore_ok (Store.createTask_eq hr now job))]
    exact ih hr

/-- The launcher turns down the run that a request starts. -/
def LaunchRefused (c : Setting σ) (now : Instant) (s : State σ) (id : PolicyId) (dryRun : Bool) :
    Prop :=
  c.launchTasks = true ∧ ∃ p f, s.store.policy? id = some p ∧
    (c.launcher.launch now p (s.store.newRun id .manual dryRun now) s.jobs).1 = .error f

theorem run_launchJobs {id : PolicyId} {dryRun : Bool} {p : Policy}
    (hp : s.store.policy? id = some p) {s₁ : State σ}
    (h₁ : s₁ = { s with store := s.store.withRun id .manual dryRun now }) :
    (∃ f s₂, (launchJobs c p (s.store.newRun id .manual dryRun now)).run now s₁ = (.error f, s₂) ∧
        s₂.store = s₁.store ∧ LaunchRefused c now s id dryRun) ∨
      ∃ s₂, (launchJobs c p (s.store.newRun id .manual dryRun now)).run now s₁ = (.ok (), s₂) ∧
        s₂.store.executions = s₁.store.executions := by
  rw [launchJobs]
  split
  · rename_i hc
    rw [run_orElse, run_onJobs]
    subst h₁
    cases hl : (c.launcher.launch now p (s.store.newRun id .manual dryRun now) s.jobs).1 with
    | error f => exact .inl ⟨_, _, rfl, rfl, hc, p, f, hp, hl⟩
    | ok started =>
      exact .inr ⟨_, run_createTasks Store.get?_withRun started,
        Store.executions_withTasks _ _ now started⟩
  · exact .inr ⟨s₁, rfl, rfl⟩

theorem triggerRun_failed (hs : s.store.Sound) {id : PolicyId} {dryRun : Bool} {f : ApiFault}
    (hf : ((triggerRun c id dryRun).run now s).1 = .error f) :
    (s.store.policy? id = none ∧ ((triggerRun c id dryRun).run now s).2.store = s.store) ∨
      (LaunchRefused c now s id dryRun ∧
        ((triggerRun c id dryRun).run now s).2.store = s.store.withRun id .manual dryRun now) := by
  rw [triggerRun, run_orElse, findPolicy, run_read] at hf ⊢
  cases hp : s.store.policy? id with
  | none => exact .inl ⟨rfl, rfl⟩
  | some p =>
    right
    simp only [hp, run_orElse, run_onStore_ok (hs.createExecution_eq hp)] at hf ⊢
    rcases run_launchJobs (c := c) hp rfl with ⟨g, s₂, hrun, hstore, href⟩ | ⟨s₂, hrun, hexec⟩
    · rw [hrun]
      exact ⟨href, hstore⟩
    · -- The run is in the store, so it is found again.
      have hget : s₂.store.executions.get? s.store.nextExecution =
          some (s.store.newRecord id .manual dryRun now) := by
        rw [hexec]
        exact Store.get?_withRun
      have hfound : (findExecution id s.store.nextExecution).run now s₂ = _ :=
        run_findExecution hget
      rw [hrun] at hf
      simp only [Store.newRun, hfound] at hf
      cases hf

theorem failsClean_handle {call : Call} (hcall : ∀ id dryRun, call ≠ .trigger id dryRun) :
    FailsClean (handle c call) now s := by
  cases call with
  | health | catalog => exact failsClean_answer _
  | projectRetention project =>
    apply FailsClean.ok
    exact failsClean_of_keeps fun _ => preserves_read _
  | createPolicy p =>
    apply FailsClean.guarded
    exact (performs_save p).failsClean.ok _
  | getPolicy id => exact (failsClean_of_keeps fun _ => keeps_findPolicy id).ok _
  | updatePolicy id p =>
    apply FailsClean.guarded
    exact (performs_update (p.withId id)).failsClean.ok _
  | trigger id dryRun => exact absurd rfl (hcall id dryRun)
  | listExecutions id page =>
    apply FailsClean.orElse_of_keeps fun _ => keeps_findPolicy id
    intro _ _ _ _
    exact (failsClean_of_keeps fun _ => keeps_lookup _).ok _
  | act id execution action =>
    rw [handle]
    split
    · exact (failsClean_stopRun c id execution).ok _
    · exact failsClean_answer _
  | listTasks id execution page =>
    apply FailsClean.orElse_of_keeps fun _ => keeps_findExecution id execution
    intro _ _ _ _
    exact (failsClean_of_keeps fun _ => keeps_lookup _).ok _
  | taskLog id execution task =>
    apply FailsClean.orElse_of_keeps fun _ => keeps_findTask id execution task
    intro _ _ _ _
    exact (failsClean_of_keeps fun _ => keeps_onJobs _).ok _
  | report id execution task status revision total retained =>
    apply FailsClean.orElse_of_keeps fun _ => keeps_findTask id execution task
    intro _ _ _ _
    exact (performs_updateTask _).failsClean.ok _

/-- An error leaves the store as it was, but for a run that the launcher refuses: that run stays,
without tasks, and is reported as done. -/
theorem failed_request {jobs : σ} (hs : Reachable c jobs s) {r : Request}
    (h : 400 ≤ ((serve c r).run now s).1.status) :
    ((∀ id dryRun, callOf r = .ok (.trigger id dryRun) → ¬ LaunchRefused c now s id dryRun) →
        ((serve c r).run now s).2.store = s.store) ∧
      ∀ id dryRun, callOf r = .ok (.trigger id dryRun) → LaunchRefused c now s id dryRun →
        ((serve c r).run now s).2.store = s.store.withRun id .manual dryRun now ∧
          s.store.execution? s.store.nextExecution = none ∧
          ((serve c r).run now s).2.store.execution? s.store.nextExecution =
            some (s.store.newRun id .manual dryRun now) := by
  have hsound := hs.store.sound
  rcases serve_failed h with ⟨refusal, hcall, hsame⟩ | ⟨call, f, hcall, hf, hsame⟩
  · rw [hcall, hsame]
    exact ⟨fun _ => rfl, nofun⟩
  rw [hcall, hsame]
  by_cases htrigger : ∃ id dryRun, call = .trigger id dryRun
  · obtain ⟨id, dryRun, rfl⟩ := htrigger
    have hfailed : ((triggerRun c id dryRun).run now s).1 = .error f := error_of_ok hf
    rw [handle, run_ok]
    rcases triggerRun_failed hsound hfailed with ⟨hnone, hkept⟩ | ⟨href, hleft⟩
    · refine ⟨fun _ => hkept, ?_⟩
      rintro _ _ ⟨⟩ ⟨_, p, _, hp, _⟩
      rw [hnone] at hp
      cases hp
    · refine ⟨fun hno => absurd href (hno id dryRun rfl), ?_⟩
      rintro _ _ ⟨⟩ _
      refine ⟨hleft, hsound.execution?_next, ?_⟩
      rw [hleft, hsound.execution?_withRun]
  · have hother : ∀ id dryRun, call ≠ .trigger id dryRun :=
      fun id dryRun hc => htrigger ⟨id, dryRun, hc⟩
    refine ⟨fun _ => failsClean_handle hother f hf, ?_⟩
    rintro id dryRun ⟨⟩
    exact absurd rfl (hother id dryRun)

def createRequest (p : Policy) : Request :=
  ⟨"POST", "/api/retentions", some jsonType, .document (Wire.encodePolicy p)⟩

theorem callOf_createRequest {p : Policy} (hp : p.Portable) :
    callOf (createRequest p) = .ok (.createPolicy p) :=
  callOf_create rfl rfl (bodyOf_policy rfl rfl hp)

def startRequest : Request :=
  ⟨"POST", "/api/retentions/1/executions", some jsonType, .document (.obj [])⟩

theorem callOf_startRequest : callOf startRequest = .ok (.trigger 1 false) := rfl

def stopRequest : Request :=
  ⟨"PATCH", "/api/retentions/1/executions/1", some jsonType,
    .document (.obj [("action", .str "stop")])⟩

theorem callOf_stopRequest : callOf stopRequest = .ok (.act 1 1 "stop") := by
  have hpath : stopRequest.segments = ["", "api", "retentions", "1", "executions", "1"] := by
    decide +kernel
  have hbody : bodyOf stopRequest action = .ok "stop" :=
    bodyOf_document rfl rfl ⟨trivial, trivial⟩ (by decide) rfl
  exact callOf_act hpath rfl rfl rfl hbody

def settingOf (x : Executor) : Setting Unit :=
  ⟨x.launcher, .standard, true⟩

/-- The state after the requests, from a fresh one. -/
def stateAfter (x : Executor) (rs : List Request) : State Unit :=
  rs.foldl (fun s r => ((serve (settingOf x) r).run default s).2) (.fresh ())

theorem reachable_stateAfter (x : Executor) (rs : List Request) :
    Reachable (settingOf x) () (stateAfter x rs) := by
  rw [stateAfter]
  have hfresh : Reachable (settingOf x) () (.fresh ()) := .fresh
  generalize State.fresh () = s at hfresh
  induction rs generalizing s with
  | nil => exact hfresh
  | cons r rs ih => exact ih _ (hfresh.request r default)

theorem stateAfter_eq (x : Executor) {rs : List Request} {calls : List Call}
    (h : List.Forall₂ (fun r call => callOf r = .ok call) rs calls) :
    stateAfter x rs =
      calls.foldl (fun s call => ((handle (settingOf x) call).run default s).2) (.fresh ()) := by
  rw [stateAfter]
  generalize State.fresh () = s
  induction h generalizing s with
  | nil => rfl
  | cons hcall _ ih =>
    rw [List.foldl_cons, List.foldl_cons, serve_of_call hcall]
    exact ih _

theorem callOf_createRequest_one :
    callOf (createRequest (.forProject 1)) = .ok (.createPolicy (.forProject 1)) :=
  callOf_createRequest (Wire.portable_forProject 1 (by decide))

theorem refused_stop_keeps_store :
    let s := stateAfter .unstoppable [createRequest (.forProject 1), startRequest]
    let after := (serve (settingOf .unstoppable) stopRequest).run default s
    after.1.status = 500 ∧ after.2.store = s.store := by
  have hs : Reachable (settingOf .unstoppable) ()
      (stateAfter .unstoppable [createRequest (.forProject 1), startRequest]) :=
    reachable_stateAfter _ _
  have hstatus : ((serve (settingOf .unstoppable) stopRequest).run default
      (stateAfter .unstoppable [createRequest (.forProject 1), startRequest])).1.status = 500 := by
    rw [stateAfter_eq _ (.cons callOf_createRequest_one (.cons callOf_startRequest .nil)),
      serve_of_call callOf_stopRequest]
    decide +kernel
  refine ⟨hstatus, (failed_request hs (hstatus ▸ by decide)).1 ?_⟩
  rintro id dryRun _ ⟨_, p, f, _, hf⟩
  cases hf

theorem refused_run_stays :
    let s := stateAfter .offline [createRequest (.forProject 1)]
    let after := (serve (settingOf .offline) startRequest).run default s
    Reachable (settingOf .offline) () s ∧ after.1.status = 500 ∧
      after.2.store.executions ≠ s.store.executions ∧
      (after.2.store.execution? 1).map (·.status) = some .succeeded := by
  refine ⟨reachable_stateAfter _ _, ?_⟩
  rw [stateAfter_eq _ (.cons callOf_createRequest_one .nil), serve_of_call callOf_startRequest]
  decide +kernel

end TagRetention.Api
