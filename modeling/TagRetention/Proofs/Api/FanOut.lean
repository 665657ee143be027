import TagRetention.Proofs.Api.FailedRequest
import TagRetention.Proofs.Api.Paths
import TagRetention.Proofs.Launcher.Logs
import TagRetention.Proofs.Launcher.Selection

/-!
What starts with a run: one execution, and one new task for each repository that the policy names.
-/

namespace TagRetention

namespace Api

open Handler

variable {σ : Type} {now : Instant} {id : PolicyId} {p : Policy}

theorem run_launchJobs_of_ok {c : Setting σ} {s : State σ} {e : Execution} {r : ExecutionRecord}
    {jobs : List Job} {j : σ} (hon : c.launchTasks = true)
    (hr : s.store.executions.get? e.id = some r)
    (hlaunch : c.launcher.launch now p e s.jobs = (.ok jobs, j)) :
    (launchJobs c p e).run now s = (.ok (), ⟨s.store.withTasks e.id now jobs, j⟩) := by
  have hjobs : (onJobs fun now j => c.launcher.launch now p e j).run now s =
      (.ok jobs, { s with jobs := j }) := by
    rw [run_onJobs, hlaunch]
    rfl
  rw [launchJobs, if_pos hon, run_orElse_of_ok _ hjobs]
  exact run_createTasks (s := { s with jobs := j }) hr jobs

theorem run_triggerRun {c : Setting σ} {s : State σ} {jobs : List Job} {j : σ} {dryRun : Bool}
    (hs : s.store.Sound) (hp : s.store.policy? id = some p) (hon : c.launchTasks = true)
    (hlaunch : c.launcher.launch now p (s.store.newRun id .manual dryRun now) s.jobs =
      (.ok jobs, j)) :
    (triggerRun c id dryRun).run now s =
      (.ok (s.store.launchedRun id dryRun now (jobs.map (·.repository))),
        ⟨s.store.launched id dryRun now jobs, j⟩) := by
  have hpolicy : (findPolicy id).run now s = (.ok p, s) := by
    rw [findPolicy, run_read, hp]
  have hcreate : (onStore fun now s => s.createExecution id .manual dryRun now).run now s =
      (.ok (s.store.newRun id .manual dryRun now),
        { s with store := s.store.withRun id .manual dryRun now }) :=
    run_onStore_ok (hs.createExecution_eq hp)
  have hjobs : (launchJobs c p (s.store.newRun id .manual dryRun now)).run now
      { s with store := s.store.withRun id .manual dryRun now } =
        (.ok (), ⟨s.store.launched id dryRun now jobs, j⟩) :=
    run_launchJobs_of_ok hon Store.get?_withRun hlaunch
  rw [triggerRun, run_orElse_of_ok _ hpolicy, run_orElse_of_ok _ hcreate, run_orElse_of_ok _ hjobs]
  -- what is answered is read back, after the tasks are there
  exact run_findExecution_of_some (s := ⟨s.store.launched id dryRun now jobs, j⟩)
    (hs.execution?_launched hp dryRun now jobs)

variable {c : Setting Journal} {s : State Journal} {jobs : Journal} {r : Request} {dryRun : Bool}

theorem serve_trigger (hs : s.store.Sound) (hlauncher : c.launcher = Journal.launcher)
    (hon : c.launchTasks = true) (hp : s.store.policy? id = some p) (hpost : r.method = "POST")
    (hcall : callOf r = .ok (.trigger id dryRun)) :
    ∃ started j, started.map (·.repository) = p.targets ∧ (serve c r).run now s =
      (.json 201 (Wire.encodeExecution (s.store.launchedRun id dryRun now p.targets)),
        ⟨s.store.launched id dryRun now started, j⟩) := by
  obtain ⟨started, j, hlaunch, htargets⟩ :=
    Journal.launch_ok now p (s.store.newRun id .manual dryRun now) s.jobs
  have hrun := run_triggerRun hs hp hon (hlauncher ▸ hlaunch)
  refine ⟨started, j, htargets, ?_⟩
  rw [serve_of_call hcall, handle, run_ok, hrun, htargets, Request.shown, hpost]
  rfl

/-- A run of a stored policy that the service starts is new, has one new task for each repository
that the policy names, and nothing else changes. -/
theorem fan_out (h : Reachable c jobs s) (hlauncher : c.launcher = Journal.launcher)
    (hon : c.launchTasks = true) (hp : s.store.policy? id = some p) {policy : String}
    (hpath : r.segments = ["", "api", "retentions", policy, "executions"])
    (hid : pathId policy = .ok id) (hpost : r.method = "POST")
    (hstatus : ((serve c r).run now s).1.status = 201) :
    ∃ dryRun run, callOf r = .ok (.trigger id dryRun) ∧
      ((serve c r).run now s).1 = .json 201 (Wire.encodeExecution run) ∧
      run.id = s.store.nextExecution ∧ run.policyId = id ∧ run.trigger = .manual ∧
      run.dryRun = dryRun ∧ run.startTime = some now ∧
      (p.targets ≠ [] → run.status = .pending ∧ run.endTime = none) ∧
      (p.targets = [] → run.status = .succeeded ∧ run.endTime = run.startTime) ∧
      s.store.FansOut p.targets run ((serve c r).run now s).2.store ∧ p.Selects p.targets := by
  have hsound := h.store.sound
  have hok : ((serve c r).run now s).1.status < 400 := by
    rw [hstatus]
    decide
  obtain ⟨call, hcall⟩ := callOf_of_status hok
  obtain ⟨dryRun, rfl⟩ := trigger_of_path hpath hid hpost hcall
  obtain ⟨started, j, htargets, hserve⟩ := serve_trigger hsound hlauncher hon hp hpost hcall
  have hfans := hsound.fansOut hp dryRun now started
  rw [htargets] at hfans
  rw [hserve]
  refine ⟨dryRun, s.store.launchedRun id dryRun now p.targets, hcall, rfl, rfl, rfl, rfl, rfl, rfl,
    fun hsome => ?_, fun hnone => ?_, hfans, p.selects_targets⟩
  · simp [Store.launchedRun, hsome]
  · simp [Store.launchedRun, hnone, Store.newRun]

def journaled : Setting Journal :=
  ⟨Journal.launcher, .standard, true⟩

/-- The policy has one rule for these repositories. -/
def keepRequest (repositories : String) : Request :=
  ⟨"POST", "/api/retentions", some jsonType, .document (.obj [
    ("scope", Wire.encodeScope (Policy.forProject 1).scope),
    ("rules", .arr [.obj [
      ("template", .str "always"),
      ("tag_selectors", .arr [
        .obj [("decoration", .str "matches"), ("pattern", .str "**")],
        .obj [("decoration", .str "withLabels"), ("pattern", .str "**")]]),
      ("scope_selectors", .obj [("repository", .arr [
        .obj [("decoration", .str "repoMatches"), ("pattern", .str repositories)]])])]])])⟩

def keepPolicy (repositories : String) : Policy :=
  { Policy.forProject 1 with
    rules := [{ Rule.blank with
      template := "always"
      repository := ⟨"", .repoMatches, repositories⟩
      tag := ⟨"", .matches, "**"⟩
      label := ⟨"", .withLabels, "**"⟩ }] }

theorem callOf_keepRequest (repositories : String) :
    callOf (keepRequest repositories) = .ok (.createPolicy (keepPolicy repositories)) := by
  have hbody : bodyOf (keepRequest repositories) Wire.policy = .ok (keepPolicy repositories) :=
    bodyOf_document rfl rfl (by trivial) (Nat.le_of_ble_eq_true rfl) rfl
  exact callOf_create rfl rfl hbody

theorem fan_out_of_repeated_repository :
    let s := ((serve journaled (keepRequest "\x7bb, a,,b\x7d")).run default (.fresh .empty)).2
    Reachable journaled .empty s ∧
      (((serve journaled startRequest).run default s).2.store.tasksOf s.store.nextExecution).map
        (·.repository) = ["b", "a"] := by
  intro s
  have hs : Reachable journaled .empty s := Reachable.fresh.request (keepRequest _) default
  have hkept : s = _ := congrArg Prod.snd (serve_of_call (callOf_keepRequest _))
  have htargets : (s.store.policy? 1).map (·.targets) = some ["b", "a"] := by
    rw [hkept]
    decide +kernel
  obtain ⟨p, hp, htargets⟩ := Option.map_eq_some_iff.mp htargets
  have hpath : startRequest.segments = ["", "api", "retentions", "1", "executions"] := by
    decide +kernel
  have hid : pathId "1" = .ok 1 := rfl
  obtain ⟨_, _, -, hserve⟩ :=
    serve_trigger (c := journaled) hs.store.sound rfl rfl hp rfl callOf_startRequest
  have hstatus : ((serve journaled startRequest).run default s).1.status = 201 := by
    rw [hserve]
    rfl
  obtain ⟨_, run, -, -, hrun, -, -, -, -, -, -, hfans, -⟩ :=
    fan_out hs rfl rfl hp hpath hid rfl hstatus
  have hrepositories := hfans.repositories
  rw [hrun, htargets] at hrepositories
  exact ⟨hs, hrepositories⟩

end Api

end TagRetention
