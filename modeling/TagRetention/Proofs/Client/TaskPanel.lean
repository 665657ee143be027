import TagRetention.Proofs.Client.Tracking

/-!
The list of tasks is about one run at a time. It is emptied before another run is asked for, so an
answer that comes late is about the same run or is not shown.
-/

namespace TagRetention.Client.Tracker

/-- When `start` requests had been sent, the list of tasks was emptied; it is about `run` since. -/
structure PanelSound (s : Scene) (start : Nat) (run : ExecutionId) : Prop where
  ledger : Ledger.Sound (fun subject => s.tracker.policyId = some subject.1 ∧ subject.2 = run)
    s.tracker.tasks s.tasks start
  openPanel : s.tracker.openPanel = none ∨ s.tracker.openPanel = some run
  loadedFor : s.tracker.loadedFor = none ∨ s.tracker.loadedFor = some run
  unloaded : s.tracker.loadedFor = none → s.tracker.tasks.items = []
  loaded : s.tracker.loadedFor ≠ none →
    ∃ (n : Nat) (e : Entry (PolicyId × ExecutionId) Task), s.tasks[n]? = some (some e) ∧ start ≤ n

def TasksOfOneRun (s : Scene) (since : Nat) : Prop :=
  ∃ start run, since ≤ start ∧ PanelSound s start run

variable {s t : Scene} {since start : Nat} {run : ExecutionId}

theorem panelSound_new (executionPageSize taskPageSize : Nat) :
    PanelSound ⟨.new executionPageSize taskPageSize, []⟩ 0 run where
  ledger := Ledger.sound_new _
  openPanel := .inl rfl
  loadedFor := .inl rfl
  unloaded _ := rfl
  loaded h := absurd rfl h

namespace PanelSound

theorem congr (h : PanelSound s start run) (htasks : t.tasks = s.tasks)
    (hlist : t.tracker.tasks = s.tracker.tasks) (hpolicy : t.tracker.policyId = s.tracker.policyId)
    (hopen : t.tracker.openPanel = s.tracker.openPanel)
    (hloaded : t.tracker.loadedFor = s.tracker.loadedFor) : PanelSound t start run := by
  constructor
  · rw [hlist, htasks, hpolicy]
    exact h.ledger
  · rw [hopen]
    exact h.openPanel
  · rw [hloaded]
    exact h.loadedFor
  · rw [hloaded, hlist]
    exact h.unloaded
  · rw [hloaded, htasks]
    exact h.loaded

/-- The list has just been emptied, for whatever run. -/
theorem of_reset
    (hledger : Ledger.Sound (fun subject => t.tracker.policyId = some subject.1 ∧ subject.2 = run)
      t.tracker.tasks t.tasks t.tasks.length)
    (hopen : t.tracker.openPanel = none ∨ t.tracker.openPanel = some run)
    (hloaded : t.tracker.loadedFor = none) (hitems : t.tracker.tasks.items = []) :
    PanelSound t t.tasks.length run where
  ledger := hledger
  openPanel := hopen
  loadedFor := .inl hloaded
  unloaded _ := hitems
  loaded h := absurd hloaded h

theorem attach (h : PanelSound s start run) {policy : Option PolicyId}
    (hne : s.tracker.policyId ≠ policy) :
    PanelSound ⟨s.tracker.attach policy, s.asked⟩ s.asked.length run := by
  have hlength : s.tasks.length = s.asked.length := List.length_map _
  rw [Tracker.attach, if_neg hne, ← hlength]
  exact of_reset h.ledger.reset (.inl rfl) rfl rfl

theorem openPanelOf (h : PanelSound s start run) (e : ExecutionId) :
    ∃ start' run', start ≤ start' ∧
      PanelSound { s with tracker := s.tracker.openPanelOf e } start' run' := by
  unfold Tracker.openPanelOf
  split
  · rename_i hloaded
    refine ⟨start, run, Nat.le_refl _, h.ledger, .inr ?_, h.loadedFor, h.unloaded,
      h.loaded⟩
    rcases h.loadedFor with hnone | hrun
    · cases hnone.symm.trans hloaded
    · exact hloaded.symm.trans hrun
  · exact ⟨s.tasks.length, e, h.ledger.since_le, of_reset h.ledger.reset (.inr rfl) rfl rfl⟩

theorem pass (h : PanelSound s start run) {a : Asked} (ha : a.tasks? = none) :
    PanelSound { s with asked := s.asked ++ [a] } start run := by
  have htasks : ({ s with asked := s.asked ++ [a] } : Scene).tasks = s.tasks ++ [none] := by
    rw [Scene.tasks_append, ha]
  constructor
  · rw [htasks]
    exact h.ledger.pass
  · exact h.openPanel
  · exact h.loadedFor
  · exact h.unloaded
  · intro hloaded
    obtain ⟨n, e, hn, hle⟩ := h.loaded hloaded
    rw [htasks]
    exact ⟨n, e, Ledger.getElem?_append_none.2 hn, hle⟩

theorem askTasks (h : PanelSound s start run) {id : PolicyId} {execution : ExecutionId}
    (hid : s.tracker.policyId = some id) (hopen : s.tracker.openPanel = some execution) :
    PanelSound ⟨s.tracker.onTasks .begin,
      s.asked ++ [.tasks ⟨(id, execution), s.tracker.tasks.ticket, none⟩]⟩ start run := by
  have hrun : execution = run := by
    rcases h.openPanel with hnone | hrun
    · cases hnone.symm.trans hopen
    · exact Option.some.inj (hopen.symm.trans hrun)
  constructor
  · rw [Scene.tasks_append]
    exact h.ledger.begin ⟨hid, hrun⟩
  · exact h.openPanel
  · exact h.loadedFor
  · exact h.unloaded
  · intro hloaded
    obtain ⟨n, e, hn, hle⟩ := h.loaded hloaded
    rw [Scene.tasks_append]
    exact ⟨n, e, Ledger.getElem?_append_some.2 (.inl hn), hle⟩

theorem takeTasks (h : PanelSound s start run) {n : Nat}
    {e : Entry (PolicyId × ExecutionId) Task} (hn : s.tasks[n]? = some (some e))
    (he : e.answer = none) (answer : Except ServiceFault (Page Task)) :
    PanelSound ⟨s.tracker.takeTasks e.subject.2 e.ticket answer,
      s.asked.set n (.tasks { e with answer := some answer })⟩ start run := by
  have hshown : s.tracker.tasks.shows e.ticket answer = true → start ≤ n ∧ e.subject.2 = run := by
    intro hshows
    have hcurrent := (h.ledger.fresh n e hn).1 (Listing.eq_issued_of_shows hshows)
    exact ⟨hcurrent.since_le, (h.ledger.about n e hn hcurrent.since_le).2⟩
  constructor
  · rw [Scene.tasks_set]
    exact h.ledger.finish hn he answer
  · exact h.openPanel
  · simp only [Tracker.takeTasks]
    split
    · rename_i hshows
      exact .inr (congrArg some (hshown hshows).2)
    · exact h.loadedFor
  · simp only [Tracker.takeTasks]
    split
    · nofun
    · rename_i hshows
      intro hnone
      rw [Listing.items_finish_of_not_shows (Bool.eq_false_iff.2 hshows)]
      exact h.unloaded hnone
  · rw [Scene.tasks_set]
    simp only [Tracker.takeTasks]
    split
    · rename_i hshows
      exact fun _ => ⟨n, _, (Ledger.getElem?_set_some hn).2 (.inl ⟨rfl, rfl⟩), (hshown hshows).1⟩
    · intro hloaded
      obtain ⟨m, d, hd, hle⟩ := h.loaded hloaded
      by_cases hm : m = n
      · exact ⟨n, _, (Ledger.getElem?_set_some hn).2 (.inl ⟨rfl, rfl⟩), hm ▸ hle⟩
      · exact ⟨m, d, (Ledger.getElem?_set_some hn).2 (.inr ⟨hm, hd⟩), hle⟩

theorem turn (h : PanelSound s start run) (hturn : Turn s t) :
    ∃ start' run', start ≤ start' ∧ PanelSound t start' run' := by
  cases hturn with
  | openPanel execution => exact h.openPanelOf execution
  | goToPage | setPageSize => exact ⟨start, run, Nat.le_refl _, h.congr rfl rfl rfl rfl rfl⟩
  | goToTaskPage page =>
    exact ⟨start, run, Nat.le_refl _, h.ledger.congr rfl rfl rfl rfl, h.openPanel,
      h.loadedFor, h.unloaded, h.loaded⟩
  | closePanel =>
    exact ⟨start, run, Nat.le_refl _, h.ledger, .inl rfl, h.loadedFor, h.unloaded,
      h.loaded⟩
  | @askRuns id hid =>
    have hpass := h.pass (a := .runs ⟨id, s.tracker.executions.ticket, none⟩) rfl
    exact ⟨start, run, Nat.le_refl _, hpass.congr rfl rfl rfl rfl rfl⟩
  | askOther => exact ⟨start, run, Nat.le_refl _, h.pass rfl⟩
  | askTasks hid hopen => exact ⟨start, run, Nat.le_refl _, h.askTasks hid hopen⟩
  | takeRuns hn he answer =>
    exact ⟨start, run, Nat.le_refl _, h.congr (Scene.tasks_set_runs hn _) rfl rfl rfl rfl⟩
  | takeTasks hn he answer =>
    exact ⟨start, run, Nat.le_refl _, h.takeTasks (Scene.getElem?_tasks.2 hn) he answer⟩

end PanelSound

theorem tasksOfOneRun_invariant : Tracking.Invariant TasksOfOneRun := by
  constructor
  · rintro s since policy ⟨start, run, -, h⟩ hne
    exact ⟨_, run, Nat.le_refl _, h.attach hne⟩
  · rintro s t since ⟨start, run, hle, h⟩ hturn
    obtain ⟨start', run', hle', h'⟩ := h.turn hturn
    exact ⟨start', run', Nat.le_trans hle hle', h'⟩

namespace Tracking

/-- The tasks shown are an answer about the run they are loaded for, under the policy attached. No
other run's panel is open then, nor is another run the one last asked about, answered or not. -/
structure ShowsOneRun (x : Tracking) : Prop where
  shown : x.scene.tracker.tasks.items ≠ [] →
    ∃ (n : Nat) (e : Entry (PolicyId × ExecutionId) Task), x.scene.tasks[n]? = some (some e) ∧
      x.since ≤ n ∧ x.scene.tracker.policyId = some e.subject.1 ∧
        x.scene.tracker.loadedFor = some e.subject.2 ∧
          e.answer = some (.ok ⟨x.scene.tracker.tasks.items, x.scene.tracker.tasks.total⟩)
  opened : ∀ run, x.scene.tracker.openPanel = some run → x.scene.tracker.tasks.items ≠ [] →
    x.scene.tracker.loadedFor = some run
  latest : ∀ (n : Nat) (e : Entry (PolicyId × ExecutionId) Task),
    x.scene.tasks[n]? = some (some e) →
      (∀ (m : Nat) (d : Entry (PolicyId × ExecutionId) Task),
        x.scene.tasks[m]? = some (some d) → m ≤ n) →
          x.scene.tracker.loadedFor = none ∨ x.scene.tracker.loadedFor = some e.subject.2

theorem tasks_of_one_run (executionPageSize taskPageSize : Nat) (moves : List (Move Command)) :
    ((new executionPageSize taskPageSize).after moves).ShowsOneRun := by
  have hinvariant := tasksOfOneRun_invariant.after (waits_new executionPageSize taskPageSize)
    ⟨0, 0, Nat.le_refl _, panelSound_new _ _⟩ moves
  generalize (new executionPageSize taskPageSize).after moves = x at hinvariant
  obtain ⟨start, run, hsince, h⟩ := hinvariant
  have hloaded : x.scene.tracker.tasks.items ≠ [] → x.scene.tracker.loadedFor = some run :=
    fun hitems => h.loadedFor.resolve_left (mt h.unloaded hitems)
  refine ⟨?_, ?_, ?_⟩
  · intro hitems
    rcases h.ledger.shown with ⟨hempty, -⟩ | ⟨n, e, hn, hle, hanswer⟩
    · exact absurd hempty hitems
    · obtain ⟨hpolicy, hrun⟩ := h.ledger.about n e hn hle
      exact ⟨n, e, hn, Nat.le_trans hsince hle, hpolicy, hrun ▸ hloaded hitems, hanswer⟩
  · intro run' hopen hitems
    rcases h.openPanel with hnone | hrun
    · cases hnone.symm.trans hopen
    · exact (hloaded hitems).trans (hrun.symm.trans hopen)
  · intro n e hn hlast
    rcases Nat.lt_or_ge n start with hlt | hle
    · -- the list was emptied after the request, and nothing was asked for since
      refine .inl (Classical.byContradiction fun hne => ?_)
      obtain ⟨m, d, hd, hle⟩ := h.loaded hne
      exact Nat.not_le_of_lt hlt (Nat.le_trans hle (hlast m d hd))
    · exact (h.ledger.about n e hn hle).2 ▸ h.loadedFor

/-- The panel moves on to another run before the tasks of the first one are there. -/
example :
    let page (total : Nat) : (q : Request) → q.Reply
      | .listTasks _ _ _ => .ok ⟨[], total⟩
      | _ => .error (.http "")
    let x := (new 15 10).after
      [.start (.attach (some 1)), .start (.togglePanel 7), .start (.togglePanel 8),
        .reply 1 (page 2), .reply 0 (page 1)]
    x.scene.tracker.loadedFor = some 8 ∧ x.scene.tracker.tasks.total = 2 :=
  ⟨rfl, rfl⟩

end Tracking

end TagRetention.Client.Tracker
