import TagRetention.Proofs.Client.Tracking

/-!
The list of runs shows what the latest answer since its policy was attached said; other answers come
too late.
-/

namespace TagRetention.Client.Tracker

/-- What is shown, and what was asked for since, is of the policy attached. -/
def HistorySound (s : Scene) (since : Nat) : Prop :=
  Ledger.Sound (fun id => s.tracker.policyId = some id) s.tracker.executions s.runs since

variable {s t : Scene} {since : Nat}

theorem HistorySound.attach (h : HistorySound s since) {policy : Option PolicyId}
    (hne : s.tracker.policyId ≠ policy) :
    HistorySound ⟨s.tracker.attach policy, s.asked⟩ s.asked.length := by
  have hlength : s.runs.length = s.asked.length := List.length_map _
  rw [Tracker.attach, if_neg hne, ← hlength]
  exact Ledger.Sound.reset h

theorem HistorySound.turn (h : HistorySound s since) (hturn : Turn s t) :
    HistorySound t since := by
  have hpolicy := hturn.policyId_eq
  unfold HistorySound at *
  rw [hpolicy]
  cases hturn with
  | goToPage | setPageSize => exact h.congr rfl rfl rfl rfl
  | goToTaskPage | closePanel => exact h
  | openPanel execution =>
    have hlist : (s.tracker.openPanelOf execution).executions = s.tracker.executions := by
      unfold openPanelOf
      split <;> rfl
    rw [hlist]
    exact h
  | askRuns hid =>
    rw [Scene.runs_append]
    exact h.begin hid
  | askTasks | askOther =>
    rw [Scene.runs_append]
    exact h.pass
  | takeRuns hn he answer =>
    rw [Scene.runs_set]
    exact h.finish (Scene.getElem?_runs.2 hn) he answer
  | takeTasks hn he answer =>
    rw [Scene.runs_set_tasks hn]
    exact h

theorem historySound_invariant : Tracking.Invariant HistorySound :=
  ⟨fun _ _ _ h hne => h.attach hne, fun _ _ _ h hturn => h.turn hturn⟩

theorem Turn.answered_kept (h : Turn s t) {n : Nat} {e : Entry PolicyId Execution}
    (hn : s.asked[n]? = some (.runs e)) (he : e.answer ≠ none) :
    t.asked[n]? = some (.runs e) := by
  cases h with
  | goToPage | setPageSize | goToTaskPage | closePanel | openPanel => exact hn
  | askRuns | askTasks | askOther =>
    rw [List.getElem?_append_left (List.getElem?_eq_some_iff.1 hn).1]
    exact hn
  | @takeRuns m d hm hd answer =>
    rw [List.getElem?_set_ne]
    · exact hn
    · rintro rfl
      cases hm.symm.trans hn
      exact he hd
  | @takeTasks m d hm hd answer =>
    rw [List.getElem?_set_ne]
    · exact hn
    · rintro rfl
      cases hm.symm.trans hn

theorem answered_invariant {n : Nat} {e : Entry PolicyId Execution} (he : e.answer ≠ none) :
    Tracking.Invariant fun s _ => s.asked[n]? = some (.runs e) :=
  ⟨fun _ _ _ h _ => h, fun _ _ _ h hturn => hturn.answered_kept h he⟩

namespace Tracking

variable {x : Tracking} {n : Nat} {e : Entry PolicyId Execution}

theorem stale_reply (hx : InUse.Waits x.use) (h : HistorySound x.scene x.since)
    (hn : x.scene.runs[n]? = some (some e))
    (hstale : ¬ Ledger.Current x.scene.runs x.since n e) (answers : (q : Request) → q.Reply) :
    (x.step (.reply n answers)).scene.tracker = x.scene.tracker := by
  rcases reply_runs hx hn answers with hsame | ⟨-, answer, htaken⟩
  · rw [hsame]
  · have hticket : e.ticket ≠ x.scene.tracker.executions.issued :=
      fun hissued => hstale ((h.fresh n e hn).1 hissued)
    rw [htaken, onExecutions, Listing.finish_of_ne hticket]

/-- An answer that changes the list is one of a later request than those before. -/
theorem applied_lt (hx : InUse.Waits x.use) (h : HistorySound x.scene x.since)
    (hn : x.scene.runs[n]? = some (some e)) (answers answers' : (q : Request) → q.Reply)
    (between : List (Move Command)) {m : Nat} {d : Entry PolicyId Execution}
    (happlied : (x.step (.reply n answers)).scene.tracker.executions ≠ x.scene.tracker.executions) :
    let z := (x.step (.reply n answers)).after between
    z.scene.runs[m]? = some (some d) →
      (z.step (.reply m answers')).scene.tracker.executions ≠ z.scene.tracker.executions →
      n < m := by
  intro z hm happlied'
  have hy : InUse.Waits (x.step (.reply n answers)).use := (waits_step hx _).1
  have hz : HistorySound z.scene z.since :=
    historySound_invariant.after hy (historySound_invariant.step hx h _) between
  -- the first answer is on record from then on
  obtain ⟨answer, hkept⟩ : ∃ answer,
      z.scene.asked[n]? = some (.runs { e with answer := some answer }) := by
    rcases reply_runs hx hn answers with hsame | ⟨-, answer, htaken⟩
    · rw [hsame] at happlied
      exact absurd rfl happlied
    · refine ⟨answer, (answered_invariant (by nofun)).after hy ?_ between⟩
      rw [htaken]
      exact List.getElem?_set_self (List.getElem?_eq_some_iff.1 (Scene.getElem?_runs.1 hn)).1
  have hcurrent : Ledger.Current z.scene.runs z.since m d := by
    refine Classical.byContradiction fun hstale => ?_
    rw [stale_reply (waits_after hy between) hz hm hstale] at happlied'
    exact happlied' rfl
  apply Nat.lt_of_le_of_ne (hcurrent.last n _ (Scene.getElem?_runs.2 hkept))
  rintro rfl
  rcases reply_runs (waits_after hy between) hm answers' with hsame | ⟨hnone, -⟩
  · rw [hsame] at happlied'
    exact happlied' rfl
  · cases (Scene.getElem?_runs.1 hm).symm.trans hkept
    cases hnone

theorem fresh_reply (hx : InUse.Waits x.use) (h : HistorySound x.scene x.since) {d : Sent}
    (hd : x.use.sent[n]? = some d) (hwait : d.isWaiting = true) {page : PageRequest}
    (hrequest : d.request = .listExecutions e.subject page)
    (hcurrent : Ledger.Current x.scene.runs x.since n e) (answers : (q : Request) → q.Reply) :
    (x.step (.reply n answers)).scene.tracker.executions =
      match answers (.listExecutions e.subject page) with
      | .error _ => { x.scene.tracker.executions with loading := false }
      | .ok p =>
        { x.scene.tracker.executions with loading := false, items := p.items, total := p.total } := by
  have hasked : Sent.asked d = .runs e := by
    have hget := Scene.getElem?_runs.1 hcurrent.get
    exact Option.some.inj ((getElem?_scene hd).symm.trans hget)
  have hticket := (h.fresh n e hcurrent.get).2 hcurrent
  rw [reply_waiting hx hd hasked hwait hrequest answers]
  simp only [onExecutions, Listing.finish, hticket, if_true]
  cases answers (.listExecutions e.subject page) <;> rfl

/-- The list of runs is empty or an answer to a request since the policy was attached, for its runs.
The answer to the latest such request is shown; any other one comes too late and changes nothing, so
answers take effect in the order of their requests. The list is loading as long as the latest request
has no answer. -/
structure ShowsLatest (x : Tracking) : Prop where
  shown : x.scene.tracker.executions.items = [] ∧ x.scene.tracker.executions.total = 0 ∨
    ∃ (n : Nat) (e : Entry PolicyId Execution), x.scene.runs[n]? = some (some e) ∧ x.since ≤ n ∧
      x.scene.tracker.policyId = some e.subject ∧
        e.answer = some (.ok ⟨x.scene.tracker.executions.items, x.scene.tracker.executions.total⟩)
  stale : ∀ (n : Nat) (e : Entry PolicyId Execution) (answers : (q : Request) → q.Reply),
    x.scene.runs[n]? = some (some e) → ¬ Ledger.Current x.scene.runs x.since n e →
      (x.step (.reply n answers)).scene.tracker = x.scene.tracker
  fresh : ∀ (n : Nat) (e : Entry PolicyId Execution) (d : Sent) (page : PageRequest)
    (answers : (q : Request) → q.Reply), Ledger.Current x.scene.runs x.since n e →
      x.use.sent[n]? = some d → d.isWaiting = true → d.request = .listExecutions e.subject page →
        (x.step (.reply n answers)).scene.tracker.executions =
          match answers (.listExecutions e.subject page) with
          | .error _ => { x.scene.tracker.executions with loading := false }
          | .ok p =>
            { x.scene.tracker.executions with
              loading := false, items := p.items, total := p.total }
  ordered : ∀ (n m : Nat) (e d : Entry PolicyId Execution)
    (answers answers' : (q : Request) → q.Reply) (between : List (Move Command)),
      let z := (x.step (.reply n answers)).after between
      x.scene.runs[n]? = some (some e) →
        (x.step (.reply n answers)).scene.tracker.executions ≠ x.scene.tracker.executions →
          z.scene.runs[m]? = some (some d) →
            (z.step (.reply m answers')).scene.tracker.executions ≠ z.scene.tracker.executions →
              n < m
  loading : x.scene.tracker.executions.loading = true ↔
    ∃ (n : Nat) (e : Entry PolicyId Execution),
      Ledger.Current x.scene.runs x.since n e ∧ e.answer = none

theorem latest_runs_shown (executionPageSize taskPageSize : Nat) (moves : List (Move Command)) :
    ((new executionPageSize taskPageSize).after moves).ShowsLatest := by
  have hx := waits_after (waits_new executionPageSize taskPageSize) moves
  have h := historySound_invariant.after (waits_new executionPageSize taskPageSize)
    (Ledger.sound_new _) moves
  generalize (new executionPageSize taskPageSize).after moves = x at hx h
  refine ⟨?_, ?_, ?_, ?_, h.loading⟩
  · rcases h.shown with hempty | ⟨n, e, hn, hle, hanswer⟩
    · exact .inl hempty
    · exact .inr ⟨n, e, hn, hle, h.about n e hn hle, hanswer⟩
  · intro n e answers hn hstale
    exact stale_reply hx h hn hstale answers
  · intro n e d page answers hcurrent hd hwait hrequest
    exact fresh_reply hx h hd hwait hrequest hcurrent answers
  · intro n m e d answers answers' between z hn happlied
    exact applied_lt hx h hn answers answers' between happlied

/-- The answer to the first request comes after that to the second and is not shown. -/
example :
    let page (total : Nat) : (q : Request) → q.Reply
      | .listExecutions _ _ => .ok ⟨[], total⟩
      | _ => .error (.http "")
    let x := (new 15 10).after
      [.start (.attach (some 1)), .start .refresh, .start (.goToPage 2), .reply 1 (page 2),
        .reply 0 (page 1)]
    x.scene.tracker.executions.total = 2 := rfl

end Tracking

end TagRetention.Client.Tracker
