import TagRetention.Proofs.Api.Conduct
import TagRetention.Proofs.Api.FanOut

/-!
Finished runs under requests that interleave. A run counts as finished while the request that
started it has yet to record its tasks, so only once that request is answered does a finished run
stay finished, up to a report of a newer revision.
-/

namespace TagRetention.Api

open Handler

namespace Server

variable {σ : Type} {c : Setting σ} {s : Server σ} {e : ExecutionId} {status : RunStatus}

/-- What holds between any two turns. Nothing is kept of a visit that is answered: what it told may
no longer be true. -/
structure Orderly (s : Server σ) : Prop where
  sound : s.store.Sound
  conduct : ∀ v ∈ s.visits, v.rest.answer? = none → v.rest.Abides Told v.started s.store

theorem orderly_fresh (jobs : σ) : (fresh jobs).Orderly :=
  ⟨Store.sound_empty, nofun⟩

/-- The next step of a visit, from the conduct of the visit. -/
theorem Orderly.act (h : s.Orderly) {v : Visit σ} (hv : v ∈ s.visits)
    {change : Instant → State σ → State σ} {next : Instant → State σ → Handler (State σ) Response}
    (hrest : v.rest = .step change next) (now : Instant) :
    Act v.started s.store (change now s.state).store ∧
      (next now s.state).Abides Told
        (startedAfter v.started s.store (change now s.state).store) (change now s.state).store := by
  have habides := h.conduct v hv (by rw [hrest]; rfl)
  rw [hrest] at habides
  exact habides now s.state h.sound

theorem Orderly.take (h : s.Orderly) (t : Turn) : (s.take c t).2.Orderly := by
  have hstep := step_take c s t
  generalize s.take c t = result at hstep
  cases hstep with
  | idle => exact h
  | arrive r =>
    refine ⟨h.sound, fun w hw hopen => ?_⟩
    rcases List.mem_append.mp hw with hw | hw
    · exact h.conduct w hw hopen
    · rw [List.mem_singleton.mp hw]
      exact abides_serve c r
  | @advance v change next hv hrest visit now =>
    obtain ⟨hact, hnext⟩ := h.act hv hrest now
    refine ⟨hact.sound h.sound, fun w hw hopen => ?_⟩
    rcases List.mem_or_eq_of_mem_set hw with hw | rfl
    · exact (h.conduct w hw hopen).of_unanswered hopen _
    · exact hnext

theorem Reachable.orderly {jobs : σ} (h : s.Reachable c jobs) : s.Orderly := by
  induction h with
  | fresh => exact orderly_fresh jobs
  | turn _ t ih => exact ih.take t

theorem eq_answer_of_answer? {α : Type} {h : Handler (State σ) α} {a : α}
    (ha : h.answer? = some a) : h = .answer a := by
  cases h with
  | answer b => rw [Option.some.inj ha]
  | step => cases ha

theorem Orderly.reports (h : s.Orderly) {t : Turn} {x : Execution} (hx : s.Reports c t x) :
    (s.take c t).2.store.status? x.id = some x.status := by
  obtain ⟨a, ha, hx⟩ := hx
  have hstep := step_take c s t
  generalize s.take c t = result at hstep ha
  have htold : a.Truthful result.2.store := by
    cases hstep with
    | idle => cases ha
    | arrive r =>
      have habides : (serve c r).Abides Told none s.store := abides_serve c r
      rw [eq_answer_of_answer? ha] at habides
      exact habides
    | advance hv hrest visit now =>
      have habides := (h.act hv hrest now).2
      rw [eq_answer_of_answer? ha] at habides
      exact habides
  exact htold x hx

theorem Orderly.status?_take (h : s.Orderly) (t : Turn) (hstatus : s.store.status? e = some status)
    (hdone : status.isTerminal = true) :
    (s.take c t).2.store.status? e = some status ∨
      Store.Renews e s.store (s.take c t).2.store ∨
      (s.StillStarts e ∧ Store.Gains e s.store (s.take c t).2.store) := by
  have hstep := step_take c s t
  generalize s.take c t = result at hstep
  cases hstep with
  | idle | arrive => exact .inl hstatus
  | @advance v change next hv hrest visit now =>
    rcases (h.act hv hrest now).1.status? h.sound hstatus hdone with hkept | hnew | ⟨hown, hgain⟩
    · exact .inl hkept
    · exact .inr (.inl hnew)
    · exact .inr (.inr ⟨⟨v, hv, hown, by rw [hrest]; rfl⟩, hgain⟩)

/-- The status of a finished run along any turns. -/
theorem Orderly.status?_after (h : s.Orderly) (turns : List Turn)
    (hstatus : s.store.status? e = some status) (hdone : status.isTerminal = true) :
    (s.after c turns).store.status? e = some status ∨ s.Sees c (Store.Renews e) turns ∨
      (s.StillStarts e ∧ s.Sees c (Store.Gains e) turns) := by
  induction turns generalizing s with
  | nil => exact .inl hstatus
  | cons t turns ih =>
    obtain ⟨r, hr⟩ := Store.record_of_status? hstatus
    have hlt : e < s.store.nextExecution := h.sound.executions.lt_next e r hr
    rcases h.status?_take (c := c) t hstatus hdone with hkept | hnew | ⟨hstill, hgain⟩
    · rcases ih (h.take t) hkept with hend | hnew | ⟨hstill, hgain⟩
      · exact .inl hend
      · exact .inr (.inl (.inr hnew))
      · exact .inr (.inr ⟨stillStarts_of_take hlt hstill, .inr hgain⟩)
    · exact .inr (.inl (.inl hnew))
    · exact .inr (.inr ⟨hstill, .inl hgain⟩)

/-- Between an answer that has a run finished and a later one that has it under way, a task of the
run gets a report of a newer revision; or the request that started the run is still to be answered
at the first of the two, and the run gets a task before the second. -/
theorem finished_run_reopens {jobs : σ} (h : s.Reachable c jobs) {t u : Turn} {between : List Turn}
    {x y : Execution} (hx : s.Reports c t x) (hdone : x.status.isTerminal = true)
    (hy : ((s.take c t).2.after c between).Reports c u y) (hid : y.id = x.id)
    (hopen : y.status.isTerminal = false) :
    (s.take c t).2.Sees c (Store.Renews x.id) (between ++ [u]) ∨
      ((s.take c t).2.StillStarts x.id ∧
        (s.take c t).2.Sees c (Store.Gains x.id) (between ++ [u])) := by
  have hnext := h.turn t
  have hfirst : (s.take c t).2.store.status? x.id = some x.status := h.orderly.reports hx
  have hsecond : ((s.take c t).2.after c (between ++ [u])).store.status? x.id = some y.status := by
    rw [after_append, ← hid]
    exact (hnext.after between).orderly.reports hy
  apply (hnext.orderly.status?_after (between ++ [u]) hfirst hdone).resolve_left
  intro hsame
  have hstatus : y.status = x.status := Option.some.inj (hsecond.symm.trans hsame)
  rw [hstatus, hdone] at hopen
  cases hopen

theorem after_arrive_of_call {r : Request} {call : Call} (h : callOf r = .ok call)
    (turns : List Turn) :
    s.after c (.arrive r :: turns) =
      after c { s with visits := s.visits ++
        [⟨(respond c call).bind fun a => .answer (r.shown a), none⟩] } turns := by
  rw [after, take, serve, answer, h]
  rfl

def listRequest : Request :=
  ⟨"GET", "/api/retentions/1/executions", none, .empty⟩

/-- The executions are asked for when a run is recorded and its job is still to be launched. -/
def recorded : List Turn :=
  [.arrive (keepRequest "library/a"), .advance 0 default, .arrive startRequest,
    .advance 1 default, .advance 1 default, .arrive listRequest, .advance 2 default]

def launched : List Turn :=
  [.advance 1 default, .advance 1 default]

def shown (status : RunStatus) (endTime : Option Instant) : Execution :=
  ⟨1, 1, status, .manual, false, some default, endTime⟩

theorem listed_before_launch :
    let s := (fresh .empty).after journaled recorded
    let s' := (s.take journaled (.advance 2 default)).2
    s.Reports journaled (.advance 2 default) (shown .succeeded (some default)) ∧
      (s'.after journaled launched).Reports journaled (.advance 1 default) (shown .pending none) ∧
      ¬ s'.Sees journaled (Store.Renews 1) (launched ++ [.advance 1 default]) := by
  have hkept : (fresh .empty).after journaled recorded = _ :=
    after_arrive_of_call (callOf_keepRequest _) _
  rw [hkept]
  decide +kernel

theorem finished_run_reopens_of_launch :
    let s := (fresh .empty).after journaled recorded
    let s' := (s.take journaled (.advance 2 default)).2
    s.Reachable journaled .empty ∧
      s.Reports journaled (.advance 2 default) (shown .succeeded (some default)) ∧
      (s'.after journaled launched).Reports journaled (.advance 1 default) (shown .pending none) ∧
      s'.StillStarts 1 ∧
      s'.Sees journaled (Store.Gains 1) (launched ++ [.advance 1 default]) := by
  intro s s'
  have hs : s.Reachable journaled .empty := Reachable.fresh.after recorded
  obtain ⟨hx, hy, hold⟩ := listed_before_launch
  have hreopens := finished_run_reopens hs hx rfl hy rfl rfl
  exact ⟨hs, hx, hy, hreopens.resolve_left hold⟩

/-- A report of a newer revision is not the only way for a finished run to be under way again. -/
theorem finished_run_reopens_unreported :
    ¬ ∀ (s : Server Journal) (between : List Turn) (t u : Turn) (x y : Execution),
      s.Reachable journaled .empty → s.Reports journaled t x → x.status.isTerminal = true →
      ((s.take journaled t).2.after journaled between).Reports journaled u y → y.id = x.id →
      y.status.isTerminal = false →
      (s.take journaled t).2.Sees journaled (Store.Renews x.id) (between ++ [u]) := by
  intro h
  obtain ⟨hx, hy, hold⟩ := listed_before_launch
  exact hold (h _ _ _ _ _ _ (Reachable.fresh.after recorded) hx rfl hy rfl rfl)

end Server

end TagRetention.Api
