import TagRetention.Proofs.Api.RunReports

/-!
A server that handles many requests at once. A turn brings a new request or takes one step of a
request that is being handled, so the steps of different requests come in any order.
-/

namespace TagRetention.Api

namespace Handler

variable {σ α β ε : Type}

def answer? : Handler σ α → Option α
  | .answer a => some a
  | .step _ _ => none

end Handler

/-- A request and how far its handling is; `started` is the execution that it has created, which no
step looks at. -/
structure Visit (σ : Type) where
  rest : Handler (State σ) Response
  started : Option ExecutionId

structure Server (σ : Type) where
  state : State σ
  visits : List (Visit σ)

/-- Visits are numbered in the order in which their requests come in. -/
inductive Turn where
  | arrive (r : Request)
  | advance (visit : Nat) (now : Instant)

/-- What has been created when the store goes from one to the other: the counter tells. -/
def startedAfter (started : Option ExecutionId) (s s' : Store) : Option ExecutionId :=
  if s.nextExecution < s'.nextExecution then some s.nextExecution else started

namespace Server

variable {σ : Type} {c : Setting σ} {s : Server σ} {e : ExecutionId} {R R' : Store → Store → Prop}

def fresh (jobs : σ) : Server σ := ⟨.fresh jobs, []⟩

abbrev store (s : Server σ) : Store := s.state.store

/-- A request is answered in the turn that completes its handling. -/
def take (c : Setting σ) (s : Server σ) : Turn → Option Response × Server σ
  | .arrive r => ((serve c r).answer?, { s with visits := s.visits ++ [⟨serve c r, none⟩] })
  | .advance visit now =>
    match s.visits[visit]? with
    | none => (none, s)
    | some v =>
      match v.rest with
      | .answer _ => (none, s)
      | .step change next =>
        let rest := next now s.state
        let state := change now s.state
        let started := startedAfter v.started s.store state.store
        (rest.answer?, ⟨state, s.visits.set visit ⟨rest, started⟩⟩)

def after (c : Setting σ) (s : Server σ) : List Turn → Server σ
  | [] => s
  | t :: turns => (s.take c t).2.after c turns

/-- The servers that turns lead to, from one that holds nothing and handles nothing. -/
inductive Reachable (c : Setting σ) (jobs : σ) : Server σ → Prop where
  | fresh : Reachable c jobs (.fresh jobs)
  | turn {s : Server σ} (h : Reachable c jobs s) (t : Turn) : Reachable c jobs (s.take c t).2

/-- What is answered in the turn reports the execution. -/
def Reports (c : Setting σ) (s : Server σ) (t : Turn) (x : Execution) : Prop :=
  ∃ a ∈ (s.take c t).1, a.Reports x

instance (c : Setting σ) (s : Server σ) (t : Turn) (x : Execution) : Decidable (s.Reports c t x) :=
  inferInstanceAs (Decidable (∃ a ∈ (s.take c t).1, a.Reports x))

/-- In one of the turns the store changes like this. -/
def Sees (c : Setting σ) (R : Store → Store → Prop) (s : Server σ) : List Turn → Prop
  | [] => False
  | t :: turns => R s.store (s.take c t).2.store ∨ (s.take c t).2.Sees c R turns

instance instDecidableSees (c : Setting σ) (R : Store → Store → Prop) [DecidableRel R] (s : Server σ)
    (turns : List Turn) : Decidable (s.Sees c R turns) :=
  match turns with
  | [] => inferInstanceAs (Decidable False)
  | t :: turns =>
    have := instDecidableSees c R (s.take c t).2 turns
    inferInstanceAs (Decidable (R s.store (s.take c t).2.store ∨ (s.take c t).2.Sees c R turns))

/-- The request that created the execution has not been answered yet. -/
def StillStarts (s : Server σ) (e : ExecutionId) : Prop :=
  ∃ v ∈ s.visits, v.started = some e ∧ v.rest.answer? = none

/-- What a turn does, and what is answered in it. -/
inductive Step (c : Setting σ) (s : Server σ) : Option Response × Server σ → Prop where
  | idle : Step c s (none, s)
  | arrive (r : Request) :
    Step c s ((serve c r).answer?, { s with visits := s.visits ++ [⟨serve c r, none⟩] })
  | advance {v : Visit σ} {change : Instant → State σ → State σ}
    {next : Instant → State σ → Handler (State σ) Response} (hv : v ∈ s.visits)
    (hrest : v.rest = .step change next) (visit : Nat) (now : Instant) :
    Step c s ((next now s.state).answer?,
      ⟨change now s.state, s.visits.set visit
        ⟨next now s.state, startedAfter v.started s.store (change now s.state).store⟩⟩)

theorem step_take (c : Setting σ) (s : Server σ) (t : Turn) : Step c s (s.take c t) := by
  cases t with
  | arrive r => exact .arrive r
  | advance visit now =>
    rw [take]
    split
    · exact .idle
    · rename_i v hv
      split
      · exact .idle
      · rename_i change next hrest
        exact .advance (List.mem_of_getElem? hv) hrest visit now

theorem Reachable.after {jobs : σ} (h : s.Reachable c jobs) (turns : List Turn) :
    (s.after c turns).Reachable c jobs := by
  induction turns generalizing s with
  | nil => exact h
  | cons t turns ih => exact ih (h.turn t)

theorem after_append (c : Setting σ) (s : Server σ) (turns turns' : List Turn) :
    s.after c (turns ++ turns') = (s.after c turns).after c turns' := by
  induction turns generalizing s with
  | nil => rfl
  | cons t turns ih => exact ih _

/-- A request that created an execution before the turn was not answered before it. -/
theorem stillStarts_of_take {t : Turn} (he : e < s.store.nextExecution)
    (h : (s.take c t).2.StillStarts e) : s.StillStarts e := by
  obtain ⟨w, hw, hstarted, hopen⟩ := h
  have hstep := step_take c s t
  generalize s.take c t = result at hstep hw
  cases hstep with
  | idle => exact ⟨w, hw, hstarted, hopen⟩
  | arrive r =>
    rcases List.mem_append.mp hw with hw | hw
    · exact ⟨w, hw, hstarted, hopen⟩
    · rw [List.mem_singleton.mp hw] at hstarted
      cases hstarted
  | @advance v change next hv hrest visit now =>
    rcases List.mem_or_eq_of_mem_set hw with hw | rfl
    · exact ⟨w, hw, hstarted, hopen⟩
    · rw [startedAfter] at hstarted
      split at hstarted
      · exact absurd (Option.some.inj hstarted) (Int.ne_of_gt he)
      · exact ⟨v, hv, hstarted, by rw [hrest]; rfl⟩

end Server

end TagRetention.Api
