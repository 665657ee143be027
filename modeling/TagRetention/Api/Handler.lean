import TagRetention.Api.Message

/-!
Handlers: what a request does to the service, as atomic steps on the state of the service. Other
requests may come in between two steps. `run` has none come in between.
-/

namespace TagRetention.Api

/-- A step changes the state at some time; how it goes on hangs on the state before the step. -/
inductive Handler (σ α : Type) where
  | answer (a : α)
  | step (change : Instant → σ → σ) (next : Instant → σ → Handler σ α)

namespace Handler

variable {σ α β ε : Type}

def bind (h : Handler σ α) (f : α → Handler σ β) : Handler σ β :=
  match h with
  | .answer a => f a
  | .step change next => .step change fun now s => (next now s).bind f

instance : Monad (Handler σ) where
  pure := .answer
  bind := bind

def run (now : Instant) : Handler σ α → σ → α × σ
  | .answer a, s => (a, s)
  | .step change next, s => (next now s).run now (change now s)

/-- One atomic step with a result. -/
def atomic (f : Instant → σ → α × σ) : Handler σ α :=
  .step (fun now s => (f now s).2) fun now s => .answer (f now s).1

def read (f : σ → α) : Handler σ α :=
  atomic fun _ s => (f s, s)

/-- Goes on with the value, or ends with the error. -/
def orElse (h : Handler σ (Except ε α)) (f : α → Handler σ (Except ε β)) :
    Handler σ (Except ε β) :=
  h.bind fun
    | .error e => .answer (.error e)
    | .ok a => f a

theorem run_bind (now : Instant) (h : Handler σ α) (f : α → Handler σ β) (s : σ) :
    (h.bind f).run now s = (f (h.run now s).1).run now (h.run now s).2 := by
  induction h generalizing s with
  | answer a => rfl
  | step change next ih => exact ih now s _

theorem run_atomic (now : Instant) (f : Instant → σ → α × σ) (s : σ) :
    (atomic f).run now s = f now s := rfl

end Handler

end TagRetention.Api
