import TagRetention.Client.Request

/-!
Calls on an object of the client with state `σ`. What a call does between two requests to the
service happens at once; while it waits for a reply, other calls on the object may go on. `abandon`
is what becomes of the state if the call is given up at that request.
-/

namespace TagRetention.Client

inductive Call (σ α : Type) where
  | finish (a : α)
  | act (change : σ → σ) (next : σ → Call σ α)
  | ask (q : Request) (abandon : σ → σ) (next : q.Reply → Call σ α)

namespace Call

variable {σ α β S : Type}

def bind (c : Call σ α) (f : α → Call σ β) : Call σ β :=
  match c with
  | .finish a => f a
  | .act change next => .act change fun s => (next s).bind f
  | .ask q abandon next => .ask q abandon fun r => (next r).bind f

def map (f : α → β) (c : Call σ α) : Call σ β :=
  c.bind fun a => .finish (f a)

def look (next : σ → Call σ α) : Call σ α :=
  .act id next

def change (f : σ → σ) (c : Call σ α) : Call σ α :=
  .act f fun _ => c

/-- Sends a request with nothing to undo. -/
def request (q : Request) (next : q.Reply → Call σ α) : Call σ α :=
  .ask q id next

/-- Does `release` when the call ends, also when it is given up. -/
def releasing (release : σ → σ) : Call σ α → Call σ α
  | .finish a => .act release fun _ => .finish a
  | .act change next => .act change fun s => (next s).releasing release
  | .ask q abandon next => .ask q (release ∘ abandon) fun r => (next r).releasing release

/-- The call on its own, from start to end. -/
def run (service : Service S) : Call σ α → σ → S → α × σ × S
  | .finish a, s, w => (a, s, w)
  | .act change next, s, w => (next s).run service (change s) w
  | .ask q _ next, s, w =>
    let (reply, w) := service q w
    (next reply).run service s w

inductive Progress (σ α : Type) where
  | ended (a : α)
  | held (rest : Call σ α)

/-- Runs the call up to its `n`-th request, counted from zero. The service answers that request, but
the reply is held back: `rest` goes on with it. -/
def runUntil (service : Service S) : Nat → Call σ α → σ → S → Progress σ α × σ × S
  | _, .finish a, s, w => (.ended a, s, w)
  | n, .act change next, s, w => (next s).runUntil service n (change s) w
  | 0, .ask q _ next, s, w =>
    let (reply, w) := service q w
    (.held (next reply), s, w)
  | n + 1, .ask q _ next, s, w =>
    let (reply, w) := service q w
    (next reply).runUntil service n s w

end Call

end TagRetention.Client
