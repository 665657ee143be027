import TagRetention.Page

/-!
A paged list as shown, and the requests for it. Requests are numbered; only the answer to the latest
one is shown.
-/

namespace TagRetention.Client

structure Listing (α : Type) where
  items : List α
  total : Nat
  page : Nat
  pageSize : Nat
  loading : Bool
  issued : Nat

namespace Listing

variable {α ε : Type}

def new (pageSize : Nat) : Listing α :=
  ⟨[], 0, 1, pageSize, false, 0⟩

/-- Empties the list; what is still under way will not be shown. -/
def reset (l : Listing α) : Listing α :=
  ⟨[], 0, 1, l.pageSize, false, l.issued + 1⟩

def request (l : Listing α) : PageRequest :=
  ⟨l.page, l.pageSize⟩

/-- The number of the request that is sent now. -/
def ticket (l : Listing α) : Nat :=
  l.issued + 1

def begin (l : Listing α) : Listing α :=
  { l with issued := l.issued + 1, loading := true }

def finish (l : Listing α) (ticket : Nat) (answer : Except ε (Page α)) : Listing α :=
  if ticket = l.issued then
    match answer with
    | .error _ => { l with loading := false }
    | .ok page => { l with loading := false, items := page.items, total := page.total }
  else l

/-- Whether the answer is shown. -/
def shows (l : Listing α) (ticket : Nat) (answer : Except ε (Page α)) : Bool :=
  ticket == l.issued && answer.isOk

def goTo (page : Nat) (l : Listing α) : Listing α :=
  { l with page := max page 1 }

def resize (pageSize : Nat) (l : Listing α) : Listing α :=
  { l with pageSize := max pageSize 1, page := 1 }

end Listing

end TagRetention.Client
