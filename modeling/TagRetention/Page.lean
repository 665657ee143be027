import TagRetention.Fault

/-!
Paged listings. Pages count from one, and `total` counts all items, not only those of the page.
-/

namespace TagRetention

structure PageRequest where
  page : Nat
  pageSize : Nat
  deriving DecidableEq, Repr

structure Page (α : Type) where
  items : List α
  total : Nat
  deriving DecidableEq, Repr

namespace PageRequest

def defaultPage : Nat := 1

def defaultSize : Nat := 10

/-- Room for every item that a listing can have. -/
def everything : PageRequest := ⟨1, Nat.pow 2 32 - 1⟩

def fault? (r : PageRequest) : Option Fault :=
  if r.page = 0 then some (.page "page starts at 1")
  else if r.pageSize = 0 then some (.page "page_size must be positive")
  else none

/-- The number of items on the pages before. -/
def offset (r : PageRequest) : Nat :=
  (r.page - 1) * r.pageSize

def slice {α : Type} (r : PageRequest) (items : List α) : List α :=
  (items.drop r.offset).take r.pageSize

def of {α : Type} (r : PageRequest) (items : List α) : Page α :=
  ⟨r.slice items, items.length⟩

end PageRequest

def Page.empty {α : Type} : Page α := ⟨[], 0⟩

end TagRetention
