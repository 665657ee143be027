/-!
Points in time: seconds since 1970 and nanoseconds. A leap second is the second before it with
nanoseconds from `10 ^ 9` on, so the order is that of the pairs.
-/

namespace TagRetention

structure Instant where
  seconds : Int
  nanos : Nat
  deriving DecidableEq, Repr, Inhabited

namespace Instant

def billion : Nat := 1000000000

def le (a b : Instant) : Bool :=
  a.seconds < b.seconds || (a.seconds == b.seconds && a.nanos ≤ b.nanos)

def later (a b : Instant) : Instant :=
  if a.le b then b else a

/-- The latest of the instants. -/
def latest? : List Instant → Option Instant
  | [] => none
  | a :: r =>
    match latest? r with
    | none => some a
    | some b => some (a.later b)

def inLeapSecond (a : Instant) : Bool :=
  billion ≤ a.nanos

/-- Nanoseconds from `a` to `b`. A leap second passed on the way counts where the time of day runs
over it. -/
def span (a b : Instant) : Int :=
  let day (t : Instant) := t.seconds % 86400
  let leap : Int :=
    if day a < day b ∧ a.inLeapSecond then 1
    else if day b < day a ∧ b.inLeapSecond then -1
    else 0
  (b.seconds - a.seconds + leap) * billion + (b.nanos - a.nanos)

variable {a b c : Instant}

theorem le_refl : a.le a = true := by
  simp [le]

theorem le_total : a.le b = true ∨ b.le a = true := by
  simp only [le, Bool.or_eq_true, Bool.and_eq_true, decide_eq_true_eq, beq_iff_eq]
  omega

theorem le_trans (hab : a.le b = true) (hbc : b.le c = true) : a.le c = true := by
  simp only [le, Bool.or_eq_true, Bool.and_eq_true, decide_eq_true_eq, beq_iff_eq] at *
  omega

theorem le_antisymm (hab : a.le b = true) (hba : b.le a = true) : a = b := by
  simp only [le, Bool.or_eq_true, Bool.and_eq_true, decide_eq_true_eq, beq_iff_eq] at *
  cases a
  cases b
  simp only [mk.injEq] at *
  omega

end Instant

end TagRetention
