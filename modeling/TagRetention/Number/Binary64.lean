/-!
Finite binary floating-point numbers with 53 digits: `± mantissa · 2 ^ exponent`. `round` takes a
ratio to the nearest such number, a tie to the even mantissa; `mul` and `div` round the exact
result. A number too large for the format is `none`.
-/

namespace TagRetention

structure Binary64 where
  negative : Bool
  mantissa : Nat
  exponent : Int
  deriving DecidableEq, Repr

namespace Binary64

def minExponent : Int := -1074

def maxExponent : Int := 971

def zero (negative : Bool) : Binary64 :=
  ⟨negative, 0, minExponent⟩

def neg (x : Binary64) : Binary64 :=
  { x with negative := !x.negative }

/-- The two zeros are the same number. -/
def same (x y : Binary64) : Bool :=
  (x.mantissa == 0 && y.mantissa == 0) || x == y

/-- The nearest whole number to a ratio; a tie goes to the even one. -/
def nearest (num den : Nat) : Nat :=
  let q := num / den
  let r := num % den
  if den < 2 * r ∨ (2 * r = den ∧ q % 2 = 1) then q + 1 else q

/-- `num / den` in units of `2 ^ e`, as a ratio. -/
def inUnits (num den : Nat) (e : Int) : Nat × Nat :=
  if 0 ≤ e then (num, den * Nat.pow 2 e.toNat) else (num * Nat.pow 2 (-e).toNat, den)

def roundExponent (num den : Nat) : Int :=
  let e := (num.log2 : Int) - (den.log2 : Int) - 52
  let (n, d) := inUnits num den e
  max (if n / d < Nat.pow 2 52 then e - 1 else e) minExponent

def round (negative : Bool) (num den : Nat) : Option Binary64 :=
  if num = 0 then some (zero negative)
  else
    let e := roundExponent num den
    let (n, d) := inUnits num den e
    let m := nearest n d
    let (m, e) := if m = Nat.pow 2 53 then (Nat.pow 2 52, e + 1) else (m, e)
    if maxExponent < e then none else some ⟨negative, m, e⟩

/-- The value without its sign, as a ratio. -/
def ratio (x : Binary64) : Nat × Nat :=
  if 0 ≤ x.exponent then (x.mantissa * Nat.pow 2 x.exponent.toNat, 1)
  else (x.mantissa, Nat.pow 2 (-x.exponent).toNat)

def ofNat (n : Nat) : Option Binary64 :=
  round false n 1

def mul (x y : Binary64) : Option Binary64 :=
  let (a, b) := x.ratio
  let (c, d) := y.ratio
  round (x.negative != y.negative) (a * c) (b * d)

def div (x y : Binary64) : Option Binary64 :=
  let (a, b) := x.ratio
  let (c, d) := y.ratio
  if c = 0 then none else round (x.negative != y.negative) (a * d) (b * c)

variable {x y z : Binary64}

theorem same_refl : same x x = true := by
  simp [same]

theorem same_comm : same x y = same y x := by
  simp only [same, Bool.and_comm, Bool.beq_comm]

theorem same_trans (hxy : same x y = true) (hyz : same y z = true) : same x z = true := by
  simp only [same, Bool.or_eq_true, Bool.and_eq_true, beq_iff_eq] at *
  rcases hxy with h | rfl <;> rcases hyz with h' | rfl <;> simp_all

end Binary64

end TagRetention
