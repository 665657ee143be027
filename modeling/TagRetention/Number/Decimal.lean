import TagRetention.Number.Binary64

/-!
Decimal text of binary floating-point numbers. `Binary64.shortest` is the point of the coarsest
power-of-ten grid that rounds to the number. `Binary64.ofDecimal` scales a whole number by a power
of ten in steps that each round, as the reader of documents does.
-/

namespace TagRetention.Binary64

/-- Twice over, the ends of the interval that rounds to `x`, and `x` itself, in units of a quarter
of the last place. The gap below a power of two is half as wide. -/
def interval (x : Binary64) : Nat × Nat × Nat :=
  let m := 4 * x.mantissa
  if x.mantissa = Nat.pow 2 52 ∧ minExponent < x.exponent then (m - 1, m, m + 2)
  else (m - 2, m, m + 2)

/-- The grid point `c · 10 ^ k` next to `x` that rounds to `x`, if there is one. -/
def gridPoint? (x : Binary64) (k : Int) : Option Nat :=
  let (lo, mid, hi) := x.interval
  let e := x.exponent - 2
  let up := Nat.pow 2 e.toNat * Nat.pow 10 (-k).toNat
  let unit := Nat.pow 2 (-e).toNat * Nat.pow 10 k.toNat
  let inside (c : Nat) : Bool :=
    if x.mantissa % 2 = 0 then lo * up ≤ c * unit && c * unit ≤ hi * up
    else lo * up < c * unit && c * unit < hi * up
  let below := mid * up / unit
  match inside below, inside (below + 1) with
  | true, true => some (nearest (mid * up) unit)
  | true, false => some below
  | false, true => some (below + 1)
  | false, false => none

/-- Tries the grids `10 ^ (fuel - 325)` and finer, down to `10 ^ (-324)`. -/
def coarsest (x : Binary64) : Nat → Nat × Int
  | 0 => (0, 0)
  | fuel + 1 =>
    let k := (fuel : Int) - 324
    match x.gridPoint? k with
    | some c => (c, k)
    | none => x.coarsest fuel

def shortest (x : Binary64) : Nat × Int :=
  x.coarsest 634

def exponentText (e : Int) : List Char :=
  (if e < 0 then '-' else '+') :: (toString e.natAbs).toList

/-- Positional from `0.00001` to below `10 ^ 16`, with at least one decimal; otherwise one digit,
the rest of them after a point, and the exponent with its sign. -/
def layout (digits : List Char) (k : Int) : List Char :=
  let point := (digits.length : Int) + k
  if 0 ≤ k ∧ point ≤ 16 then digits ++ List.replicate k.toNat '0' ++ ['.', '0']
  else if 0 < point ∧ point ≤ 16 then
    digits.take point.toNat ++ '.' :: digits.drop point.toNat
  else if -5 < point ∧ point ≤ 0 then
    '0' :: '.' :: (List.replicate (-point).toNat '0' ++ digits)
  else
    let exponent := exponentText (point - 1)
    match digits with
    | [d] => d :: 'e' :: exponent
    | d :: ds => d :: '.' :: ds ++ 'e' :: exponent
    | [] => []

def text (x : Binary64) : String :=
  let unsigned :=
    if x.mantissa = 0 then ['0', '.', '0']
    else
      let (c, k) := x.shortest
      layout (toString c).toList k
  String.ofList (if x.negative then '-' :: unsigned else unsigned)

def powerOfTen (n : Nat) : Option Binary64 :=
  ofNat (Nat.pow 10 n)

/-- The largest power of ten in the format is `10 ^ topPower`. -/
def topPower : Nat := 308

def scaleDown (x : Binary64) (n : Nat) : Option Binary64 :=
  if n ≤ topPower then (powerOfTen n).bind x.div
  else if x.mantissa = 0 then some x
  else (powerOfTen topPower).bind fun p => (x.div p).bind fun y => scaleDown y (n - topPower)
termination_by n
decreasing_by simp only [topPower] at *; omega

/-- `significand · 10 ^ exponent`, rounded at each step; `none` beyond the largest number. -/
def ofDecimal (negative : Bool) (significand : Nat) (exponent : Int) : Option Binary64 := do
  let x ← ofNat significand
  let y ←
    if exponent < 0 then x.scaleDown (-exponent).toNat
    else if x.mantissa = 0 then some x
    else if topPower < exponent then none
    else (powerOfTen exponent.toNat).bind x.mul
  return if negative then y.neg else y

end TagRetention.Binary64
