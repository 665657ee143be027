/-!
Integers in decimal text: an optional sign, then ASCII digits and nothing else. Leading zeros are
fine; a minus sign is read only where negative numbers are allowed.
-/

namespace TagRetention.Text

inductive NumeralError where
  | empty
  | invalidDigit
  | tooLarge
  | tooSmall
  deriving DecidableEq, Repr

def NumeralError.message : NumeralError → String
  | .empty => "cannot parse integer from empty string"
  | .invalidDigit => "invalid digit found in string"
  | .tooLarge => "number too large to fit in target type"
  | .tooSmall => "number too small to fit in target type"

def digit? (c : Char) : Option Nat :=
  if '0' ≤ c ∧ c ≤ '9' then some (c.toNat - '0'.toNat) else none

/-- The digits before a bad one already decide that a number is too large. -/
def magnitude (limit : Nat) (tooBig : NumeralError) (acc : Nat) :
    List Char → Except NumeralError Nat
  | [] => .ok acc
  | c :: r =>
    match digit? c with
    | none => .error .invalidDigit
    | some d => if acc * 10 + d ≤ limit then magnitude limit tooBig (acc * 10 + d) r
      else .error tooBig

/-- Reads an integer of the range from `-below` to `above`. A lone sign is an invalid digit. -/
def readInteger (below above : Nat) (s : List Char) : Except NumeralError Int :=
  match s with
  | [] => .error .empty
  | ['+'] => .error .invalidDigit
  | ['-'] => .error .invalidDigit
  | '+' :: r => (magnitude above .tooLarge 0 r).map Int.ofNat
  | '-' :: r =>
    if below = 0 then .error .invalidDigit
    else (magnitude below .tooSmall 0 r).map fun n => -Int.ofNat n
  | r => (magnitude above .tooLarge 0 r).map Int.ofNat

def int64 (s : String) : Except NumeralError Int :=
  readInteger (Nat.pow 2 63) (Nat.pow 2 63 - 1) s.toList

def natural (bits : Nat) (s : String) : Except NumeralError Nat :=
  (readInteger 0 (Nat.pow 2 bits - 1) s.toList).map Int.toNat

end TagRetention.Text
