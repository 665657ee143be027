import TagRetention.Text.Blank
import TagRetention.Time.Calendar
import TagRetention.Time.Instant

/-!
RFC 3339 text of instants. Any offset is read, a fraction keeps nine digits, and blanks and missing
zeros in front of a number are passed over. UTC is written, and of the fraction none, three, six or
nine digits, the fewest that are exact.
-/

namespace TagRetention.Rfc3339

open Text

def valueOf (digits : List Char) : Nat :=
  digits.foldl (fun a c => a * 10 + (c.toNat - 48)) 0

/-- A number of one to `most` digits, and what follows it. -/
def takeNumber (most : Nat) (s : List Char) : Option (Nat × List Char) :=
  let ds := (s.take most).takeWhile Char.isDigit
  if ds.isEmpty then none else some (valueOf ds, s.drop ds.length)

def takePair (s : List Char) : Option (Nat × List Char) :=
  let ds := s.take 2
  if ds.length = 2 ∧ ds.all Char.isDigit then some (valueOf ds, s.drop 2) else none

def takeChar (p : Char → Bool) : List Char → Option (List Char)
  | c :: r => if p c then some r else none
  | [] => none

/-- Up to four digits, or any number of them after a sign. -/
def takeYear (s : List Char) : Option (Int × List Char) :=
  match trimStartChars s with
  | '-' :: r => (takeNumber r.length r).map fun (n, r) => (-(n : Int), r)
  | '+' :: r => (takeNumber r.length r).map fun (n, r) => ((n : Int), r)
  | r => (takeNumber 4 r).map fun (n, r) => ((n : Int), r)

def takeField (s : List Char) : Option (Nat × List Char) :=
  takeNumber 2 (trimStartChars s)

/-- The field after the mark. -/
def takeNext (mark : Char) (s : List Char) : Option (Nat × List Char) := do
  takeField (← takeChar (· == mark) (trimStartChars s))

def minYear : Int := -262143

def maxYear : Int := 262142

def isInRange (d : Date) : Bool :=
  minYear ≤ d.year && d.year ≤ maxYear

def readDate (s : List Char) : Option (Date × List Char) := do
  let (year, s) ← takeYear s
  let (month, s) ← takeNext '-' s
  let (day, s) ← takeNext '-' s
  let date : Date := ⟨year, month, day⟩
  if date.isValid && isInRange date then some (date, s) else none

/-- Nanoseconds, and what follows them. -/
def readFraction : List Char → Option (Nat × List Char)
  | '.' :: r =>
    let ds := r.takeWhile Char.isDigit
    if ds.isEmpty then none
    else some (valueOf ((ds ++ List.replicate 9 '0').take 9), r.drop ds.length)
  | s => some (0, s)

/-- Hours and minutes in seconds, less than a day, and what follows them. -/
def readShift (s : List Char) : Option (Int × List Char) := do
  let (hours, s) ← takePair s
  let (minutes, s) ← takePair (s.dropWhile fun c => c == ':' || isBlank c)
  if 23 < hours ∨ 59 < minutes then none else some (hours * 3600 + minutes * 60, s)

/-- The minus sign may also be the typographic one. -/
def readOffset (s : List Char) : Option (Int × List Char) :=
  if (s.take 3).map Char.toUpper == ['U', 'T', 'C'] then some (0, s.drop 3)
  else
    match s with
    | 'Z' :: r => some (0, r)
    | 'z' :: r => some (0, r)
    | '+' :: r => readShift r
    | '-' :: r => (readShift r).map fun (n, r) => (-n, r)
    | '\u2212' :: r => (readShift r).map fun (n, r) => (-n, r)
    | _ => none

def read (text : String) : Option Instant := do
  let (date, s) ← readDate text.toList
  let s ← takeChar (fun c => c == 'T' || c == 't' || c == ' ') s
  let (hour, s) ← takeField s
  let (minute, s) ← takeNext ':' s
  let (second, s) ← takeNext ':' s
  let (nanos, s) ← readFraction s
  let (offset, s) ← readOffset (trimStartChars s)
  let clock : Int := hour * 3600 + minute * 60 + (if second = 60 then 59 else second)
  let leap := if second = 60 then Instant.billion else 0
  let seconds := date.toDays * 86400 + clock - offset
  if 23 < hour ∨ 59 < minute ∨ 60 < second ∨ !(trimStartChars s).isEmpty ∨
      !isInRange (.ofDays (seconds / 86400)) then none
  else some ⟨seconds, nanos + leap⟩

def padded (width n : Nat) : String :=
  let s := toString n
  String.ofList (List.replicate (width - s.length) '0') ++ s

def yearText (y : Int) : String :=
  if y < 0 then "-" ++ padded 4 y.natAbs
  else if 9999 < y then "+" ++ toString y
  else padded 4 y.toNat

def fractionText (nanos : Nat) : String :=
  if nanos = 0 then ""
  else if nanos % 1000000 = 0 then "." ++ padded 3 (nanos / 1000000)
  else if nanos % 1000 = 0 then "." ++ padded 6 (nanos / 1000)
  else "." ++ padded 9 nanos

def write (zone : String) (t : Instant) : String :=
  let date := Date.ofDays (t.seconds / 86400)
  let clock := (t.seconds % 86400).toNat
  let leap := if t.inLeapSecond then 1 else 0
  yearText date.year ++ "-" ++ padded 2 date.month ++ "-" ++ padded 2 date.day ++ "T" ++
    padded 2 (clock / 3600) ++ ":" ++ padded 2 (clock / 60 % 60) ++ ":" ++
    padded 2 (clock % 60 + leap) ++ fractionText (t.nanos - leap * Instant.billion) ++ zone

end TagRetention.Rfc3339
