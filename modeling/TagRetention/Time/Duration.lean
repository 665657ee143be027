import TagRetention.Time.Instant

/-!
The display text of a run's duration: whole minutes and seconds, leaving out what is zero.
-/

namespace TagRetention

def notAvailable : String := "N/A"

/-- Whole milliseconds from start to end, cut toward zero. -/
def Instant.millis (start finish : Instant) : Int :=
  (start.span finish).tdiv 1000000

def durationText (millis : Int) : String :=
  let minutes := millis.tdiv 60000
  let seconds := (millis.tmod 60000).tdiv 1000
  if millis ≤ 0 ∨ (minutes = 0 ∧ seconds = 0) then "0"
  else
    (if 0 < minutes then toString minutes ++ "min" else "") ++
      (if 0 < seconds then toString seconds ++ "sec" else "")

def formatDuration : Option Instant → Option Instant → String
  | some start, some finish => durationText (start.millis finish)
  | _, _ => notAvailable

end TagRetention
