/-!
Schedules. A cron that is one of the preset texts has the class of that preset, the empty cron is
no schedule, and any other text is kept as a custom schedule.
-/

namespace TagRetention

inductive ScheduleClass where
  | none
  | hourly
  | daily
  | weekly
  | custom
  deriving DecidableEq, Repr

def hourlyCron : String := "0 0 * * * *"

def dailyCron : String := "0 0 0 * * *"

def weeklyCron : String := "0 0 0 * * 0"

def ScheduleClass.name : ScheduleClass → String
  | .none => "None"
  | .hourly => "Hourly"
  | .daily => "Daily"
  | .weekly => "Weekly"
  | .custom => "Custom"

def ScheduleClass.preset? : ScheduleClass → Option String
  | .none => some ""
  | .hourly => some hourlyCron
  | .daily => some dailyCron
  | .weekly => some weeklyCron
  | .custom => Option.none

def classify (cron : String) : ScheduleClass :=
  if cron = "" then .none
  else if cron = hourlyCron then .hourly
  else if cron = dailyCron then .daily
  else if cron = weeklyCron then .weekly
  else .custom

inductive Schedule where
  | none
  | hourly
  | daily
  | weekly
  | custom (cron : String)
  deriving DecidableEq, Repr

namespace Schedule

def ofCron (cron : String) : Schedule :=
  match classify cron with
  | .none => .none
  | .hourly => .hourly
  | .daily => .daily
  | .weekly => .weekly
  | .custom => .custom cron

def cron : Schedule → String
  | .none => ""
  | .hourly => hourlyCron
  | .daily => dailyCron
  | .weekly => weeklyCron
  | .custom cron => cron

def scheduleClass : Schedule → ScheduleClass
  | .none => .none
  | .hourly => .hourly
  | .daily => .daily
  | .weekly => .weekly
  | .custom _ => .custom

theorem cron_ofCron (cron : String) : (ofCron cron).cron = cron := by
  unfold ofCron classify
  by_cases h0 : cron = ""
  · simp [h0, Schedule.cron]
  · by_cases h1 : cron = hourlyCron
    · simp [h1, hourlyCron, Schedule.cron]
    · by_cases h2 : cron = dailyCron
      · simp [h2, hourlyCron, dailyCron, Schedule.cron]
      · by_cases h3 : cron = weeklyCron
        · simp [h3, hourlyCron, dailyCron, weeklyCron, Schedule.cron]
        · simp [h0, h1, h2, h3, Schedule.cron]

theorem scheduleClass_ofCron (cron : String) : (ofCron cron).scheduleClass = classify cron := by
  unfold ofCron
  cases classify cron <;> rfl

end Schedule

end TagRetention
