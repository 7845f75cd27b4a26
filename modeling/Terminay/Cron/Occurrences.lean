import Terminay.Cron.Parse

/-!
# The next occurrences of a schedule

Instants and wall-clock times are milliseconds, a wall-clock time counted as if it were UTC. The
offset of the time zone, which the host's formatter reports, is a parameter. The search returns as
soon as it has found enough; a loop that returns is an error here.
-/

namespace Terminay.Cron

def minuteMs : ℤ := 60000
def hourMs : ℤ := 60 * minuteMs
def dayMs : ℤ := 24 * hourMs
def searchDays : ℕ := 366 * 30
def maxOffset : ℤ := 15 * hourMs

/-! ## Dates in UTC -/

def calendarDay (time : ℤ) : ℤ := time / dayMs + 719468

def getUTCDate (time : ℤ) : ℕ := (Calendar.dayOfMonth (calendarDay time)).toNat
def getUTCMonth (time : ℤ) : ℕ := (Calendar.month (calendarDay time) - 1).toNat
def getUTCDay (time : ℤ) : ℕ := (Calendar.weekday (calendarDay time)).toNat

/-! ## The search -/

section

variable (offsetAt : ℤ → ℤ)

/-- The earliest instant at which the clocks show `wall`, unless they never do. -/
def earliestInstantForWall (wall : ℤ) : Option ℤ :=
  let offsets := Lists.unique
    [offsetAt (wall - maxOffset - dayMs), offsetAt wall, offsetAt (wall + maxOffset + dayMs)]
  offsets.foldl (fun earliest offset =>
    if offsetAt (wall - offset) = offset ∧ ∀ instant ∈ earliest, wall - offset < instant then
      some (wall - offset)
    else earliest) none

variable (schedule : CronSchedule) (after : ℤ) (count : ℕ)

def lowestWall : ℤ := after - maxOffset

def startDay : ℤ := lowestWall after / dayMs * dayMs

def tryWall (results : List ℤ) (wall : ℤ) : Except (List ℤ) (List ℤ) :=
  if wall ≤ lowestWall after then .ok results
  else
    match earliestInstantForWall offsetAt wall with
    | none => .ok results
    | some instant =>
      if instant ≤ after then .ok results
      else if results.length + 1 = count then .error (results ++ [instant])
      else .ok (results ++ [instant])

def tryHour (dayStart : ℤ) (results : List ℤ) (hour : ℕ) : Except (List ℤ) (List ℤ) :=
  let hourStart := dayStart + hour * hourMs
  if hourStart + hourMs ≤ lowestWall after then .ok results
  else schedule.minute.values.foldlM (fun results (minute : ℕ) =>
    tryWall offsetAt after count results (hourStart + minute * minuteMs)) results

def matchesDate (dayStart : ℤ) : Bool :=
  matchesDay schedule (getUTCDate dayStart) (getUTCMonth dayStart + 1) (getUTCDay dayStart)

def tryDay (results : List ℤ) (dayIndex : ℕ) : Except (List ℤ) (List ℤ) :=
  let dayStart := startDay after + dayIndex * dayMs
  if matchesDate schedule dayStart then
    schedule.hour.values.foldlM (tryHour offsetAt schedule after count dayStart) results
  else .ok results

def nextOccurrences : List ℤ :=
  if count = 0 then []
  else
    match (List.range searchDays).foldlM (tryDay offsetAt schedule after count) [] with
    | .ok results => results
    | .error returned => returned

def nextOccurrence : Option ℤ := (nextOccurrences offsetAt schedule after 1).head?

end

end Terminay.Cron
