import Mathlib.Data.List.Sort
import Terminay.Lib.Calendar
import Terminay.Lib.Lists
import Terminay.Script.Text

/-!
# Cron expressions

Five fields, each a list of items, and the days a schedule matches. A numeral is read exactly,
however long it is.
-/

namespace Terminay.Cron
open Script

inductive CronFieldName where | minute | hour | dayOfMonth | month | dayOfWeek
  deriving DecidableEq

def CronFieldName.label : CronFieldName → Str
  | minute => js "minute"
  | hour => js "hour"
  | dayOfMonth => js "day-of-month"
  | month => js "month"
  | dayOfWeek => js "day-of-week"

structure FieldSpec where
  min : ℕ
  max : ℕ
  names : List Str
  namesOffset : ℕ

def monthNames : List Str := [js "JAN", js "FEB", js "MAR", js "APR", js "MAY", js "JUN", js "JUL",
  js "AUG", js "SEP", js "OCT", js "NOV", js "DEC"]

def dayNames : List Str :=
  [js "SUN", js "MON", js "TUE", js "WED", js "THU", js "FRI", js "SAT"]

def fieldSpec : CronFieldName → FieldSpec
  | .minute => ⟨0, 59, [], 0⟩
  | .hour => ⟨0, 23, [], 0⟩
  | .dayOfMonth => ⟨1, 31, [], 0⟩
  | .month => ⟨1, 12, monthNames, 1⟩
  -- 7 is a second spelling of Sunday
  | .dayOfWeek => ⟨0, 7, dayNames, 0⟩

def maxDaysInMonth : List ℕ := [31, 29, 31, 30, 31, 30, 31, 31, 30, 31, 30, 31]

/-- The source's field `end` is `last`. -/
structure CronFieldItem where
  star : Bool
  start : ℕ
  last : ℕ
  step : ℕ

structure CronField where
  name : CronFieldName
  source : Str
  items : List CronFieldItem
  values : List ℕ
  star : Bool
  all : Bool

structure CronSchedule where
  expression : Str
  minute : CronField
  hour : CronField
  dayOfMonth : CronField
  month : CronField
  dayOfWeek : CronField

structure CronParseError where
  message : Str
  field : Option CronFieldName

abbrev Parsed (α : Type) := Except CronParseError α

def quoted (text : Str) : Str := js "\"" ++ text ++ js "\""

def fieldError (field : CronFieldName) (source reason : Str) : CronParseError :=
  ⟨js "Invalid " ++ field.label ++ js " field " ++ quoted source ++ js ": " ++ reason, some field⟩

/-- `/^\d+$/` -/
def isNumeral (text : Str) : Bool := !text.isEmpty && text.all isDigit

def upperCase (u : UInt16) : UInt16 := if 97 ≤ u ∧ u ≤ 122 then u - 32 else u

def tokenValue (field : CronFieldName) (source token : Str) : Parsed ℕ :=
  let spec := fieldSpec field
  if isNumeral token then .ok (digitsValue token)
  -- /^[a-z]{3}$/i
  else if spec.names ≠ [] ∧ token.length = 3 ∧ token.all isLetter then
    match spec.names.idxOf? (token.map upperCase) with
    | none => .error (fieldError field source (quoted token ++ js " is not a recognised name"))
    | some index => .ok (index + spec.namesOffset)
  else .error (fieldError field source (quoted token ++ js " is not a number"))

def rangeError (field : CronFieldName) (source : Str) (value : ℕ) : CronParseError :=
  fieldError field source (natText value ++ js " is out of range " ++
    natText (fieldSpec field).min ++ js "-" ++ natText (fieldSpec field).max)

def parseValue (field : CronFieldName) (source token : Str) : Parsed ℕ := do
  let value ← tokenValue field source token
  if value < (fieldSpec field).min ∨ (fieldSpec field).max < value then
    .error (rangeError field source value)
  else .ok value

def parseStep (field : CronFieldName) (source : Str) : Option Str → Parsed ℕ
  | none => .ok 1
  | some stepText =>
    if isNumeral stepText = false ∨ digitsValue stepText < 1 then
      .error (fieldError field source
        (js "step " ++ quoted stepText ++ js " must be a positive whole number"))
    else if (fieldSpec field).max - (fieldSpec field).min + 1 < digitsValue stepText then
      .error (fieldError field source
        (js "step " ++ natText (digitsValue stepText) ++ js " is larger than the field's range"))
    else .ok (digitsValue stepText)

def parseRange (field : CronFieldName) (source rangeText : Str) (stepped : Bool) (step : ℕ) :
    Parsed CronFieldItem :=
  match rangeText.splitOn (unit '-') with
  | [bound] =>
    if bound = [] then
      .error (fieldError field source (quoted rangeText ++ js " is not a valid range"))
    else do
      let start ← parseValue field source bound
      .ok ⟨false, start, if stepped then (fieldSpec field).max else start, step⟩
  | [low, high] =>
    if low = [] ∨ high = [] then
      .error (fieldError field source (quoted rangeText ++ js " is not a valid range"))
    else do
      let start ← parseValue field source low
      let last ← parseValue field source high
      if last < start then
        .error (fieldError field source
          (js "range " ++ low ++ js "-" ++ high ++ js " runs backwards"))
      else .ok ⟨false, start, last, step⟩
  | _ => .error (fieldError field source (quoted rangeText ++ js " is not a valid range"))

def parseItem (field : CronFieldName) (source text : Str) : Parsed CronFieldItem :=
  if text = [] then .error (fieldError field source (js "empty list item"))
  else
    let parts := text.splitOn (unit '/')
    if 2 < parts.length then
      .error (fieldError field source (quoted text ++ js " has more than one step"))
    else do
      let rangeText := parts.headD []
      let step ← parseStep field source parts[1]?
      if rangeText = js "*" then .ok ⟨true, (fieldSpec field).min, (fieldSpec field).max, step⟩
      else parseRange field source rangeText parts[1]?.isSome step

def foldSunday (name : CronFieldName) (value : ℕ) : ℕ :=
  if name = .dayOfWeek ∧ value = 7 then 0 else value

def itemValues (name : CronFieldName) (item : CronFieldItem) : List ℕ :=
  ((List.range (item.last + 1 - item.start)).filter fun i => i % item.step = 0).map fun i =>
    foldSunday name (item.start + i)

def parseField (name : CronFieldName) (source : Str) : Parsed CronField := do
  let items ← (source.splitOn (unit ',')).mapM (parseItem name source)
  let values := (Lists.unique (items.flatMap (itemValues name))).insertionSort (· ≤ ·)
  let span := if name = .dayOfWeek then 7 else (fieldSpec name).max - (fieldSpec name).min + 1
  .ok ⟨name, source, items, values, source.head? == some (unit '*'), values.length == span⟩

def words (text : Str) : List Str := (text.splitOnP isWhiteSpace).filter (· ≠ [])

def parseFields (expression : Str) : Parsed CronSchedule :=
  let trimmed := trim expression
  if trimmed.head? = some (unit '@') then
    .error ⟨quoted trimmed ++ js (" is not supported; use five fields: minute hour day-of-month " ++
      "month day-of-week"), none⟩
  else
    match words trimmed with
    | [minute, hour, dayOfMonth, month, dayOfWeek] => do
      let minuteField ← parseField .minute minute
      let hourField ← parseField .hour hour
      let dayOfMonthField ← parseField .dayOfMonth dayOfMonth
      let monthField ← parseField .month month
      let dayOfWeekField ← parseField .dayOfWeek dayOfWeek
      let expression := minute ++ js " " ++ hour ++ js " " ++ dayOfMonth ++ js " " ++ month ++
        js " " ++ dayOfWeek
      .ok ⟨expression, minuteField, hourField, dayOfMonthField, monthField, dayOfWeekField⟩
    | sources => .error ⟨js ("A cron expression needs five fields (minute hour day-of-month month " ++
        "day-of-week); got ") ++ natText sources.length, none⟩

def possible (schedule : CronSchedule) : Bool :=
  schedule.month.values.any fun value => schedule.dayOfMonth.values.any fun day =>
    day ≤ (maxDaysInMonth[value - 1]?).getD 0

def neverRuns (schedule : CronSchedule) : CronParseError :=
  fieldError .dayOfMonth schedule.dayOfMonth.source (js "never occurs in month field " ++
    quoted schedule.month.source ++ js ", so the schedule would never run")

def parseCron (expression : Str) : Parsed CronSchedule := do
  let schedule ← parseFields expression
  if schedule.dayOfWeek.star && !possible schedule then .error (neverRuns schedule)
  else .ok schedule

def matchesDay (schedule : CronSchedule) (dayOfMonth month dayOfWeek : ℕ) : Bool :=
  if schedule.month.values.contains month then
    let domMatch := schedule.dayOfMonth.values.contains dayOfMonth
    let dowMatch := schedule.dayOfWeek.values.contains dayOfWeek
    if schedule.dayOfMonth.star || schedule.dayOfWeek.star then domMatch && dowMatch
    else domMatch || dowMatch
  else false

end Terminay.Cron
