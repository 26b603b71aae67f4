/-!
# Time stamps of sessions

The name of a session begins with the moment of its start in universal time, written without
separators. A moment has to exist in the calendar.
-/

set_option autoImplicit false
set_option relaxedAutoImplicit false

namespace TapeRunner

/-- A date and a time of day. -/
structure Moment where
  year : Int
  month : Int
  day : Int
  hour : Int
  minute : Int
  second : Int
  microsecond : Int
deriving DecidableEq

/-- Why there is no such moment. A part outside the range of 32-bit integers counts before all
others, and then the first part that is wrong. -/
inductive MomentError
  | tooGreat
  | tooSmall
  | year (year : Int)
  | month
  | day
  | hour
  | minute
  | second
  | microsecond
deriving DecidableEq

/-- The text of a moment's error. -/
def MomentError.message : MomentError → String
  | .tooGreat => "signed integer is greater than maximum"
  | .tooSmall => "signed integer is less than minimum"
  | .year number => "year " ++ toString number ++ " is out of range"
  | .month => "month must be in 1..12"
  | .day => "day is out of range for month"
  | .hour => "hour must be in 0..23"
  | .minute => "minute must be in 0..59"
  | .second => "second must be in 0..59"
  | .microsecond => "microsecond must be in 0..999999"

namespace Moment

/-- Every fourth year, save the full centuries that four hundred does not divide. -/
def isLeap (year : Int) : Bool :=
  year % 4 = 0 && (year % 100 ≠ 0 || year % 400 = 0)

/-- The number of days of a month. -/
def daysOf (year month : Int) : Int :=
  if month = 2 then (if isLeap year then 29 else 28)
  else if month ∈ [4, 6, 9, 11] then 30
  else 31

/-- The parts of a moment, from the year on. -/
def parts (moment : Moment) : List Int :=
  [moment.year, moment.month, moment.day, moment.hour, moment.minute, moment.second,
    moment.microsecond]

/-- The least and the greatest 32-bit integer. -/
def wordRange : Int × Int := (-2147483648, 2147483647)

/-- Checks that a part is a 32-bit integer. -/
def checkWord (part : Int) : Except MomentError Unit :=
  if wordRange.2 < part then .error .tooGreat
  else if part < wordRange.1 then .error .tooSmall
  else .ok ()

/-- Checks the parts of a moment from the year on. -/
def check (moment : Moment) : Except MomentError Unit := do
  moment.parts.forM checkWord
  unless 1 ≤ moment.year ∧ moment.year ≤ 9999 do throw (.year moment.year)
  unless 1 ≤ moment.month ∧ moment.month ≤ 12 do throw .month
  unless 1 ≤ moment.day ∧ moment.day ≤ daysOf moment.year moment.month do throw .day
  unless 0 ≤ moment.hour ∧ moment.hour ≤ 23 do throw .hour
  unless 0 ≤ moment.minute ∧ moment.minute ≤ 59 do throw .minute
  unless 0 ≤ moment.second ∧ moment.second ≤ 59 do throw .second
  unless 0 ≤ moment.microsecond ∧ moment.microsecond ≤ 999999 do throw .microsecond

/-- A number of at most two digits, written with two. -/
def twoDigits (number : Int) : String :=
  if number < 10 then "0" ++ toString number else toString number

/-- The moment as the beginning of a session's name. The year is written without filling. -/
def stamp (moment : Moment) : String :=
  toString moment.year ++ twoDigits moment.month ++ twoDigits moment.day ++ "T" ++
    twoDigits moment.hour ++ twoDigits moment.minute ++ twoDigits moment.second ++ "Z"

end Moment

end TapeRunner
