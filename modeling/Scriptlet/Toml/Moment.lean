import Scriptlet.Number.Digits
import Scriptlet.Toml.Fault

namespace Scriptlet.Toml

/-- How many days a month has. -/
def daysIn (year month : Nat) : Nat :=
  if month = 2 then
    if year % 4 = 0 ∧ (year % 100 ≠ 0 ∨ year % 400 = 0) then 29 else 28
  else if month = 4 ∨ month = 6 ∨ month = 9 ∨ month = 11 then 30
  else 31

/-- Whether there is a day of this date. Years have four digits, and there is no
year zero. -/
def isDate (year month day : Nat) : Bool :=
  1 ≤ year && year ≤ 9999 && 1 ≤ month && month ≤ 12 && 1 ≤ day && day ≤ daysIn year month

structure Date where
  year : Nat
  month : Nat
  day : Nat
  valid : isDate year month day = true
  deriving DecidableEq

/-- A time of day. -/
structure Clock where
  hour : Fin 24
  minute : Fin 60
  second : Fin 60
  microsecond : Fin 1000000
  deriving DecidableEq

/-- A day, a time of day, or a time on a day. The last one may say by how many
minutes its clock is ahead of universal time. -/
inductive Moment where
  | date (day : Date)
  | time (clock : Clock)
  | dateTime (day : Date) (clock : Clock) (ahead : Option Int)
  deriving DecidableEq

/-! How moments are written. -/

/-- A number with zeros in front of it, as far as it has fewer digits. -/
def padded (width n : Nat) : String :=
  let digits := Nat.toDigits 10 n
  String.ofList (List.replicate (width - digits.length) '0' ++ digits)

namespace Moment

def dateText (day : Date) : String :=
  padded 4 day.year ++ "-" ++ padded 2 day.month ++ "-" ++ padded 2 day.day

/-- Microseconds are left out where there are none. -/
def clockText (clock : Clock) : String :=
  padded 2 clock.hour ++ ":" ++ padded 2 clock.minute ++ ":" ++ padded 2 clock.second ++
    if clock.microsecond = 0 then "" else "." ++ padded 6 clock.microsecond

def aheadText (minutes : Int) : String :=
  (if minutes < 0 then "-" else "+") ++ padded 2 (minutes.natAbs / 60) ++ ":" ++
    padded 2 (minutes.natAbs % 60)

/-- A moment as it is written on its own. -/
def text : Moment → String
  | date day => dateText day
  | time clock => clockText clock
  | dateTime day clock ahead =>
    dateText day ++ " " ++ clockText clock ++ (ahead.map aheadText).getD ""

def dateArguments (day : Date) : List String :=
  [toString day.year, toString day.month, toString day.day]

/-- The second is left out if it is zero and nothing comes after it. -/
def clockArguments (clock : Clock) : List String :=
  let fraction := if clock.microsecond = 0 then [] else [toString clock.microsecond]
  let second := if clock.second = 0 ∧ fraction = [] then [] else [toString clock.second]
  [toString clock.hour, toString clock.minute] ++ second ++ fraction

/-- A zone by its distance, which counts from the day before if it is behind. -/
def zoneArgument (minutes : Int) : String :=
  if minutes = 0 then "datetime.timezone.utc"
  else if 0 < minutes then
    "datetime.timezone(datetime.timedelta(seconds=" ++ toString (60 * minutes) ++ "))"
  else
    "datetime.timezone(datetime.timedelta(days=-1, seconds=" ++ toString (86400 + 60 * minutes) ++ "))"

def called (name : String) (arguments : List String) : String :=
  "datetime." ++ name ++ "(" ++ ", ".intercalate arguments ++ ")"

/-- A moment as it is written inside of other values. -/
def quoted : Moment → String
  | date day => called "date" (dateArguments day)
  | time clock => called "time" (clockArguments clock)
  | dateTime day clock ahead =>
    called "datetime" <| dateArguments day ++ clockArguments clock ++
      ahead.toList.map fun minutes => "tzinfo=" ++ zoneArgument minutes

end Moment

/-! How moments are read. -/

/-- The value of exactly so many digits. -/
def digitsOf? (count : Nat) (text : List Char) : Option (Nat × List Char) :=
  let digits := text.take count
  if digits.length = count ∧ digits.all isDecimal then some (Number.value digits, text.drop count)
  else none

/-- Two digits whose value is below a limit. -/
def twoDigits? (limit : Nat) (text : List Char) : Option (Fin limit × List Char) := do
  let (value, rest) ← digitsOf? 2 text
  if isLess : value < limit then some (⟨value, isLess⟩, rest) else none

/-- The rest of a text that begins with a certain character. -/
def behind? (mark : Char) : List Char → Option (List Char)
  | [] => none
  | c :: rest => if c = mark then some rest else none

/-- A fraction of a second, of which six digits count. -/
def microsecond : List Char → Fin 1000000 × List Char
  | '.' :: rest =>
    match rest.takeWhile isDecimal with
    | [] => (0, '.' :: rest)
    | digits =>
      let six := (digits ++ List.replicate 5 '0').take 6
      (Fin.ofNat 1000000 (Number.value six), rest.dropWhile isDecimal)
  | text => (0, text)

def clock? (text : List Char) : Option (Clock × List Char) := do
  let (hour, rest) ← twoDigits? 24 text
  let (minute, rest) ← twoDigits? 60 (← behind? ':' rest)
  let (second, rest) ← twoDigits? 60 (← behind? ':' rest)
  let (microsecond, rest) := microsecond rest
  some (⟨hour, minute, second, microsecond⟩, rest)

/-- The year, the month and the day of a date. There need not be such a day. -/
def date? (text : List Char) : Option ((Nat × Nat × Nat) × List Char) := do
  let (year, rest) ← digitsOf? 4 text
  let (month, rest) ← twoDigits? 13 (← behind? '-' rest)
  let (day, rest) ← twoDigits? 32 (← behind? '-' rest)
  if month = 0 ∨ day = 0 then none else some ((year, month, day), rest)

/-- Hours and minutes, in minutes. -/
def distance? (text : List Char) : Option (Nat × List Char) := do
  let (hours, rest) ← twoDigits? 24 text
  let (minutes, rest) ← twoDigits? 60 (← behind? ':' rest)
  some (60 * hours + minutes, rest)

/-- By how many minutes a clock is ahead of universal time, if this is said. -/
def ahead (text : List Char) : Option Int × List Char :=
  match text with
  | [] => (none, text)
  | c :: rest =>
    if c = 'Z' ∨ c = 'z' then (some 0, rest)
    else if c = '+' ∨ c = '-' then
      match distance? rest with
      | some (minutes, rest) => (some (if c = '-' then -minutes else minutes), rest)
      | none => (none, text)
    else (none, text)

/-- A time of day behind a date, and the letter or the blank between them. -/
def clockBehind? : List Char → Option (Clock × List Char)
  | [] => none
  | c :: rest => if c = 'T' ∨ c = 't' ∨ c = ' ' then clock? rest else none

/-- A moment, if one is next. -/
def moment? (text : List Char) : Option (Except Fault (Moment × List Char)) :=
  match date? text with
  | some ((year, month, day), rest) =>
    if valid : isDate year month day = true then
      let date : Date := ⟨year, month, day, valid⟩
      match clockBehind? rest with
      | some (clock, rest) =>
        let (ahead, rest) := ahead rest
        some (.ok (.dateTime date clock ahead, rest))
      | none => some (.ok (.date date, rest))
    else some (malformed "there is no such day")
  | none => (clock? text).map fun (clock, rest) => .ok (.time clock, rest)

end Scriptlet.Toml
