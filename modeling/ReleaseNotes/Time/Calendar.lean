/-!
Dates of the proleptic Gregorian calendar, counted in days from the first of January 1970, with the
numbering of days within a year and of the two kinds of weeks.
-/

namespace ReleaseNotes.Time

structure Date where
  year : Int
  month : Nat
  day : Nat
deriving DecidableEq, Repr

def isLeapYear (year : Int) : Bool :=
  year % 4 == 0 && (year % 100 != 0 || year % 400 == 0)

def daysInYear (year : Int) : Nat :=
  if isLeapYear year then 366 else 365

def daysInMonth (year : Int) (month : Nat) : Nat :=
  match month with
  | 2 => if isLeapYear year then 29 else 28
  | 4 | 6 | 9 | 11 => 30
  | _ => 31

def daysBeforeMonth (year : Int) : Nat → Nat
  | 0 | 1 => 0
  | month + 2 => daysBeforeMonth year (month + 1) + daysInMonth year (month + 1)

def daysBeforeYear (year : Int) : Int :=
  let before := year - 1
  365 * before + Int.fdiv before 4 - Int.fdiv before 100 + Int.fdiv before 400 - 719162

def isSupportedYear (year : Int) : Bool :=
  -262143 ≤ year && year ≤ 262142

namespace Date

def ordinal (date : Date) : Nat :=
  daysBeforeMonth date.year date.month + date.day

def dayNumber (date : Date) : Int :=
  daysBeforeYear date.year + date.ordinal - 1

def weekday (date : Date) : Int :=
  (date.dayNumber + 3) % 7

def ofParts? (year : Int) (month day : Int) : Option Date :=
  if isSupportedYear year && 1 ≤ month && month ≤ 12 && 1 ≤ day &&
      day ≤ daysInMonth year month.toNat then
    some ⟨year, month.toNat, day.toNat⟩
  else none

def monthAndDay (year : Int) (rest : Nat) : List Nat → Nat × Nat
  | [] => (12, rest)
  | month :: later =>
    if rest ≤ daysInMonth year month then (month, rest)
    else monthAndDay year (rest - daysInMonth year month) later

def ofOrdinal? (year : Int) (ordinal : Int) : Option Date :=
  if isSupportedYear year && 1 ≤ ordinal && ordinal ≤ daysInYear year then
    let (month, day) := monthAndDay year ordinal.toNat [1, 2, 3, 4, 5, 6, 7, 8, 9, 10, 11, 12]
    some ⟨year, month, day⟩
  else none

/-- The year that holds a day number. The first guess is off by at most one. -/
def yearOfDay (day : Int) : Int :=
  let guess := Int.fdiv (400 * (day + 719162)) 146097 + 1
  if day < daysBeforeYear guess then guess - 1
  else if daysBeforeYear (guess + 1) ≤ day then guess + 1
  else guess

def ofDayNumber? (day : Int) : Option Date :=
  let year := yearOfDay day
  ofOrdinal? year (day - daysBeforeYear year + 1)

/-- The number of the week in the year when weeks begin on a given day; days before the first
such day belong to week zero. -/
def weekFrom (firstWeekday : Int) (date : Date) : Int :=
  (date.ordinal - (date.weekday - firstWeekday) % 7 + 6) / 7

/-- The year and the number of the week that a date has in the week calendar, where a week belongs
to the year of its Thursday. -/
def isoWeek (date : Date) : Int × Int :=
  let thursday := date.dayNumber - date.weekday + 3
  let year := yearOfDay thursday
  (year, (thursday - daysBeforeYear year) / 7 + 1)

def ofIsoWeek? (year week weekday : Int) : Option Date :=
  let first := daysBeforeYear year
  let firstMonday := first + 3 - (first + 3 + 3) % 7
  let day := firstMonday + 7 * (week - 1) + weekday
  match ofDayNumber? day with
  | some date => if 1 ≤ week && date.isoWeek == (year, week) then some date else none
  | none => none

def ofWeek? (year week weekday firstWeekday : Int) : Option Date :=
  let first := daysBeforeYear year
  let firstStart := 1 + (firstWeekday - (first + 3) % 7) % 7
  ofOrdinal? year (firstStart + (week - 1) * 7 + (weekday - firstWeekday) % 7)

end Date

end ReleaseNotes.Time
