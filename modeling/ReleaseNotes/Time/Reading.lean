import ReleaseNotes.Text.Digits
import ReleaseNotes.Text.Separated
import ReleaseNotes.Time.Calendar
import ReleaseNotes.Time.Pattern

/-!
Reading dates and times with a pattern. Reading a text fills fields; a date is then found from the
fields that are there, and every other field has to agree with it.
-/

namespace ReleaseNotes.Time

open Text

def Field.range : Field → Int × Int
  | .year | .isoYear => (-2147483648, 2147483647)
  | .century | .isoCentury => (0, 2147483647)
  | .yearOfCentury | .isoYearOfCentury => (0, 99)
  | .quarter => (1, 4)
  | .month => (1, 12)
  | .day => (1, 31)
  | .ordinal => (1, 366)
  | .weekFromSunday | .weekFromMonday => (0, 53)
  | .isoWeek => (1, 53)
  | .weekday => (0, 6)
  | .halfDay => (0, 1)
  | .hourOfHalf => (0, 11)
  | .minute => (0, 59)
  | .second => (0, 60)
  | .nanosecond => (0, 999999999)
  | .timestamp => (-9223372036854775808, 9223372036854775807)
  | .offset => (-2147483648, 2147483647)

abbrev Fields := List (Field × Int)

namespace Fields

def get? (fields : Fields) (field : Field) : Option Int :=
  fields.lookup field

/-- A field that is given again has to have the same value. -/
def put? (fields : Fields) (field : Field) (value : Int) : Option Fields :=
  if field.range.1 ≤ value && value ≤ field.range.2 then
    match fields.get? field with
    | some former => if former = value then some fields else none
    | none => some ((field, value) :: fields)
  else none

def putHour? (fields : Fields) (hour : Int) : Option Fields :=
  if 0 ≤ hour && hour ≤ 23 then
    (fields.put? .halfDay (hour / 12)).bind fun fields => fields.put? .hourOfHalf (hour % 12)
  else none

def putNumber? (fields : Fields) (number : Number) (value : Int) : Option Fields :=
  match number with
  | .plain field => fields.put? field value
  | .hour => fields.putHour? value
  | .hourOfTwelve =>
    if 1 ≤ value && value ≤ 12 then fields.put? .hourOfHalf (value % 12) else none
  | .weekdayFromSunday =>
    if 0 ≤ value && value ≤ 6 then fields.put? .weekday ((value + 6) % 7) else none
  | .weekdayFromMonday =>
    if 1 ≤ value && value ≤ 7 then fields.put? .weekday (value - 1) else none

end Fields

namespace Reading

def Number.width : Number → Nat
  | .plain .year | .plain .isoYear => 4
  | .plain .ordinal => 3
  | .plain .quarter | .weekdayFromSunday | .weekdayFromMonday => 1
  | .plain .nanosecond => 9
  | _ => 2

def digits? (limit : Nat) (chars : List Char) : Option (Int × List Char) :=
  let taken := (chars.take limit).takeWhile Char.isDigit
  if taken.isEmpty then none
  else some (valueOfDigits taken, chars.drop taken.length)

/-- A number; only full years may have a sign, and with one they take all the digits. -/
def number? (number : Number) (chars : List Char) : Option (Int × List Char) :=
  match number, dropBlank chars with
  | .plain .timestamp, rest => digits? rest.length rest
  | .plain .year, '-' :: rest | .plain .isoYear, '-' :: rest =>
    (digits? rest.length rest).map fun (n, rest) => (-n, rest)
  | .plain .year, '+' :: rest | .plain .isoYear, '+' :: rest => digits? rest.length rest
  | n, rest => digits? (Number.width n) rest

def afterWord? : List Char → List Char → Option (List Char)
  | [], chars => some chars
  | _ :: _, [] => none
  | w :: word, c :: rest => if c.toLower = w then afterWord? word rest else none

def monthNames : List String :=
  ["january", "february", "march", "april", "may", "june", "july", "august", "september",
    "october", "november", "december"]

def weekdayNames : List String :=
  ["monday", "tuesday", "wednesday", "thursday", "friday", "saturday", "sunday"]

/-- The place of a name in a list, by its first three letters. The other letters of the name
belong to it if they follow and are allowed. -/
def name? (long : Bool) (chars : List Char) : List String → Int → Option (Int × List Char)
  | [], _ => none
  | name :: names, place =>
    match afterWord? (name.toList.take 3) chars with
    | none => name? long chars names (place + 1)
    | some rest =>
      if long then some (place, (afterWord? (name.toList.drop 3) rest).getD rest)
      else some (place, rest)

/-- The nanoseconds that digits after a decimal point stand for. Digits beyond the ninth are
skipped. -/
def fraction? (chars : List Char) : Option (Int × List Char) :=
  match digits? 9 chars with
  | none => none
  | some (n, rest) =>
    let count := chars.length - rest.length
    some (n * Nat.pow 10 (9 - count), rest.dropWhile Char.isDigit)

def fixedFraction? (count : Nat) (chars : List Char) : Option (Int × List Char) :=
  match digits? count chars with
  | none => none
  | some (n, rest) =>
    if chars.length - rest.length = count then some (n * Nat.pow 10 (9 - count), rest) else none

def twoDigits? : List Char → Option (Int × List Char)
  | c :: d :: rest =>
    if c.isDigit && d.isDigit then some (valueOfDigits [c, d], rest) else none
  | _ => none

def offset? (zulu missingMinutes : Bool) (between : List Char → Option (List Char))
    (chars : List Char) : Option (Int × List Char) :=
  let signed? : Option (Int × List Char) :=
    match chars with
    | '+' :: rest => some (1, rest)
    | '-' :: rest | '−' :: rest => some (-1, rest)
    | _ => none
  match zulu, chars with
  | true, 'Z' :: rest | true, 'z' :: rest => some (0, rest)
  | _, _ => do
    let (sign, rest) ← signed?
    let (hours, rest) ← twoDigits? rest
    let rest ← between rest
    if missingMinutes && rest.isEmpty then return (sign * hours * 3600, rest)
    let (minutes, rest) ← twoDigits? rest
    if minutes ≤ 59 then return (sign * (hours * 3600 + minutes * 60), rest) else none

def colonOrBlank (chars : List Char) : Option (List Char) :=
  some (chars.dropWhile fun c => c == ':' || isBlank c)

def oneColon : List Char → Option (List Char)
  | ':' :: rest => some rest
  | _ => none

def simpleItem? (item : Item) (fields : Fields) (chars : List Char) :
    Option (Fields × List Char) :=
  match item with
  | .literal text => (afterStart? text chars).map fun rest => (fields, rest)
  | .space => some (fields, dropBlank chars)
  | .number n => do
    let (value, rest) ← number? n chars
    return (← fields.putNumber? n value, rest)
  | .monthName long => do
    let (place, rest) ← name? long chars monthNames 1
    return (← fields.put? .month place, rest)
  | .weekdayName long => do
    let (place, rest) ← name? long chars weekdayNames 0
    return (← fields.put? .weekday place, rest)
  | .halfOfDay =>
    match afterWord? ['a', 'm'] chars, afterWord? ['p', 'm'] chars with
    | some rest, _ => (fields.put? .halfDay 0).map fun fields => (fields, rest)
    | none, some rest => (fields.put? .halfDay 1).map fun fields => (fields, rest)
    | none, none => none
  | .fraction none _ =>
    match chars with
    | '.' :: rest => do
      let (nanos, rest) ← fraction? rest
      return (← fields.put? .nanosecond nanos, rest)
    | _ => some (fields, chars)
  | .fraction (some count) true =>
    match chars with
    | '.' :: rest => do
      let (nanos, rest) ← fixedFraction? count rest
      return (← fields.put? .nanosecond nanos, rest)
    | _ => some (fields, chars)
  | .fraction (some count) false => do
    let (nanos, rest) ← fixedFraction? count chars
    return (← fields.put? .nanosecond nanos, rest)
  | .zoneName => some (fields, chars.dropWhile fun c => !isBlank c)
  | .offset style => do
    let permissive := style == .permissive
    let (seconds, rest) ← offset? permissive permissive colonOrBlank (dropBlank chars)
    return (← fields.put? .offset seconds, rest)
  | .internetTime => none
  | .invalid => none

def simpleItems? (items : List Item) (fields : Fields) (chars : List Char) :
    Option (Fields × List Char) :=
  items.foldlM (fun (fields, chars) item => simpleItem? item fields chars) (fields, chars)

def internetTime? (fields : Fields) (chars : List Char) : Option (Fields × List Char) := do
  let (fields, rest) ← simpleItems? [Pattern.num .year, .space, .literal ['-'],
    Pattern.num .month, .space, .literal ['-'], Pattern.num .day] fields chars
  let rest ← match rest with
    | 'T' :: rest | 't' :: rest | ' ' :: rest => some rest
    | _ => none
  let (fields, rest) ← simpleItems? [.number .hour, .space, .literal [':'],
    Pattern.num .minute, .space, .literal [':'], Pattern.num .second, .fraction none true, .space]
    fields rest
  match afterWord? ['u', 't', 'c'] rest with
  | some rest => return (← fields.put? .offset 0, rest)
  | none =>
    let (seconds, rest) ← offset? true false colonOrBlank rest
    return (← fields.put? .offset seconds, rest)

def item? (item : Item) (fields : Fields) (chars : List Char) : Option (Fields × List Char) :=
  match item with
  | .internetTime => internetTime? fields chars
  | item => simpleItem? item fields chars

def fields? (items : List Item) (text : String) : Option Fields := do
  let (fields, rest) ←
    items.foldlM (fun (fields, chars) item => item? item fields chars) (([] : Fields), text.toList)
  if rest.isEmpty then some fields else none

end Reading

inductive Lack where
  | insufficient
  | impossible
deriving DecidableEq, Repr

structure Clock where
  second : Nat
  nanosecond : Nat
deriving DecidableEq, Repr

namespace Fields

def found {α : Type} (value : Option α) : Except Lack α :=
  match value with
  | some a => .ok a
  | none => .error .impossible

/-- A year from the full year, or from its century and the two digits after it. Two digits alone
stand for a year from 1970 to 2069. -/
def resolveYear (full hundreds rest : Option Int) : Except Lack (Option Int) :=
  match full, hundreds, rest with
  | full, none, none => .ok full
  | some year, hundreds, rest =>
    if 0 ≤ year && hundreds.all (· == year / 100) && rest.all (· == year % 100) then .ok (some year)
    else .error .impossible
  | none, some hundreds, some rest => .ok (some (100 * hundreds + rest))
  | none, none, some rest => .ok (some (rest + if rest < 70 then 2000 else 1900))
  | none, some _, none => .error .insufficient

def agrees (fields : Fields) (field : Field) (value : Int) : Bool :=
  (fields.get? field).all (· == value)

def agreesInParts (fields : Fields) (hundreds rest : Field) (year : Int) : Bool :=
  if 0 ≤ year then fields.agrees hundreds (year / 100) && fields.agrees rest (year % 100)
  else (fields.get? hundreds).isNone && (fields.get? rest).isNone

def agreesWithMonth (fields : Fields) (date : Date) : Bool :=
  fields.agrees .year date.year && fields.agreesInParts .century .yearOfCentury date.year &&
    fields.agrees .month date.month && fields.agrees .day date.day

def agreesWithIsoWeek (fields : Fields) (date : Date) : Bool :=
  fields.agrees .isoYear date.isoWeek.1 &&
    fields.agreesInParts .isoCentury .isoYearOfCentury date.isoWeek.1 &&
    fields.agrees .isoWeek date.isoWeek.2 && fields.agrees .weekday date.weekday

def agreesWithOrdinal (fields : Fields) (date : Date) : Bool :=
  fields.agrees .ordinal date.ordinal && fields.agrees .weekFromSunday (date.weekFrom 6) &&
    fields.agrees .weekFromMonday (date.weekFrom 0)

/-- The date, found from the first of these groups of fields that is complete: year, month and day;
year and day of the year; year, week and weekday; year, week and weekday of the week calendar. -/
def date (fields : Fields) : Except Lack Date := do
  let year? ← resolveYear (fields.get? .year) (fields.get? .century) (fields.get? .yearOfCentury)
  let isoYear? ← resolveYear (fields.get? .isoYear) (fields.get? .isoCentury)
    (fields.get? .isoYearOfCentury)
  let date ←
    match year?, fields.get? .month, fields.get? .day with
    | some year, some month, some day => found (Date.ofParts? year month day)
    | _, _, _ =>
    match year?, fields.get? .ordinal with
    | some year, some ordinal => found (Date.ofOrdinal? year ordinal)
    | _, _ =>
    match year?, fields.get? .weekFromSunday, fields.get? .weekday with
    | some year, some week, some weekday => found (Date.ofWeek? year week weekday 6)
    | _, _, _ =>
    match year?, fields.get? .weekFromMonday, fields.get? .weekday with
    | some year, some week, some weekday => found (Date.ofWeek? year week weekday 0)
    | _, _, _ =>
    match isoYear?, fields.get? .isoWeek, fields.get? .weekday with
    | some year, some week, some weekday => found (Date.ofIsoWeek? year week weekday)
    | _, _, _ => .error .insufficient
  if fields.agreesWithMonth date && fields.agreesWithIsoWeek date &&
      fields.agreesWithOrdinal date && fields.agrees .quarter ((date.month - 1) / 3 + 1 : Nat) then
    return date
  else .error .impossible

/-- The time of day. Seconds may be missing, but then there may be no fraction either. -/
def clock (fields : Fields) : Except Lack Clock :=
  match fields.get? .halfDay, fields.get? .hourOfHalf, fields.get? .minute with
  | some half, some hour, some minute =>
    let base := ((half * 12 + hour) * 60 + minute) * 60
    match fields.get? .second, fields.get? .nanosecond with
    | none, some _ => .error .insufficient
    | none, none => .ok ⟨base.toNat, 0⟩
    | some second, nanosecond =>
      let nanos := (nanosecond.getD 0).toNat
      if second = 60 then .ok ⟨(base + 59).toNat, nanos + 1000000000⟩
      else .ok ⟨(base + second).toNat, nanos⟩
  | _, _, _ => .error .insufficient

def secondsOf (date : Date) (clock : Clock) : Int :=
  date.dayNumber * 86400 + clock.second

/-- Fills in the fields that a count of seconds determines. Sixty seconds are kept where the
count belongs to the second before or after a leap second. -/
def fillFrom (fields : Fields) (seconds : Int) : Option Fields := do
  let seconds ←
    if fields.get? .second = some 60 then
      if seconds % 60 = 59 then some seconds
      else if seconds % 60 = 0 then some (seconds - 1)
      else none
    else some seconds
  let fields ←
    if fields.get? .second = some 60 then some fields else fields.put? .second (seconds % 60)
  let date ← Date.ofDayNumber? (seconds / 86400)
  let fields ← fields.put? .year date.year
  let fields ← fields.put? .ordinal date.ordinal
  let fields ← fields.putHour? (seconds % 86400 / 3600)
  fields.put? .minute (seconds % 3600 / 60)

/-- The date and the time, from their own fields or else from a count of seconds, for a place at
the given distance from universal time. -/
def dateAndClock (fields : Fields) (offset : Int) : Except Lack (Date × Clock) :=
  match fields.date, fields.clock, fields.get? .timestamp with
  | .ok date, .ok clock, none => .ok (date, clock)
  | .ok date, .ok clock, some given =>
    let seconds := secondsOf date clock - offset
    if given = seconds ∨ (1000000000 ≤ clock.nanosecond ∧ given = seconds + 1) then
      .ok (date, clock)
    else .error .impossible
  | .error .impossible, _, _ => .error .impossible
  | _, .error .impossible, _ => .error .impossible
  | _, _, none => .error .insufficient
  | _, _, some given => do
    let full ← found (fields.fillFrom (given + offset))
    return (← full.date, ← full.clock)

end Fields

def matchesPattern (pattern text : String) : Bool :=
  match Reading.fields? (Pattern.items pattern.toList) text with
  | none => false
  | some fields => fields.date.toOption.isSome || (fields.dateAndClock 0).toOption.isSome

/-- A date is valid when it is given, is not blank, and has the form of a given pattern. -/
def isValidDate (date pattern : Option String) : Bool :=
  match date, pattern with
  | some date, some pattern =>
    !isBlankText date && !isBlankText pattern && matchesPattern pattern date
  | _, _ => false

end ReleaseNotes.Time
