import ReleaseNotes.Time.Reading

/-!
Points in time, kept in universal time. They are read from the internet format and from the format
with four-digit offsets that some trackers use, and written with as many digits of the second as
they need, in groups of three.
-/

namespace ReleaseNotes.Time

/-- A point in time. A leap second is the second before it with a billion nanoseconds and more. -/
structure Timestamp where
  seconds : Int
  nanosecond : Nat
deriving DecidableEq, Repr

namespace Timestamp

def ofFields? (fields : Fields) : Option Timestamp := do
  let offset ← (fields.get? .offset).or ((fields.get? .timestamp).map fun _ => 0)
  let (date, clock) ← (fields.dateAndClock offset).toOption
  if offset ≤ -86400 || 86400 ≤ offset then none
  let seconds := Fields.secondsOf date clock - offset
  let _ ← Date.ofDayNumber? (seconds / 86400)
  return ⟨seconds, clock.nanosecond⟩

def compactOffsetItems : List Item :=
  Pattern.isoDateItems ++ [.literal ['T']] ++ Pattern.timeItems ++
    [.fraction none true, .offset .colonOptional]

def ofCompactOffset? (text : String) : Option Timestamp :=
  (Reading.fields? compactOffsetItems text).bind ofFields?

def fixedNumber? (count : Nat) (number : Number) (fields : Fields) (chars : List Char) :
    Option (Fields × List Char) := do
  let (value, rest) ← Reading.digits? count chars
  if chars.length - rest.length = count then return (← fields.putNumber? number value, rest)
  else none

def char? (c : Char) : List Char → Option (List Char)
  | [] => none
  | d :: rest => if c = d then some rest else none

def internetFields? (text : String) : Option Fields := do
  let (fields, rest) ← fixedNumber? 4 (.plain .year) [] text.toList
  let (fields, rest) ← fixedNumber? 2 (.plain .month) fields (← char? '-' rest)
  let (fields, rest) ← fixedNumber? 2 (.plain .day) fields (← char? '-' rest)
  let rest ← match rest with
    | 'T' :: rest | 't' :: rest | ' ' :: rest => some rest
    | _ => none
  let (fields, rest) ← fixedNumber? 2 .hour fields rest
  let (fields, rest) ← fixedNumber? 2 (.plain .minute) fields (← char? ':' rest)
  let (fields, rest) ← fixedNumber? 2 (.plain .second) fields (← char? ':' rest)
  let (fields, rest) ← Reading.simpleItem? (.fraction none true) fields rest
  let (seconds, rest) ← Reading.offset? true false Reading.oneColon rest
  let fields ← fields.put? .offset seconds
  if rest.isEmpty then some fields else none

def ofInternet? (text : String) : Option Timestamp :=
  (internetFields? text).bind ofFields?

def padded (width n : Nat) : String :=
  let digits := toString n
  String.ofList (List.replicate (width - digits.length) '0') ++ digits

def yearText (year : Int) : String :=
  if 0 ≤ year ∧ year ≤ 9999 then padded 4 year.toNat
  else (if year < 0 then "-" else "+") ++ padded 4 year.natAbs

def dateText (date : Date) : String :=
  yearText date.year ++ "-" ++ padded 2 date.month ++ "-" ++ padded 2 date.day

def date (time : Timestamp) : Date :=
  (Date.ofDayNumber? (time.seconds / 86400)).getD ⟨1970, 1, 1⟩

def secondOfDay (time : Timestamp) : Nat :=
  (time.seconds % 86400).toNat

def minuteText (time : Timestamp) : String :=
  dateText time.date ++ " " ++ padded 2 (time.secondOfDay / 3600) ++ ":" ++
    padded 2 (time.secondOfDay % 3600 / 60)

def shortName (names : List String) (place : Nat) : String :=
  (String.ofList (((names[place]?).getD "").toList.take 3)).capitalize

def toMessageDate (time : Timestamp) : String :=
  let date := time.date
  shortName Reading.weekdayNames date.weekday.toNat ++ ", " ++ toString date.day ++ " " ++
    shortName Reading.monthNames (date.month - 1) ++ " " ++ padded 4 date.year.toNat ++ " " ++
    padded 2 (time.secondOfDay / 3600) ++ ":" ++ padded 2 (time.secondOfDay % 3600 / 60) ++ ":" ++
    padded 2 (time.secondOfDay % 60) ++ " +0000"

end Timestamp

end ReleaseNotes.Time
