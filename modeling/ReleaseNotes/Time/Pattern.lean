import ReleaseNotes.Text.Blank

/-!
Patterns for dates and times. A pattern is a text in which a percent sign and a letter stand for a
field; blank characters and all other text stand for themselves. Specifiers that abbreviate a
sequence of others are written out here.
-/

namespace ReleaseNotes.Time

/-- What a date or a time is made of. Hours are kept as a half of the day and an hour in it. -/
inductive Field where
  | year | century | yearOfCentury
  | isoYear | isoCentury | isoYearOfCentury
  | quarter | month | day | ordinal
  | weekFromSunday | weekFromMonday | isoWeek | weekday
  | halfDay | hourOfHalf | minute | second | nanosecond
  | timestamp | offset
deriving DecidableEq, Repr

inductive Number where
  | plain (field : Field)
  | hour
  | hourOfTwelve
  | weekdayFromSunday
  | weekdayFromMonday
deriving DecidableEq, Repr

inductive OffsetStyle where
  | colonOptional
  | permissive
deriving DecidableEq, Repr

inductive Item where
  | literal (text : List Char)
  | space
  | number (number : Number)
  | monthName (long : Bool)
  | weekdayName (long : Bool)
  | halfOfDay
  | fraction (digits : Option Nat) (withPoint : Bool)
  | zoneName
  | offset (style : OffsetStyle)
  | internetTime
  | invalid
deriving DecidableEq, Repr

namespace Pattern

def num (field : Field) : Item := .number (.plain field)

def dateItems : List Item :=
  [num .month, .literal ['/'], num .day, .literal ['/'], num .yearOfCentury]

def isoDateItems : List Item :=
  [num .year, .literal ['-'], num .month, .literal ['-'], num .day]

def timeItems : List Item :=
  [.number .hour, .literal [':'], num .minute, .literal [':'], num .second]

def specifier : Char → List Item
  | 'A' => [.weekdayName true]
  | 'B' => [.monthName true]
  | 'C' => [num .century]
  | 'D' | 'x' => dateItems
  | 'F' => isoDateItems
  | 'G' => [num .isoYear]
  | 'H' | 'k' => [.number .hour]
  | 'I' | 'l' => [.number .hourOfTwelve]
  | 'M' => [num .minute]
  | 'P' | 'p' => [.halfOfDay]
  | 'R' => [.number .hour, .literal [':'], num .minute]
  | 'S' => [num .second]
  | 'T' | 'X' => timeItems
  | 'U' => [num .weekFromSunday]
  | 'V' => [num .isoWeek]
  | 'W' => [num .weekFromMonday]
  | 'Y' => [num .year]
  | 'Z' => [.zoneName]
  | 'a' => [.weekdayName false]
  | 'b' | 'h' => [.monthName false]
  | 'c' => [.weekdayName false, .space, .monthName false, .space, num .day, .space] ++ timeItems ++
      [.space, num .year]
  | 'd' | 'e' => [num .day]
  | 'f' => [num .nanosecond]
  | 'g' => [num .isoYearOfCentury]
  | 'j' => [num .ordinal]
  | 'm' => [num .month]
  | 'n' | 't' => [.space]
  | 'q' => [num .quarter]
  | 'r' => [.number .hourOfTwelve, .literal [':'], num .minute, .literal [':'], num .second, .space,
      .halfOfDay]
  | 's' => [num .timestamp]
  | 'u' => [.number .weekdayFromMonday]
  | 'v' => [num .day, .literal ['-'], .monthName false, .literal ['-'], num .year]
  | 'w' => [.number .weekdayFromSunday]
  | 'y' => [num .yearOfCentury]
  | 'z' => [.offset .colonOptional]
  | '+' => [.internetTime]
  | '%' => [.literal ['%']]
  | _ => [.invalid]

/-- A specifier after a padding sign. Padding belongs to single numbers only and does not matter
for reading. -/
def padded (c : Char) : List Item :=
  match specifier c with
  | [.number n] => [.number n]
  | _ => [.invalid]

def fractionDigits? : Char → Option Nat
  | '3' => some 3
  | '6' => some 6
  | '9' => some 9
  | _ => none

def consLiteral (c : Char) : List Item → List Item
  | .literal text :: items => .literal (c :: text) :: items
  | items => .literal [c] :: items

def consSpace : List Item → List Item
  | .space :: items => .space :: items
  | items => .space :: items

/-- The items of a pattern. A percent sign with nothing after it, or before a character that is no
specifier, gives an item that nothing matches. -/
def items : List Char → List Item
  | [] => []
  | '%' :: '-' :: c :: rest => padded c ++ items rest
  | '%' :: '0' :: c :: rest => padded c ++ items rest
  | '%' :: '_' :: c :: rest => padded c ++ items rest
  | '%' :: '#' :: 'z' :: rest => .offset .permissive :: items rest
  | '%' :: ':' :: ':' :: ':' :: 'z' :: rest => .offset .colonOptional :: items rest
  | '%' :: ':' :: ':' :: 'z' :: rest => .offset .colonOptional :: items rest
  | '%' :: ':' :: 'z' :: rest => .offset .colonOptional :: items rest
  | '%' :: '.' :: 'f' :: rest => .fraction none true :: items rest
  | '%' :: '.' :: d :: 'f' :: rest =>
    (match fractionDigits? d with
      | some n => .fraction (some n) true
      | none => .invalid) :: items rest
  | '%' :: '3' :: 'f' :: rest => .fraction (some 3) false :: items rest
  | '%' :: '6' :: 'f' :: rest => .fraction (some 6) false :: items rest
  | '%' :: '9' :: 'f' :: rest => .fraction (some 9) false :: items rest
  | '%' :: c :: rest => specifier c ++ items rest
  | ['%'] => [.invalid]
  | c :: rest =>
    if Text.isBlank c then consSpace (items rest) else consLiteral c (items rest)

end Pattern

end ReleaseNotes.Time
