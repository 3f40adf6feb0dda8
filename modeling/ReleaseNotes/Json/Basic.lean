/-!
JSON values as they are written: fields keep their order and their repetitions, numbers keep their
digits, and a string whose escapes name no characters is kept apart from every text.
-/

namespace ReleaseNotes

namespace Json

/-- A decimal number: its sign, its digits without a point, and the power of ten to scale by. -/
structure Numeral where
  negative : Bool
  digits : Nat
  scale : Int
  /-- Written without a point and without an exponent. -/
  isWhole : Bool
deriving DecidableEq, Repr

def Numeral.ofNat (n : Nat) : Numeral := ⟨false, n, 0, true⟩

/-- The natural number below two to the power of 64 that a numeral denotes. Minus zero is none. -/
def Numeral.toWord? (n : Numeral) : Option Nat :=
  if n.isWhole && !n.negative && n.digits < UInt64.size then some n.digits else none

/-- Every number from here on rounds to infinity as a binary number of 64 bits. -/
def infinityFrom : Nat := Nat.pow 2 1024 - Nat.pow 2 970

def Numeral.isFinite (n : Numeral) : Bool :=
  let size := (toString n.digits).length + n.scale
  if n.digits = 0 || size ≤ 300 then true
  else if 320 ≤ size then false
  else if 0 ≤ n.scale then n.digits * Nat.pow 10 n.scale.toNat < infinityFrom
  else n.digits < infinityFrom * Nat.pow 10 n.scale.natAbs

end Json

inductive Json where
  | null
  | bool (value : Bool)
  | number (value : Json.Numeral)
  | string (text : Option String)
  | array (items : List Json)
  | object (fields : List (Option String × Json))

namespace Json

def ofText (text : String) : Json := .string (some text)

mutual

def depth : Json → Nat
  | .array items => depthOfItems items + 1
  | .object fields => depthOfFields fields + 1
  | _ => 0

def depthOfItems : List Json → Nat
  | [] => 0
  | item :: items => max item.depth (depthOfItems items)

def depthOfFields : List (Option String × Json) → Nat
  | [] => 0
  | (_, value) :: fields => max value.depth (depthOfFields fields)

end

mutual

def isSound : Json → Bool
  | .number n => n.isFinite
  | .string text => text.isSome
  | .array items => areSound items
  | .object fields => fieldsAreSound fields
  | _ => true

def areSound : List Json → Bool
  | [] => true
  | item :: items => item.isSound && areSound items

def fieldsAreSound : List (Option String × Json) → Bool
  | [] => true
  | (name, value) :: fields => name.isSome && value.isSound && fieldsAreSound fields

end

mutual

/-- Of the fields with one name only the last is kept, at every level. -/
def lastFields : Json → Json
  | .array items => .array (lastFieldsOfItems items)
  | .object fields => .object (lastFieldsOfFields fields)
  | value => value

def lastFieldsOfItems : List Json → List Json
  | [] => []
  | item :: items => item.lastFields :: lastFieldsOfItems items

def lastFieldsOfFields : List (Option String × Json) → List (Option String × Json)
  | [] => []
  | (name, value) :: fields =>
    let later := lastFieldsOfFields fields
    if later.any (·.1 == name) then later else (name, value.lastFields) :: later

end

def depthLimit : Nat := 127

def full? (value : Json) (outer : Nat) : Option Json :=
  if value.isSound && value.depth + outer ≤ depthLimit then some value.lastFields else none

end Json

end ReleaseNotes
