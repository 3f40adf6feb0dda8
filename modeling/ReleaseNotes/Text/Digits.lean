/-!
Digits and the numbers that they denote, in any base up to sixteen.
-/

namespace ReleaseNotes.Text

def digitValue (c : Char) : Nat := c.toNat - '0'.toNat

def valueInBase (base : Nat) (values : List Nat) : Nat :=
  values.foldl (fun n value => base * n + value) 0

def valueOfDigits (digits : List Char) : Nat :=
  valueInBase 10 (digits.map digitValue)

def isDigits (chars : List Char) : Bool :=
  !chars.isEmpty && chars.all Char.isDigit

/-- A sign or none, then digits, of which there may be leading zeros, for a number of thirty-two
bits. -/
def isInt32 (text : String) : Bool :=
  match text.toList with
  | '-' :: digits => isDigits digits && valueOfDigits digits ≤ 2147483648
  | '+' :: digits => isDigits digits && valueOfDigits digits < 2147483648
  | digits => isDigits digits && valueOfDigits digits < 2147483648

def hexDigit? (c : Char) : Option Nat :=
  if c.isDigit then some (digitValue c)
  else if 'a' ≤ c && c ≤ 'f' then some (c.toNat - 'a'.toNat + 10)
  else if 'A' ≤ c && c ≤ 'F' then some (c.toNat - 'A'.toNat + 10)
  else none

def hexValue? (digits : List Char) : Option Nat :=
  (digits.mapM hexDigit?).map (valueInBase 16)

end ReleaseNotes.Text
