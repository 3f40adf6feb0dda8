/-!
Percent-encoding for URLs: letters, digits and four marks stay, and every other byte of the UTF-8
form is written as a percent sign with two hexadecimal digits.
-/

namespace ReleaseNotes.Text

def isUnreserved (byte : UInt8) : Bool :=
  let c := Char.ofNat byte.toNat
  c.isAlphanum || c == '-' || c == '.' || c == '_' || c == '~'

def hexDigit (n : Nat) : Char :=
  if n < 10 then Char.ofNat ('0'.toNat + n) else Char.ofNat ('A'.toNat + (n - 10))

def percentByte (byte : UInt8) : List Char :=
  if isUnreserved byte then [Char.ofNat byte.toNat]
  else ['%', hexDigit (byte.toNat / 16), hexDigit (byte.toNat % 16)]

def percentEncode (text : String) : String :=
  String.ofList (text.toUTF8.toList.flatMap percentByte)

end ReleaseNotes.Text
