/-!
The encoding of bytes with sixty-four characters: three bytes in four characters, with padding at
the end.
-/

namespace ReleaseNotes.Text

def base64Char (n : Nat) : Char :=
  if n < 26 then Char.ofNat ('A'.toNat + n)
  else if n < 52 then Char.ofNat ('a'.toNat + (n - 26))
  else if n < 62 then Char.ofNat ('0'.toNat + (n - 52))
  else if n = 62 then '+'
  else '/'

def base64Bytes : List UInt8 → List Char
  | [] => []
  | [x] =>
    let n := x.toNat * 65536
    [base64Char (n / 262144), base64Char (n / 4096 % 64), '=', '=']
  | [x, y] =>
    let n := x.toNat * 65536 + y.toNat * 256
    [base64Char (n / 262144), base64Char (n / 4096 % 64), base64Char (n / 64 % 64), '=']
  | x :: y :: z :: rest =>
    let n := x.toNat * 65536 + y.toNat * 256 + z.toNat
    base64Char (n / 262144) :: base64Char (n / 4096 % 64) :: base64Char (n / 64 % 64) ::
      base64Char (n % 64) :: base64Bytes rest

def base64 (text : String) : String :=
  String.ofList (base64Bytes text.toUTF8.toList)

example : base64 "Ma" = "TWE=" := by decide +kernel

end ReleaseNotes.Text
