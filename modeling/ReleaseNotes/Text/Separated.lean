import ReleaseNotes.Text.Blank

/-!
Texts made of parts with a separator between them. A comma list is read by splitting at every
comma, trimming the parts and dropping the empty ones.
-/

namespace ReleaseNotes.Text

def splitAt (separator : Char) (text : String) : List String :=
  (text.toList.splitOn separator).map String.ofList

def joinWith (separator : String) (parts : List String) : String :=
  separator.intercalate parts

def trimmedItems (items : List String) : List String :=
  (items.map trim).filter fun item => item != ""

/-- The items of a comma-separated text, trimmed, without the empty ones. -/
def commaList (text : String) : List String :=
  trimmedItems (splitAt ',' text)

def commaItems (text : Option String) : List String :=
  text.elim [] commaList

def splitLast? (separator : Char → Bool) (chars : List Char) : Option (List Char × List Char) :=
  match chars with
  | [] => none
  | c :: rest =>
    match splitLast? separator rest with
    | some (before, after) => some (c :: before, after)
    | none => if separator c then some ([], rest) else none

def splitFirst? (separator : Char → Bool) : List Char → Option (List Char × List Char)
  | [] => none
  | c :: rest =>
    if separator c then some ([], rest)
    else (splitFirst? separator rest).map fun (before, after) => (c :: before, after)

/-- What follows a given beginning of a text, if the text begins so. -/
def afterStart? : List Char → List Char → Option (List Char)
  | [], chars => some chars
  | _ :: _, [] => none
  | c :: start, d :: rest => if c = d then afterStart? start rest else none

/-- The text with the first occurrence of a token replaced. A text without the token stays. -/
def replaceFirst (token replacement : List Char) : List Char → List Char
  | [] => if token = [] then replacement else []
  | c :: rest =>
    match afterStart? token (c :: rest) with
    | some tail => replacement ++ tail
    | none => c :: replaceFirst token replacement rest

/-- A token occurs in a text when the text from some position on begins with it. -/
def occursIn (token : List Char) : List Char → Bool
  | [] => token.isEmpty
  | c :: rest => (afterStart? token (c :: rest)).isSome || occursIn token rest

theorem afterStart?_eq_some_iff {start chars tail : List Char} :
    afterStart? start chars = some tail ↔ chars = start ++ tail := by
  induction start generalizing chars with
  | nil => simp [afterStart?]
  | cons c start ih =>
    cases chars with
    | nil => simp [afterStart?]
    | cons d rest =>
      by_cases h : c = d
      · simp [afterStart?, h, ih]
      · simp [afterStart?, h, Ne.symm h]

end ReleaseNotes.Text
