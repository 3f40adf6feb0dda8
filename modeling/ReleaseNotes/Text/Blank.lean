/-!
Blank characters and trimming. A character is blank when it has the Unicode property White_Space;
trimming removes blank characters from both ends of a text and nothing else.
-/

namespace ReleaseNotes.Text

/-- The twenty-five characters with the Unicode property White_Space. -/
def isBlank (c : Char) : Bool :=
  let n := c.toNat
  (9 ≤ n && n ≤ 13) || n == 32 || n == 0x85 || n == 0xA0 || n == 0x1680 ||
    (0x2000 ≤ n && n ≤ 0x200A) || n == 0x2028 || n == 0x2029 || n == 0x202F || n == 0x205F ||
    n == 0x3000

def dropBlank (chars : List Char) : List Char :=
  chars.dropWhile isBlank

def dropTrailing (p : Char → Bool) : List Char → List Char
  | [] => []
  | c :: rest =>
    match dropTrailing p rest with
    | [] => if p c then [] else [c]
    | kept => c :: kept

def trimChars (chars : List Char) : List Char :=
  dropTrailing isBlank (dropBlank chars)

def trim (text : String) : String :=
  String.ofList (trimChars text.toList)

/-- A text is blank when it holds no character that is not blank. -/
def isBlankText (text : String) : Bool :=
  text.toList.all isBlank

def nonBlank? (text : Option String) : Option String :=
  text.filter fun t => !isBlankText t

theorem dropTrailing_append_of_all {p : Char → Bool} (chars : List Char) {tail : List Char}
    (h : ∀ c ∈ tail, p c = true) : dropTrailing p (chars ++ tail) = dropTrailing p chars := by
  induction chars with
  | nil =>
    induction tail with
    | nil => rfl
    | cons c rest ih =>
      have ihRest : dropTrailing p rest = [] := by
        simpa [dropTrailing] using ih fun d hd => h d (by simp [hd])
      simp [dropTrailing, ihRest, h c (by simp)]
  | cons c rest ih => simp [dropTrailing, ih]

end ReleaseNotes.Text
