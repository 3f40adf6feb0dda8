import ReleaseNotes.Project.Origin
import ReleaseNotes.Text.Separated

/-!
The command line. Flags and options come in any order; everything behind two dashes is positional.
Asking for help or for the version is not a failure of its own kind, but ends the reading, too.
-/

namespace ReleaseNotes

open Text

inductive Command where
  | report (showActionDate : Bool)
  | announce
  | issues (tracker : Option Origin) (columns : Option String)
  | check
  | validate
  | query
  | init
deriving DecidableEq, Repr

structure CommandLine where
  verbosity : Nat
  command : Command
  directory : String
deriving DecidableEq, Repr

namespace CommandLine

inductive Refusal where
  | usage
  | information
deriving DecidableEq, Repr

inductive Argument where
  | word (text : String)
  /-- A word behind two dashes, which names nothing but a directory. -/
  | positional (text : String)
  | short (letter : Char)
  | long (name : String)
  /-- Letters behind a dash that are neither flags nor a word. Nothing takes them. -/
  | unclear
  /-- An argument that was understood already. -/
  | used
deriving DecidableEq, Repr

/-- The flags that can share an argument. Those of a single command cannot. -/
def sharingLetters : List Char := ['v']

def letters? (text : String) : Option (List Char) :=
  match text.toList with
  | '-' :: first :: second :: rest =>
    let letters := first :: second :: rest
    if first = '-' || letters.tail.contains '=' then none else some letters
  | _ => none

def isShared (text : String) : Bool :=
  (letters? text).any fun letters => letters.all sharingLetters.contains

def assigned (body : List Char) : List Argument :=
  match splitFirst? (· == '=') body with
  | some (name, value) => [.long (String.ofList name), .word (String.ofList value)]
  | none => [.long (String.ofList body)]

/-- What stands behind a letter, without an equality sign between them. -/
def besideLetter (body : List Char) : Argument :=
  .word (String.ofList (if body.head? = some '=' then body.tail else body))

/-- Takes one argument apart. Letters of which some are no flags are a word, and so is a value
behind a letter beyond ASCII. When flags have shared an argument before, letters are unclear. -/
def Argument.ofText (shared : Bool) (text : String) : List Argument :=
  match letters? text with
  | some letters =>
    if shared then [.unclear]
    else if isShared text then letters.map .short
    else [.word text]
  | none =>
    match text.toList with
    | '-' :: '-' :: body => assigned body
    | ['-', letter] => [.short letter]
    | '-' :: letter :: body =>
      if letter.toNat < 128 then [.short letter, besideLetter body] else [.word text]
    | _ => [.word text]

/-- Takes the arguments apart, up to two dashes that stand alone. Flags can share one argument of
a line only. -/
def argumentsFrom (shared : Bool) : List String → List Argument
  | [] => []
  | text :: rest =>
    if text = "--" then rest.map .positional
    else Argument.ofText shared text ++ argumentsFrom (shared || isShared text) rest

def arguments (texts : List String) : List Argument := argumentsFrom false texts

def isVerbose (argument : Argument) : Bool :=
  argument == .short 'v' || argument == .long "verbose"

def isShowActionDate (argument : Argument) : Bool :=
  argument == .short 'a' || argument == .long "show-action-date"

def asksForHelp (argument : Argument) : Bool :=
  argument == .short 'h' || argument == .long "help"

def asksForVersion (argument : Argument) : Bool :=
  argument == .short 'V' || argument == .long "version"

def useFirst (p : Argument → Bool) : List Argument → List Argument
  | [] => []
  | argument :: rest => if p argument then .used :: rest else argument :: useFirst p rest

def takeOption? (name : String) : List Argument → Option (Option String × List Argument)
  | [] => some (none, [])
  | argument :: rest =>
    if argument = .long name then
      match rest with
      | .word value :: rest => some (some value, .used :: .used :: rest)
      | _ => none
    else (takeOption? name rest).map fun (value, rest) => (value, argument :: rest)

def directory? (arguments : List Argument) : Option String :=
  match arguments.filter (· != .used) with
  | [] => some "."
  | [.word text] | [.positional text] => some text
  | _ => none

def tracker? : Option String → Option (Option Origin)
  | none => some none
  | some name => (Origin.ofName name).toOption.map some

def afterName? (name : String) (arguments : List Argument) : Option (Command × String) :=
  let plain (command : Command) := (directory? arguments).map fun text => (command, text)
  match name with
  | "report" =>
    (directory? (useFirst isShowActionDate arguments)).map fun text =>
      (.report (arguments.any isShowActionDate), text)
  | "issues" => do
    let (tracker, rest) ← takeOption? "tracker" arguments
    let (columns, rest) ← takeOption? "columns" rest
    return (.issues (← tracker? tracker) columns, ← directory? rest)
  | "announce" => plain .announce
  | "check" => plain .check
  | "validate" => plain .validate
  | "query" => plain .query
  | "init" => plain .init
  | _ => none

def names : List String :=
  ["report", "announce", "issues", "check", "validate", "query", "init"]

/-- Reads a command line without the name of the program. The name of the command is the first
argument that is not a verbose flag; those flags can stand anywhere. -/
def parse (texts : List String) : Except Refusal CommandLine :=
  let all := arguments texts
  let marked := all.map fun argument => if isVerbose argument then .used else argument
  let given := marked.dropWhile (· == .used)
  match given with
  | .word name :: rest =>
    if names.contains name then
      match afterName? name rest with
      | some (command, directory) => .ok ⟨all.countP isVerbose, command, directory⟩
      | none => .error (if rest.any asksForHelp then .information else .usage)
    else outside given
  | _ => outside given
where
  outside (given : List Argument) : Except Refusal CommandLine :=
    .error <|
      if given.any fun argument => asksForHelp argument || asksForVersion argument then .information
      else .usage

end CommandLine

end ReleaseNotes
