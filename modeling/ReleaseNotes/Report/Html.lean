/-!
HTML as a sequence of pieces: markup, which is written as it is, and text, in which the characters
that could be taken for markup are written as references.
-/

namespace ReleaseNotes

namespace Html

def reference (c : Char) : List Char :=
  if c = '<' then "&lt;".toList
  else if c = '>' then "&gt;".toList
  else if c = '&' then "&amp;".toList
  else if c = '"' then "&quot;".toList
  else if c = '\'' then "&#x27;".toList
  else [c]

inductive Piece where
  | markup (source : String)
  | text (content : String)
deriving DecidableEq, Repr

def Piece.chars : Piece → List Char
  | .markup source => source.toList
  | .text content => content.toList.flatMap reference

end Html

abbrev Html := List Html.Piece

namespace Html

def markup (source : String) : Html := [.markup source]

def escaped (content : String) : Html := [.text content]

def number (n : Nat) : Html := [.text (toString n)]

def render (html : Html) : String :=
  String.ofList (html.flatMap Piece.chars)

def onlyIf (condition : Bool) (html : Html) : Html :=
  if condition then html else []

def linked (address : Option String) (content : String) : Html :=
  match address with
  | some address =>
    markup "<a href=\"" ++ escaped address ++ markup "\">" ++ escaped content ++ markup "</a>"
  | none => escaped content

def mailLinked (address : Option String) (name : String) : Html :=
  match address with
  | some address =>
    markup "<a href=\"mailto:" ++ escaped address ++ markup "\">" ++ escaped name ++ markup "</a>"
  | none => escaped name

def styleRule (selector declarations : String) : Html :=
  markup (selector ++ " \x7b " ++ declarations ++ " \x7d\n")

def head (title : String) (styles : List (String × String)) : Html :=
  markup "<!DOCTYPE html>\n<html lang=\"en\">\n<head>\n<meta charset=\"utf-8\">\n<title>" ++
    escaped title ++ markup "</title>\n<style>\n" ++
    styles.flatMap (fun rule => styleRule rule.1 rule.2) ++
    markup "</style>\n</head>\n<body>\n<h1>" ++ escaped title ++ markup "</h1>\n"

def foot (generatedOn : String) : Html :=
  markup "\n<footer>Generated on " ++ escaped generatedOn ++ markup ".</footer>\n</body>\n</html>"

end Html

end ReleaseNotes
