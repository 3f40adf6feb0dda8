import ReleaseNotes.Journal
import ReleaseNotes.Text.Base64

/-!
Servers as they appear to the program: a reply for each request. Only finitely many requests get a
reply of their own; a server finds nothing at other addresses.
-/

namespace ReleaseNotes.Http

inductive Reply where
  | answered (answer : Answer)
  /-- The connection broke after the request. -/
  | broken
  /-- There was no connection for the request. -/
  | unreachable
deriving DecidableEq, Repr

structure Server where
  /-- Replies by method and address. The first one counts. -/
  replies : List ((Method × String) × Reply)
  isReachable : Bool

namespace Server

def offline : Server := ⟨[], false⟩

def notFound : Answer := ⟨404, ""⟩

def replyTo (server : Server) (request : Request) : Reply :=
  if server.isReachable then
    (server.replies.lookup (request.method, request.url)).getD (.answered notFound)
  else .unreachable

/-- The answer to a request. Without one, the failure says what the request was for. -/
def send (server : Server) (context : Context) (request : Request) : Journaled Answer :=
  match server.replyTo request with
  | .answered answer => ⟨[.requested request], .ok answer⟩
  | .broken => ⟨[.requested request], .error ⟨[context], .transport⟩⟩
  | .unreachable => ⟨[], .error ⟨[context], .transport⟩⟩

end Server

inductive Credentials where
  | basic (user password : String)
  | bearer (key : String)
  | anonymous
deriving DecidableEq, Repr

def Credentials.header : Credentials → Option String
  | .basic user password => some ("Basic " ++ Text.base64 (user ++ ":" ++ password))
  | .bearer key => some ("Bearer " ++ key)
  | .anonymous => none

end ReleaseNotes.Http
