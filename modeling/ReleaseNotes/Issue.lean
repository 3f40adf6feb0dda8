import ReleaseNotes.Time.Timestamp

/-!
Issues, in one form for every tracker that they are downloaded from.
-/

namespace ReleaseNotes

structure Issue where
  id : String
  key : String
  link : Option String
  summary : String
  /-- The type of the issue in the words of its tracker. -/
  kind : Option String
  status : Option String
  resolution : Option String
  priority : Option String
  assignee : Option String
  reporter : Option String
  /-- The affected versions, as one text. -/
  version : Option String
  created : Option Time.Timestamp
  updated : Option Time.Timestamp
  fixVersions : List String
  components : List String
deriving DecidableEq, Repr

def Issue.ofKey (key summary : String) : Issue where
  id := key
  key := key
  link := none
  summary := summary
  kind := none
  status := none
  resolution := none
  priority := none
  assignee := none
  reporter := none
  version := none
  created := none
  updated := none
  fixVersions := []
  components := []

end ReleaseNotes
