import ReleaseNotes.Failure
import ReleaseNotes.Text.Separated
import ReleaseNotes.Text.Lowercase

/-!
How the issue types of a tracker translate to the categories of changes. The user can assign types
to other categories; an assignment that contradicts itself changes nothing.
-/

namespace ReleaseNotes

open Text

inductive Category where
  | add
  | fix
  | update
deriving DecidableEq, Repr

namespace Category

def name : Category → String
  | .add => "add"
  | .fix => "fix"
  | .update => "update"

def ofName? (name : String) : Option Category :=
  [add, fix, update].find? (·.name == name)

theorem ofName?_name (category : Category) : ofName? category.name = some category := by
  cases category <;> rfl

end Category

/-- A tracker and the categories of its issue types. The entry that was added last stands first
and decides. -/
structure TypeMapping where
  tracker : String
  entries : List (String × Category)
deriving DecidableEq, Repr

namespace TypeMapping

def empty (tracker : String) : TypeMapping := ⟨tracker, []⟩

def jira : TypeMapping where
  tracker := "JIRA"
  entries :=
    [("Bug", .fix), ("Dependency upgrade", .update), ("Improvement", .update),
      ("New Feature", .add), ("Task", .update), ("Wish", .update)]

/-- Here the type of an issue is its label. -/
def gitHub : TypeMapping where
  tracker := "GitHub"
  entries := [("bug", .fix), ("enhancement", .add)]

def trac : TypeMapping where
  tracker := "Trac"
  entries := [("defect", .fix), ("enhancement", .add), ("task", .update)]

def ofTracker (name : String) : TypeMapping :=
  let lower := lowercase name
  if lower = "jira" then jira
  else if lower = "github" then gitHub
  else if lower = "trac" then trac
  else empty name

def insert (mapping : TypeMapping) (issueType : String) (category : Category) : TypeMapping :=
  { mapping with entries := (issueType, category) :: mapping.entries }

def lookup (mapping : TypeMapping) (issueType : String) : Option Category :=
  mapping.entries.lookup issueType

def categoryName (mapping : TypeMapping) (issueType : Option String) : String :=
  ((issueType.bind mapping.lookup).map Category.name).getD ""

abbrev Groups := List (String × String)

def inOrder (groups : Groups) : Groups :=
  groups.mergeSort fun left right =>
    decide (left.1 < right.1 ∨ left.1 = right.1 ∧ left.2 ≤ right.2)

/-- Assigns one more type. A type cannot be in two groups. -/
def assign (tracker : String) (category : Category) (assigned : List (String × Category))
    (issueType : String) : Except Cause (List (String × Category)) :=
  match assigned.lookup issueType with
  | none => .ok (assigned ++ [(issueType, category)])
  | some former =>
    if former = category then .ok assigned
    else .error (.issueTypeInTwoGroups tracker issueType former.name category.name)

def assignGroup (tracker : String) (assigned : List (String × Category))
    (group : String × String) : Except Cause (List (String × Category)) :=
  match Category.ofName? group.1 with
  | none => .error (.unknownIssueGroup tracker group.1)
  | some category => (commaList group.2).foldlM (assign tracker category) assigned

def assignments (tracker : String) (groups : Groups) : Except Cause (List (String × Category)) :=
  (inOrder groups).foldlM (assignGroup tracker) []

/-- The mapping after groups of types were configured, and what was wrong with the groups. The
groups are checked before the first type changes. -/
def configure (mapping : TypeMapping) (groups : Groups) : TypeMapping × Except Cause Unit :=
  match assignments mapping.tracker groups with
  | .error cause => (mapping, .error cause)
  | .ok assigned =>
    (assigned.foldl (fun mapping entry => mapping.insert entry.1 entry.2) mapping, .ok ())

@[simp] theorem lookup_insert (mapping : TypeMapping) (issueType other : String)
    (category : Category) :
    (mapping.insert issueType category).lookup other =
      if other = issueType then some category else mapping.lookup other := by
  by_cases h : other = issueType
  · simp [lookup, insert, h]
  · simp [lookup, insert, List.lookup_cons, h, beq_false_of_ne h]

end TypeMapping

end ReleaseNotes
