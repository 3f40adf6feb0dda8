import ReleaseNotes.Project.Metadata
import ReleaseNotes.Query.Jql
import ReleaseNotes.Query.Parameters

/-!
The query that a project configures, as settings that both forms of queries understand. Values are
taken as they are configured.
-/

namespace ReleaseNotes.Query

def configured (jira : JiraSettings) (project : String) (fixFor : Option String) : List Setting :=
  [.project project] ++
    fixFor.toList.map .fixVersion ++
    jira.fixVersions.toList.map (.values .fixVersion) ++
    jira.statuses.toList.map (.values .status) ++
    jira.priorities.toList.map (.values .priority) ++
    jira.resolutions.toList.map (.values .resolution) ++
    jira.components.toList.map (.values .component) ++
    jira.types.toList.map (.values .issueType) ++
    jira.sortColumns.toList.map .sort ++
    jira.filter.toList.map .filter

def configuredJql (urlEncoded : Bool) (settings : List Setting) : Journaled String := do
  Journaled.logAll (settings.flatMap Jql.Query.complaints)
  return ((Jql.Query.empty.set (.urlEncode urlEncoded)).setAll settings).text

def configuredParameters (settings : List Setting) : Journaled String := do
  Journaled.logAll (settings.flatMap Parameters.complaints)
  return (Parameters.Query.empty.setAll settings).text

end ReleaseNotes.Query
