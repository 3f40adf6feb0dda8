import ReleaseNotes.Files.Embedded
import ReleaseNotes.Text.Separated

/-!
The files of an example project, which a new project begins with.
-/

namespace ReleaseNotes.Example

open Text

def ofLines (lines : List String) : String :=
  String.join (lines.map (· ++ "\n"))

def changesLines : List String :=
  [
    "title: Changes in Example",
    "author: Jane Doe",
    "author_email: jane@example.org",
    "releases:",
    "  - version: '1.1'",
    "    description: The upcoming release.",
    "    actions:",
    "      - type: add",
    "        text: Support milestones.",
    "        issue: EX-12",
    "        dev: jdoe",
    "        due_to: John Roe",
    "  - version: '1.0'",
    "    date: '2022-06-01'",
    "    description: The first release.",
    "    actions:",
    "      - type: fix",
    "        text: Fix the date format.",
    "        issue: EX-3",
    "        dev: jdoe" ]

def projectLines : List String :=
  [
    "# The metadata of the project that the changes report and the announcement describe.",
    "name: Example",
    "version: '1.1-SNAPSHOT'",
    "url: https://example.org/",
    "url_download: https://example.org/download.html",
    "# group_id: org.example",
    "# artifact_id: example",
    "# packaging: jar",
    "",
    "# The sources of releases. They're merged in this order.",
    "systems:",
    "  - changes-file",
    "  # - jira",
    "  # - github",
    "",
    "# issue_management:",
    "#   system: JIRA",
    "#   url: https://issues.example.org/browse/EX",
    "",
    "# Map additional tracker issue types to the add, fix, and update categories.",
    "# issue_types:",
    "#   add: New Feature, Story",
    "#   fix: Bug, Defect",
    "",
    "# version_prefix: example-",
    "only_current_version: false",
    "date_format: '%Y-%m-%d'",
    "",
    "# team: https://example.org/team.html",
    "# issue_link_templates:",
    "#   JIRA: '%URL%/%ISSUE%'",
    "",
    "# modules:",
    "#   - name: core",
    "#     path: core" ]

def trackersLines : List String :=
  [
    "# Access and query settings of the issue trackers.",
    "# The API keys can also come from the JIRA_API_KEY and GITHUB_TOKEN environment variables.",
    "jira:",
    "  # api_key: secret",
    "  status_ids: Closed",
    "  resolution_ids: Fixed",
    "  sort_column_names: Priority DESC, Created DESC",
    "  max_entries: 100",
    "  use_jql: true",
    "  # Columns of the issues report.",
    "  columns: Key, Summary, Status, Resolution, Assignee, Fix Version",
    "github:",
    "  include_open_issues: false",
    "  only_milestone_issues: true",
    "  columns: Id, Type, Summary, Status, Updated" ]

def entries : List Embedded :=
  [ .directory "harvest"
      [ .file "harvest/changes.yaml" (ofLines changesLines),
        .file "harvest/project.yaml" (ofLines projectLines),
        .file "harvest/trackers.yaml" (ofLines trackersLines) ] ]

def files : List (String × String) :=
  Embedded.filesOfAll entries

end ReleaseNotes.Example
