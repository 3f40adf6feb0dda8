import ReleaseNotes.Project.Metadata
import ReleaseNotes.Yaml.Decode

/-!
Reading the description of a project and the settings of its trackers.
-/

namespace ReleaseNotes

open Yaml Decoder

namespace Metadata

def fieldNames : List String :=
  [ "name", "version", "group_id", "artifact_id", "packaging", "url", "url_download", "final_name",
    "development_team", "introduction", "issue_management", "systems", "issue_types",
    "version_prefix", "only_current_version", "team", "issue_link_templates", "modules",
    "date_format" ]

def issueManagement? (fields : Fields) : Option IssueManagement := do
  return ⟨← fields.optional? "system" text, ← fields.optional? "url" text⟩

def module? (fields : Fields) : Option Module := do
  return ⟨← fields.required? "name" text, ← fields.required? "path" text⟩

def ofFields? (fields : Fields) : Option Metadata := do
  let name ← fields.required? "name" text
  let version ← fields.required? "version" text
  let least := Metadata.ofName name version
  return { least with
    groupId := ← fields.optional? "group_id" text
    artifactId := ← fields.optional? "artifact_id" text
    packaging := ← fields.optional? "packaging" text
    url := ← fields.optional? "url" text
    downloadUrl := ← fields.optional? "url_download" text
    finalName := ← fields.optional? "final_name" text
    developmentTeam := ← fields.optional? "development_team" text
    introduction := ← fields.optional? "introduction" text
    issueManagement := ← fields.optional? "issue_management"
      (record ["system", "url"] issueManagement?)
    origins := ← fields.withDefault? "systems" least.origins (list (word Origin.ofKey?))
    issueTypes := ← fields.optional? "issue_types" textMap
    versionPrefix := ← fields.optional? "version_prefix" text
    onlyCurrentVersion := ← fields.withDefault? "only_current_version" false bool
    team := ← fields.optional? "team" text
    linkTemplates := ← fields.withDefault? "issue_link_templates" [] textMap
    modules := ← fields.withDefault? "modules" [] (list (record ["name", "path"] module?))
    datePattern := ← fields.withDefault? "date_format" least.datePattern text }

def parse (source : String) : Except Failure Metadata :=
  (decode (record fieldNames ofFields?) source).mapError
    fun cause => (Failure.ofCause cause).within .parsingProject

end Metadata

namespace TrackerSettings

def jiraNames : List String :=
  [ "user", "password", "api_key", "filter", "fix_version_ids", "status_ids", "resolution_ids",
    "priority_ids", "component", "type_ids", "sort_column_names", "max_entries",
    "connection_timeout_ms", "receive_timeout_ms", "use_jql", "columns" ]

def jira? (fields : Fields) : Option JiraSettings := do
  let usual := JiraSettings.default
  return {
    user := ← fields.optional? "user" text
    password := ← fields.optional? "password" text
    apiKey := ← fields.optional? "api_key" text
    filter := ← fields.optional? "filter" text
    fixVersions := ← fields.optional? "fix_version_ids" text
    statuses := ← fields.optional? "status_ids" text
    resolutions := ← fields.optional? "resolution_ids" text
    priorities := ← fields.optional? "priority_ids" text
    components := ← fields.optional? "component" text
    types := ← fields.optional? "type_ids" text
    sortColumns := ← fields.optional? "sort_column_names" text
    maxEntries := ← fields.withDefault? "max_entries" usual.maxEntries (unsigned UInt32.size)
    connectionTimeout := ← fields.withDefault? "connection_timeout_ms" usual.connectionTimeout
      (unsigned UInt64.size)
    receiveTimeout := ← fields.withDefault? "receive_timeout_ms" usual.receiveTimeout
      (unsigned UInt64.size)
    useJql := ← fields.withDefault? "use_jql" usual.useJql bool
    columns := ← fields.optional? "columns" text }

def gitHub? (fields : Fields) : Option GitHubSettings := do
  let usual := GitHubSettings.default
  return {
    apiKey := ← fields.optional? "api_key" text
    includeOpenIssues := ← fields.withDefault? "include_open_issues" usual.includeOpenIssues bool
    onlyMilestoneIssues :=
      ← fields.withDefault? "only_milestone_issues" usual.onlyMilestoneIssues bool
    columns := ← fields.optional? "columns" text }

def ofFields? (fields : Fields) : Option TrackerSettings := do
  let gitHubNames := ["api_key", "include_open_issues", "only_milestone_issues", "columns"]
  return {
    jira := ← fields.withDefault? "jira" .default (record jiraNames jira?)
    gitHub := ← fields.withDefault? "github" .default (record gitHubNames gitHub?) }

def parse (source : String) : Except Failure TrackerSettings :=
  (decode (record ["jira", "github"] ofFields?) source).mapError
    fun cause => (Failure.ofCause cause).within .parsingTrackers

end TrackerSettings

end ReleaseNotes
