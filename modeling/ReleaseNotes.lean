import ReleaseNotes.Main
import ReleaseNotes.Proofs.Changes.IssueLists
import ReleaseNotes.Proofs.Command.Containing
import ReleaseNotes.Proofs.Command.Initializing
import ReleaseNotes.Proofs.Query.Confining
import ReleaseNotes.Proofs.Query.ListForms
import ReleaseNotes.Proofs.Query.ParameterReading
import ReleaseNotes.Proofs.Query.SortColumns
import ReleaseNotes.Proofs.Release.Crediting
import ReleaseNotes.Proofs.Report.Anchoring
import ReleaseNotes.Proofs.Report.Announcing
import ReleaseNotes.Proofs.Report.Escaping
import ReleaseNotes.Proofs.Report.Filling
import ReleaseNotes.Proofs.Report.IssuesTable
import ReleaseNotes.Proofs.Report.Linking
import ReleaseNotes.Proofs.Report.Reordering
import ReleaseNotes.Proofs.Report.Sections
import ReleaseNotes.Proofs.Report.Templates
import ReleaseNotes.Proofs.Tracker.Asking
import ReleaseNotes.Proofs.Tracker.Collection
import ReleaseNotes.Proofs.Tracker.Narrowing
import ReleaseNotes.Proofs.Tracker.Paging
import ReleaseNotes.Proofs.Tracker.Replacing
import ReleaseNotes.Proofs.Tracker.Repositories
import ReleaseNotes.Proofs.Tracker.Resolving
import ReleaseNotes.Proofs.Tracker.Searching
import ReleaseNotes.Proofs.Tracker.Spelling
import ReleaseNotes.Proofs.Tracker.TypeGroups
import ReleaseNotes.Proofs.Version.Numerals
import ReleaseNotes.Proofs.Version.Respelling
import ReleaseNotes.Proofs.Version.Stages
import ReleaseNotes.Proofs.Version.Suffixes
