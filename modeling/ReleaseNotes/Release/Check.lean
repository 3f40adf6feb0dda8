import ReleaseNotes.Journal
import ReleaseNotes.Release.Selection
import ReleaseNotes.Time.Reading

/-!
The check before a version is published: its release must be there and have a date.
-/

namespace ReleaseNotes.Release

/-- Checks the release of a version. A version under development passes without a release. -/
def check (releases : List Release) (version datePattern : String) : Journaled Unit := do
  if Version.isSnapshot version then
    Journaled.log .info s!"Skipping the release check for the snapshot version {version}."
  else
    let release ← Journaled.ofExcept (latest releases version)
    let date := release.date.getD ""
    if Time.isValidDate release.date (some datePattern) then
      Journaled.log .info s!"The release {version} has a valid date: {date}"
    else
      Journaled.fail (.invalidReleaseDate version date datePattern)

end ReleaseNotes.Release
