import ServiceBroker.Error
import ServiceBroker.Json.Basic
import ServiceBroker.Version.Order

/-!
The walk from an old tool version to the default one.

A tool version reads only states that were written not too many versions before it. So a state
written long ago is applied at a series of versions in between before the default version touches
it.
-/

namespace ServiceBroker

/-- How states are brought to the default tool version. -/
structure UpgradeSettings where
  /-- States older than the default version may be upgraded. -/
  enabled : Bool
  /-- The version that every job ends up running. -/
  defaultVersion : Version
  /-- The versions in between. -/
  path : List Version

namespace UpgradeSettings

/-- The versions to apply, in order, before the default version touches a state written by
`current`: none if the state is not older than the default version, else the part of the path that
lies ahead. -/
def stepsFrom (settings : UpgradeSettings) (current : Version) : Except JobError (List Version) :=
  if settings.defaultVersion ≤ current then pure []
  else if !settings.enabled then
    throw (.versionMismatch current.text settings.defaultVersion.text)
  else if settings.path.isEmpty then throw .noUpgradePath
  else pure (settings.path.filter fun version => current < version)

def toJson (settings : UpgradeSettings) : Json :=
  .object [("enabled", .bool settings.enabled),
    ("default_version", .string settings.defaultVersion.text),
    ("path", .array (settings.path.map fun version => .string version.text))]

end UpgradeSettings

end ServiceBroker
