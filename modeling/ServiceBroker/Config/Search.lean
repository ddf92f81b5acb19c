import ServiceBroker.Error
import ServiceBroker.Files.Path

/-!
Where the configuration file is looked for when none is named: in a folder, then in the folders
that its path names above it.
-/

namespace ServiceBroker.Config

/-- The names that a configuration file may have, the preferred one first. -/
def fileNames : List String := ["tfbroker.yaml", "tfbroker.yml"]

/-- The paths that are tried, in order, from a folder on. -/
def candidates (start : String) : List String :=
  (Path.ancestors start).flatMap fun folder => fileNames.map (Path.join folder)

/-- There is no configuration file in a folder or above it. -/
def notFoundFrom (start : String) : ConfigError :=
  .fileNotFound (Path.join start "tfbroker.yaml")

/-- The configuration file for a folder: the first path at which something lies. -/
def find (isPresent : String → Bool) (start : String) : Except ConfigError String :=
  match (candidates start).find? isPresent with
  | some path => pure path
  | none => throw (notFoundFrom start)

end ServiceBroker.Config
