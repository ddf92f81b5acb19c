import ServiceBroker.Config.Basic
import ServiceBroker.Text.Blank

/-!
Environment variables that override settings of the configuration.
-/

namespace ServiceBroker.Config

/-- The variable that switches upgrades on or off. -/
def upgradesVariable : String := "TERRAFORM_UPGRADES_ENABLED"

/-- The variable for the directory of records. -/
def pathVariable : String := "TFBROKER_STATE_PATH"

def bucketVariable : String := "TFBROKER_STATE_BUCKET"

/-- The variable for the prefix of keys in the bucket. -/
def keyPrefixVariable : String := "TFBROKER_STATE_PREFIX"

def overriding : List String :=
  [upgradesVariable, pathVariable, bucketVariable, keyPrefixVariable]

/-- A truth value as people write it in a variable: blanks around it and the case of its letters
do not count, and nothing at all means no. -/
def parseSwitch? (value : String) : Option Bool :=
  let word := String.ofList ((Text.trim value.toList).map Char.toLower)
  if word = "true" || word = "1" || word = "yes" then some true
  else if word = "false" || word = "0" || word = "no" || word = "" then some false
  else none

/-- Applies the variables that are set. -/
def override (config : Config) (setting : String → Option String) : Except ConfigError Config := do
  let tool ← match setting upgradesVariable with
    | none => pure config.tool
    | some value =>
      match parseSwitch? value with
      | some enabled => pure { config.tool with upgradesEnabled := enabled }
      | none =>
        throw (.invalid {
          reason := upgradesVariable ++ " must be a boolean, got '" ++ value ++ "'"
          field := some "terraform.upgrades_enabled" })
  let store := { config.store with
    path := (setting pathVariable).or config.store.path
    bucket := (setting bucketVariable).or config.store.bucket
    keyPrefix := (setting keyPrefixVariable).or config.store.keyPrefix }
  return { config with tool, store }

end ServiceBroker.Config
