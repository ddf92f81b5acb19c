import ServiceBroker.Upgrade
import ServiceBroker.Yaml.Reader
import ServiceBroker.Version.Parser

/-!
The configuration of a broker: which tool versions it has, where records are kept, and how often a
running operation is polled.
-/

namespace ServiceBroker

/-- A tool version that the broker has. -/
structure DeclaredVersion where
  version : Version
  /-- Every job runs this version by default. -/
  isDefault : Bool := false
deriving DecidableEq

/-- The tool versions and how they are used. -/
structure ToolConfig where
  upgradesEnabled : Bool := false
  versions : List DeclaredVersion := []
  /-- The versions applied in between during an upgrade. -/
  upgradePath : List Version := []
deriving DecidableEq

/-- Where records are kept. -/
inductive Backend where
  /-- A file for each record. -/
  | directory
  /-- An object for each record in a bucket. -/
  | bucket
  /-- Nowhere beyond the life of the process. -/
  | memory
deriving DecidableEq

/-- How records are kept. -/
structure StoreConfig where
  backend : Backend := .directory
  path : Option String := none
  bucket : Option String := none
  keyPrefix : Option String := none
  region : Option String := none
deriving DecidableEq

/-- How jobs are watched. -/
structure JobConfig where
  /-- Milliseconds between two polls of a running operation. -/
  pollInterval : Nat := 1000
deriving DecidableEq

/-- The configuration of a broker. -/
structure Config where
  tool : ToolConfig
  store : StoreConfig := {}
  jobs : JobConfig := {}
deriving DecidableEq

namespace Backend

def name : Backend → String
  | directory => "local"
  | bucket => "s3"
  | memory => "memory"

/-- What a backend is called at the beginning of a sentence. -/
def title : Backend → String
  | directory => "Local"
  | bucket => "S3"
  | memory => "Memory"

def ofName? (name : String) : Option Backend :=
  [directory, bucket, memory].find? (·.name == name)

end Backend

namespace ToolConfig

/-- The version that jobs run by default: the first one flagged so, or else the only one. -/
def defaultVersion (tool : ToolConfig) : Except ConfigError Version :=
  match tool.versions.find? (·.isDefault), tool.versions with
  | some flagged, _ => pure flagged.version
  | none, [] => throw .noVersion
  | none, [only] => pure only.version
  | none, _ => throw .noDefaultVersion

def hasVersion (tool : ToolConfig) (version : Version) : Bool :=
  tool.versions.any (·.version == version)

/-- The settings by which jobs upgrade states. -/
def upgradeSettings (tool : ToolConfig) : Except ConfigError UpgradeSettings := do
  return { enabled := tool.upgradesEnabled, defaultVersion := ← tool.defaultVersion,
           path := tool.upgradePath }

end ToolConfig

namespace Config

open Decoder

def declaredVersionDecoder : Decoder DeclaredVersion :=
  record ["version", "default"] fun dialect form => do
    return {
      version := ← required form dialect "version" (parsed Version.parseText)
      isDefault := ← defaulted form dialect "default" flag false }

def toolDecoder : Decoder ToolConfig :=
  record ["upgrades_enabled", "versions", "upgrade_path"] fun dialect form => do
    return {
      upgradesEnabled := ← defaulted form dialect "upgrades_enabled" flag false
      versions := ← defaulted form dialect "versions" (list declaredVersionDecoder) []
      upgradePath := ← defaulted form dialect "upgrade_path" (list (parsed Version.parseText)) [] }

def storeDecoder : Decoder StoreConfig :=
  record ["backend", "path", "bucket", "prefix", "region"] fun dialect form => do
    return {
      backend := ← defaulted form dialect "backend" (choice Backend.ofName?) .directory
      path := ← optional form dialect "path" text
      bucket := ← optional form dialect "bucket" text
      keyPrefix := ← optional form dialect "prefix" text
      region := ← optional form dialect "region" text }

/-- Reads how jobs are watched. -/
def jobDecoder : Decoder JobConfig :=
  record ["poll_interval_ms"] fun dialect form => do
    return { pollInterval := ← defaulted form dialect "poll_interval_ms" count 1000 }

def decoder : Decoder Config :=
  record ["terraform", "state", "jobs"] fun dialect form => do
    return {
      tool := ← required form dialect "terraform" toolDecoder
      store := ← defaulted form dialect "state" storeDecoder {}
      jobs := ← defaulted form dialect "jobs" jobDecoder {} }

def parse (text : String) : Except ConfigError Config :=
  (Yaml.decode decoder text).mapError fun e => .unreadable ("YAML parse error: " ++ e.message)

/-- Reads a configuration from the bytes of a file. -/
def parseBytes (bytes : Bytes) : Except ConfigError Config :=
  match bytes.text? with
  | some text => parse text
  | none => throw (.unreadable "Failed to read file: not valid UTF-8")

def optionToJson (text : Option String) : Json :=
  text.elim .null .string

def toJson (config : Config) : Json :=
  .object [
    ("terraform", .object [
      ("upgrades_enabled", .bool config.tool.upgradesEnabled),
      ("versions", .array (config.tool.versions.map fun v =>
        .object [("version", .string v.version.text), ("default", .bool v.isDefault)])),
      ("upgrade_path", .array (config.tool.upgradePath.map fun v => .string v.text))]),
    ("state", .object [
      ("backend", .string config.store.backend.name),
      ("path", optionToJson config.store.path),
      ("bucket", optionToJson config.store.bucket),
      ("prefix", optionToJson config.store.keyPrefix),
      ("region", optionToJson config.store.region)]),
    ("jobs", .object [
      ("poll_interval_ms", .number (.integer config.jobs.pollInterval))])]

end Config

end ServiceBroker
