import ServiceBroker.Workspace.Basic
import ServiceBroker.Json.Printer
import ServiceBroker.Text.Base64
import ServiceBroker.Error

/-!
Workspaces as JSON documents, the form in which records keep them.
-/

namespace ServiceBroker

namespace Decoder

/-- Octets, written as base 64. -/
def base64 : Decoder Bytes :=
  parsed fun text =>
    match Text.Base64.decode text.toList with
    | some bytes => .ok bytes
    | none => .error "not valid base 64"

end Decoder

def Bytes.toJson (bytes : Bytes) : Json :=
  .string (String.ofList (Text.Base64.encode bytes))

namespace Workspace

open Decoder

def moduleDecoder : Decoder Module :=
  record ["name", "definitions"] fun dialect form => do
    return {
      name := ← required form dialect "name" text
      definitions := Definitions.ofPairs (← defaulted form dialect "definitions" (fields text) []) }

def instanceDecoder : Decoder ModuleInstance :=
  record ["module_name", "instance_name", "configuration"] fun dialect form => do
    return {
      moduleName := ← required form dialect "module_name" text
      name := ← required form dialect "instance_name" text
      configuration := ← defaulted form dialect "configuration" params [] }

def decoder : Decoder Workspace :=
  record ["modules", "instances", "transform", "tfstate"] fun dialect form => do
    return {
      modules := ← required form dialect "modules" (list moduleDecoder)
      instances := ← required form dialect "instances" (list instanceDecoder)
      parameterization := ← defaulted form dialect "transform" Parameterization.decoder {}
      state := ← defaulted form dialect "tfstate" base64 [] }

def moduleToJson (m : Module) : Json :=
  .object [("name", .string m.name),
    ("definitions", .object (m.definitions.map fun (name, text) => (name, .string text)))]

def instanceToJson (i : ModuleInstance) : Json :=
  .object [("module_name", .string i.moduleName), ("instance_name", .string i.name),
    ("configuration", .object i.configuration)]

def toJson (workspace : Workspace) : Json :=
  .object [
    ("modules", .array (workspace.modules.map moduleToJson)),
    ("instances", .array (workspace.instances.map instanceToJson)),
    ("transform", workspace.parameterization.toJson),
    ("tfstate", workspace.state.toJson)]

def text (workspace : Workspace) : String :=
  workspace.toJson.render

/-- The stored form of a workspace. -/
def toBytes (workspace : Workspace) : Bytes :=
  Bytes.ofText workspace.text

/-- Reads the stored form of a workspace. -/
def ofBytes (bytes : Bytes) : Except WorkspaceError Workspace :=
  (Json.decodeBytes decoder bytes).mapError fun e => .undecodable e.message

end Workspace

end ServiceBroker
