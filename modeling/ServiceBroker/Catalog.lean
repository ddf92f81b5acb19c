import ServiceBroker.Document.Decoder
import ServiceBroker.Json.Printer
import ServiceBroker.Version.Parser

/-!
The catalog: the services that the broker offers, their plans, and the maintenance info that tells
at which level a plan is kept.
-/

namespace ServiceBroker

/-- The level at which a plan is kept or an instance runs. -/
structure MaintenanceInfo where
  version : Version
  description : String := ""
deriving DecidableEq

/-- A plan of a service. -/
structure Plan where
  id : String
  name : String
  maintenanceInfo : Option MaintenanceInfo := none
deriving DecidableEq

/-- A service and its plans. -/
structure Service where
  id : String
  name : String
  plans : List Plan := []
deriving DecidableEq

/-- The services on offer. -/
structure Catalog where
  services : List Service := []
deriving DecidableEq

namespace MaintenanceInfo

/-- Two levels conflict unless both are absent or both are the same. -/
def conflict (a b : Option MaintenanceInfo) : Bool :=
  a != b

open Decoder in
def decoder : Decoder MaintenanceInfo :=
  record ["version", "description"] fun dialect form => do
    return {
      version := ← required form dialect "version" (parsed Version.parseText)
      description := ← defaulted form dialect "description" text "" }

def toJson (info : MaintenanceInfo) : Json :=
  .object [("version", .string info.version.text), ("description", .string info.description)]

def optionToJson (info : Option MaintenanceInfo) : Json :=
  info.elim .null toJson

end MaintenanceInfo

namespace Plan

open Decoder in
def decoder : Decoder Plan :=
  record ["id", "name", "maintenance_info"] fun dialect form => do
    return {
      id := ← required form dialect "id" text
      name := ← required form dialect "name" text
      maintenanceInfo := ← optional form dialect "maintenance_info" MaintenanceInfo.decoder }

def toJson (plan : Plan) : Json :=
  .object [("id", .string plan.id), ("name", .string plan.name),
    ("maintenance_info", MaintenanceInfo.optionToJson plan.maintenanceInfo)]

end Plan

namespace Service

def plan? (service : Service) (id : String) : Option Plan :=
  service.plans.find? (·.id == id)

open Decoder in
def decoder : Decoder Service :=
  record ["id", "name", "plans"] fun dialect form => do
    return {
      id := ← required form dialect "id" text
      name := ← required form dialect "name" text
      plans := ← defaulted form dialect "plans" (list Plan.decoder) [] }

def toJson (service : Service) : Json :=
  .object [("id", .string service.id), ("name", .string service.name),
    ("plans", .array (service.plans.map Plan.toJson))]

end Service

namespace Catalog

def service? (catalog : Catalog) (id : String) : Option Service :=
  catalog.services.find? (·.id == id)

open Decoder in
def decoder : Decoder Catalog :=
  record ["services"] fun dialect form => do
    return { services := ← defaulted form dialect "services" (list Service.decoder) [] }

def toJson (catalog : Catalog) : Json :=
  .object [("services", .array (catalog.services.map Service.toJson))]

end Catalog

end ServiceBroker
