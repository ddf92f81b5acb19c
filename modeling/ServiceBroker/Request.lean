import ServiceBroker.Catalog

/-!
Requests to change a service instance: what the client asks for, and what the platform had recorded
for the instance before.
-/

namespace ServiceBroker

/-- What was recorded for the instance before the request. -/
structure PreviousValues where
  planId : String := ""
  serviceId : String := ""
  organizationId : String := ""
  spaceId : String := ""
  maintenanceInfo : Option MaintenanceInfo := none

/-- A request to change an instance. -/
structure UpdateRequest where
  serviceId : String
  planId : String
  /-- What the client sent as parameters, whatever its form; `none` if nothing or `null`. -/
  parameters : Option Json := none
  maintenanceInfo : Option MaintenanceInfo := none
  previous : PreviousValues := {}

namespace PreviousValues

open Decoder in
/-- Reads previous values; every field may be left out. -/
def decoder : Decoder PreviousValues :=
  record ["plan_id", "service_id", "org_id", "space_id", "maintenance_info"] fun dialect form => do
    return {
      planId := ← defaulted form dialect "plan_id" text ""
      serviceId := ← defaulted form dialect "service_id" text ""
      organizationId := ← defaulted form dialect "org_id" text ""
      spaceId := ← defaulted form dialect "space_id" text ""
      maintenanceInfo := ← optional form dialect "maintenance_info" MaintenanceInfo.decoder }

def toJson (previous : PreviousValues) : Json :=
  .object [("plan_id", .string previous.planId), ("service_id", .string previous.serviceId),
    ("org_id", .string previous.organizationId), ("space_id", .string previous.spaceId),
    ("maintenance_info", MaintenanceInfo.optionToJson previous.maintenanceInfo)]

end PreviousValues

namespace UpdateRequest

/-- No parameters: none were sent, or `null`, or an object without members. -/
def parametersEmpty (request : UpdateRequest) : Bool :=
  match request.parameters with
  | none | some .null | some (.object []) => true
  | some _ => false

/-- The parameters by name; what is not an object has none. -/
def params (request : UpdateRequest) : Params :=
  match request.parameters with
  | some (.object members) => members
  | _ => []

/-- The plan stays as it was. -/
def planUnchanged (request : UpdateRequest) : Bool :=
  request.planId == request.previous.planId

open Decoder in
def decoder : Decoder UpdateRequest :=
  record ["service_id", "plan_id", "parameters", "maintenance_info", "previous_values"]
    fun dialect form => do
      return {
        serviceId := ← required form dialect "service_id" text
        planId := ← required form dialect "plan_id" text
        parameters := ← optional form dialect "parameters" json
        maintenanceInfo := ← optional form dialect "maintenance_info" MaintenanceInfo.decoder
        previous := ← defaulted form dialect "previous_values" PreviousValues.decoder {} }

def toJson (request : UpdateRequest) : Json :=
  .object [("service_id", .string request.serviceId), ("plan_id", .string request.planId),
    ("parameters", request.parameters.getD .null),
    ("maintenance_info", MaintenanceInfo.optionToJson request.maintenanceInfo),
    ("previous_values", request.previous.toJson)]

end UpdateRequest

end ServiceBroker
