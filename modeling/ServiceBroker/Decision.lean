import ServiceBroker.Error
import ServiceBroker.Request

/-!
How an update request is carried out.

A request that changes nothing but the maintenance info, and asks for what the catalog now declares,
is an upgrade of the instance; every other request that may be carried out is an update. A request
is refused if its plan is unknown, if it asks for maintenance info that is not the plan's, or if the
instance runs at a level that its previous plan has left behind.
-/

namespace ServiceBroker

/-- How a request is carried out. -/
inductive Operation where
  /-- The client's changes are applied. -/
  | update
  /-- The instance and its bindings are brought to the present tool version. -/
  | upgrade
deriving DecidableEq

def Operation.name : Operation → String
  | update => "update"
  | upgrade => "upgrade"

namespace Service

/-- The maintenance info of a plan, if there is such a plan. -/
def maintenanceInfo? (service : Service) (planId : String) :
    Except DecisionError (Option MaintenanceInfo) :=
  match service.plan? planId with
  | some plan => pure plan.maintenanceInfo
  | none => throw (.planNotFound planId)

/-- Refuses a request for an instance that has to be upgraded first. An instance without recorded
maintenance info, or of a plan that is gone, is let through. -/
def checkPrevious (service : Service) (previous : PreviousValues) : Except DecisionError Unit :=
  match previous.maintenanceInfo, service.maintenanceInfo? previous.planId with
  | some info, .ok planInfo =>
    if MaintenanceInfo.conflict (some info) planInfo then throw .upgradeRequired else pure ()
  | _, _ => pure ()

/-- The request moves the instance to another maintenance info and changes nothing else. -/
def onlyMaintenanceChanges (request : UpdateRequest) : Bool :=
  request.planUnchanged && request.parametersEmpty &&
    MaintenanceInfo.conflict request.maintenanceInfo request.previous.maintenanceInfo

def decide (service : Service) (request : UpdateRequest) : Except DecisionError Operation := do
  let planInfo ← service.maintenanceInfo? request.planId
  match request.maintenanceInfo, planInfo with
  | none, some _ =>
    service.checkPrevious request.previous
    return .update
  | some _, none => throw .maintenanceInfoUnknown
  | requested, offered =>
    if MaintenanceInfo.conflict requested offered then throw .maintenanceInfoConflict
    if onlyMaintenanceChanges request then return .upgrade
    service.checkPrevious request.previous
    return .update

end Service

end ServiceBroker
