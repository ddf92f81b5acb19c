import ServiceBroker.Decision
import ServiceBroker.Proofs.Request

/-! What is decided on documents that were written anew. A catalog and a request that are decoded
from their own texts have the same services and the same parameters as before, so the same is
decided. -/

namespace ServiceBroker

/-- Nothing that is decided hangs on a number, so a request is decided alike even where a number is
not read as it was written. -/
theorem Service.decide_asRead (service : Service) (request : UpdateRequest) :
    service.decide request.asRead = service.decide request := by
  have hOnly : onlyMaintenanceChanges request.asRead = onlyMaintenanceChanges request := by
    rw [onlyMaintenanceChanges, onlyMaintenanceChanges, request.parametersEmpty_asRead]
    rfl
  rw [decide, decide, hOnly]
  rfl

namespace Catalog

/-- Whatever text a request was decoded from, and whatever a catalog holds, both are decoded from
their own texts again, compact or indented. The services are found by the same ids as before, the
parameters are the same in the same order, and the same is decided, a refusal included. Of the
numbers only the doubles have to read back; integers and versions always do. -/
theorem decision_survives_writing (catalog : Catalog) {text : String} {request : UpdateRequest}
    (h : Json.decode UpdateRequest.decoder text = .ok request)
    (doubles : ∀ value, request.parameters = some value →
      ∀ x, Json.Within (.number (.double x)) value → (Json.Number.double x).ReadsBack) :
    ∀ write ∈ [Json.render, Json.renderPretty], ∃ services again,
      Json.decode Catalog.decoder (write catalog.toJson) = .ok services ∧
      Json.decode UpdateRequest.decoder (write request.toJson) = .ok again ∧
      (∀ id, services.service? id = catalog.service? id) ∧
      again.serviceId = request.serviceId ∧ again.params = request.params ∧
      ∀ id, (services.service? id).map (·.decide again) =
        (catalog.service? id).map (·.decide request) := by
  intro write form
  have hYields := UpdateRequest.yields_decoder.decode h
  have fits : request.FitsIn 126 := fun value hValue =>
    have ⟨present, readable⟩ := hYields value hValue
    ⟨present, readable.depth, readable.distinct⟩
  have faithful : ∀ value, request.parameters = some value → value.Faithful :=
    fun value hValue => (hYields value hValue).2.bounded.faithful (doubles value hValue)
  have hRequest := UpdateRequest.decode_written fits
    (fun value hValue => (faithful value hValue).legible) form
  refine ⟨catalog, request.asRead, catalog.decode_written form, hRequest, fun _ => rfl, rfl, ?_, ?_⟩
  · rw [UpdateRequest.asRead_eq faithful]
  · intro id
    simp only [Service.decide_asRead]

/-- A request as an array, with levels that lack a description and differ in nothing but the build,
a parameter that comes twice, and a number that is no integer. -/
def terseRequestJson : Json :=
  .array [.string "db", .string "small",
    .object [("size", .number (.integer 1)), ("zone", .null), ("size", .number (.double 0.5))],
    .array [.string "2.0.0-rc.1+7"],
    .object [("plan_id", .string "small"),
      ("maintenance_info", .object [("version", .string "2.0.0-rc.1")])]]

/-- The level before a release, in one build or another. -/
def candidate (build : List Version.Identifier) : MaintenanceInfo where
  version := {
    major := 2, minor := 0, patch := 0, build
    pre := [⟨['r', 'c'], by decide, by decide⟩, ⟨['1'], by decide, by decide⟩] }

def seventhBuild : List Version.Identifier :=
  [⟨['7'], by decide, by decide⟩]

/-- The request that the array is read as. -/
def terseRequest : UpdateRequest where
  serviceId := "db"
  planId := "small"
  parameters := some (.object [("size", .number (.double 0.5)), ("zone", .null)])
  maintenanceInfo := some (candidate seventhBuild)
  previous := { planId := "small", maintenanceInfo := some (candidate []) }

/-- A service with two plans of one id. -/
def smallCatalog : Catalog where
  services := [{
    id := "db", name := "db"
    plans := [{ id := "small", name := "small", maintenanceInfo := some (candidate seventhBuild) },
      { id := "small", name := "gone" }] }]

theorem readsBack_half : (Json.Number.double 0.5).ReadsBack :=
  rfl

theorem decode_terseRequestJson :
    Json.decode UpdateRequest.decoder terseRequestJson.render = .ok terseRequest := by
  have hOne : (Json.Number.integer 1).ReadsBack := Json.Number.numberDocument?_integer (by decide)
  have faithful : terseRequestJson.Faithful := by
    simp [terseRequestJson, Json.Faithful, Json.throughout_array_iff, Json.throughout_object_iff,
      hOne, readsBack_half]
  rw [Json.decode_render, faithful.reread?_eq]
  rfl

theorem decision_survives_writing_terse :
    Json.decode UpdateRequest.decoder terseRequestJson.render = .ok terseRequest ∧
    (∀ value, terseRequest.parameters = some value →
      ∀ x, Json.Within (.number (.double x)) value → (Json.Number.double x).ReadsBack) ∧
    ∃ services again,
      Json.decode Catalog.decoder smallCatalog.toJson.renderPretty = .ok services ∧
      Json.decode UpdateRequest.decoder terseRequest.toJson.renderPretty = .ok again ∧
      services.service? "db" = smallCatalog.service? "db" ∧
      again.params = [("size", .number (.double 0.5)), ("zone", .null)] ∧
      (services.service? "db").map (·.decide again) = some (.error .upgradeRequired) := by
  have doubles : ∀ value, terseRequest.parameters = some value →
      ∀ x, Json.Within (.number (.double x)) value → (Json.Number.double x).ReadsBack := by
    rintro value ⟨⟩ x within
    have faithful : (Json.object [("size", .number (.double 0.5)), ("zone", .null)]).Faithful := by
      simp [Json.Faithful, Json.throughout_object_iff, readsBack_half]
    exact faithful _ within
  obtain ⟨services, again, hServices, hAgain, hFound, -, hParams, hDecided⟩ :=
    smallCatalog.decision_survives_writing decode_terseRequestJson doubles Json.renderPretty
      (by simp)
  exact ⟨decode_terseRequestJson, doubles, services, again, hServices, hAgain, hFound "db", hParams,
    hDecided "db"⟩

end Catalog

end ServiceBroker
