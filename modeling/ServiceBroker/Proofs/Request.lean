import ServiceBroker.Proofs.Catalog
import ServiceBroker.Proofs.Json.Numbers
import ServiceBroker.Request

/-! Requests read back. A request that was decoded has parameters other than `null`, if any, which
name nothing twice and are nested one level less than a text may be; so there is room for them in
the text of the request. That text is read as the same request but for the numbers in its
parameters, each of which is what its own text is read as. -/

namespace ServiceBroker

open Decoder

theorem Json.mapNumbers_eq_null_iff {f : Number → Number} {value : Json} :
    value.mapNumbers f = .null ↔ value = .null := by
  cases value <;> simp [mapNumbers]

namespace PreviousValues

theorem decoder_members (room : Nat) (planId serviceId organizationId spaceId : String)
    (info : Document) :
    decoder { room := room + 1, positional := true }
        (.mapping [(some "plan_id", .scalar (.ofText planId)),
          (some "service_id", .scalar (.ofText serviceId)),
          (some "org_id", .scalar (.ofText organizationId)),
          (some "space_id", .scalar (.ofText spaceId)), (some "maintenance_info", info)]) = do
      let found ← option MaintenanceInfo.decoder { room, positional := true } info
      return { planId, serviceId, organizationId, spaceId, maintenanceInfo := found } :=
  rfl

theorem decoder_toDocument (previous : PreviousValues) (room : Nat) :
    decoder { room := room + 2, positional := true } previous.toJson.toDocument = .ok previous := by
  refine (decoder_members (room + 1) _ _ _ _ _).trans ?_
  rw [MaintenanceInfo.option_decoder_toDocument]
  rfl

theorem faithful_toJson (previous : PreviousValues) : previous.toJson.Faithful := by
  simp [toJson, Json.faithful_object_iff, Json.faithful_string,
    MaintenanceInfo.faithful_optionToJson]

end PreviousValues

namespace UpdateRequest

variable {request : UpdateRequest}

/-- The parameters, if there are any, are not `null`, fit the room and name nothing twice. -/
def FitsIn (request : UpdateRequest) (room : Nat) : Prop :=
  ∀ value, request.parameters = some value →
    value ≠ .null ∧ value.depth ≤ room ∧ value.Distinct

theorem decoder_members (room : Nat) (serviceId planId : String)
    (parameters info previous : Document) :
    decoder { room := room + 1, positional := true }
        (.mapping [(some "service_id", .scalar (.ofText serviceId)),
          (some "plan_id", .scalar (.ofText planId)), (some "parameters", parameters),
          (some "maintenance_info", info), (some "previous_values", previous)]) = do
      let inner : Dialect := { room, positional := true }
      let parameters ← option json inner parameters
      let found ← option MaintenanceInfo.decoder inner info
      let previous ← PreviousValues.decoder inner previous
      return { serviceId, planId, parameters, maintenanceInfo := found, previous } :=
  rfl

theorem decoder_toDocument (room : Nat) (fits : request.FitsIn (room + 2)) :
    decoder { room := room + 3, positional := true } request.toJson.toDocument = .ok request := by
  have hParameters : option json { room := room + 2, positional := true }
      (request.parameters.elim .null id).toDocument = .ok request.parameters := by
    refine option_toDocument json id fun value hValue => ?_
    obtain ⟨present, shallow, distinct⟩ := fits value hValue
    exact ⟨present, (value_toDocument distinct (room + 2)).trans (if_pos shallow)⟩
  have hWritten : request.parameters.elim .null id = request.parameters.getD .null := by
    cases request.parameters <;> rfl
  rw [hWritten] at hParameters
  refine (decoder_members (room + 2) _ _ _ _ _).trans ?_
  dsimp only
  rw [hParameters, MaintenanceInfo.option_decoder_toDocument, PreviousValues.decoder_toDocument]
  rfl

theorem yields_decoder :
    Yields decoder fun room request => ∀ value, request.parameters = some value →
      value ≠ .null ∧ value.Readable (room - 1) := by
  unfold decoder
  refine Yields.record (p := fun room (request : UpdateRequest) =>
    ∀ value, request.parameters = some value → value ≠ .null ∧ value.Readable room) ?_
  intro dialect form request plain hBuild value hValue
  obtain ⟨serviceId, -, hBuild⟩ := exists_of_bind_eq_ok hBuild
  obtain ⟨planId, -, hBuild⟩ := exists_of_bind_eq_ok hBuild
  obtain ⟨parameters, hRead, hBuild⟩ := exists_of_bind_eq_ok hBuild
  obtain ⟨info, -, hBuild⟩ := exists_of_bind_eq_ok hBuild
  obtain ⟨previous, -, hBuild⟩ := exists_of_bind_eq_ok hBuild
  cases hBuild
  rcases yields_option_json.defaulted plain hRead with rfl | hYields
  · cases hValue
  · exact hYields value hValue

/-- The request as it is read from its text. -/
def asRead (request : UpdateRequest) : UpdateRequest :=
  { request with parameters := request.parameters.map Json.asRead }

theorem FitsIn.asRead {room : Nat} (fits : request.FitsIn room) :
    request.asRead.FitsIn room := by
  intro value hValue
  obtain ⟨written, hWritten, rfl⟩ := Option.map_eq_some_iff.mp hValue
  obtain ⟨present, shallow, distinct⟩ := fits written hWritten
  refine ⟨mt Json.mapNumbers_eq_null_iff.mp present, ?_, distinct.mapNumbers _⟩
  rwa [Json.asRead, Json.depth_mapNumbers]

/-- There are no numbers in a request but those in its parameters. -/
theorem toJson_asRead (request : UpdateRequest) :
    request.asRead.toJson = request.toJson.asRead := by
  have hText (s : String) := (Json.faithful_string s).asRead_eq
  have hInfo := (MaintenanceInfo.faithful_optionToJson request.maintenanceInfo).asRead_eq
  have hPrevious := request.previous.faithful_toJson.asRead_eq
  have hParameters : (request.parameters.getD .null).asRead =
      (request.parameters.map Json.asRead).getD .null := by
    cases request.parameters with
    | none => exact Json.faithful_null.asRead_eq
    | some value => rfl
  simp [toJson, asRead, Json.asRead_object, hText, hInfo, hPrevious, hParameters]

theorem legible_toJson (legible : ∀ value, request.parameters = some value → value.Legible) :
    request.toJson.Legible := by
  have hText (s : String) := (Json.faithful_string s).legible
  have hInfo := (MaintenanceInfo.faithful_optionToJson request.maintenanceInfo).legible
  have hPrevious := request.previous.faithful_toJson.legible
  have hParameters : (request.parameters.getD .null).Legible := by
    cases hFound : request.parameters with
    | none => exact Json.faithful_null.legible
    | some value => exact legible value hFound
  simp [toJson, Json.legible_object_iff, hText, hInfo, hPrevious, hParameters]

/-- A request whose numbers are legible is decoded from its text, compact or indented, with the
numbers that are read. -/
theorem decode_written (fits : request.FitsIn 126)
    (legible : ∀ value, request.parameters = some value → value.Legible) {write : Json → String}
    (form : write ∈ [Json.render, Json.renderPretty]) :
    Json.decode decoder (write request.toJson) = .ok request.asRead := by
  rw [Json.decode_written_form decoder form, (legible_toJson legible).reread?_eq, Option.elim_some,
    ← toJson_asRead]
  exact decoder_toDocument 124 fits.asRead

theorem asRead_eq (faithful : ∀ value, request.parameters = some value → value.Faithful) :
    request.asRead = request := by
  have hParameters : request.parameters.map Json.asRead = request.parameters := by
    cases hFound : request.parameters with
    | none => rfl
    | some value => rw [Option.map_some, (faithful value hFound).asRead_eq]
  rw [asRead, hParameters]

/-- No number makes parameters empty. -/
theorem parametersEmpty_asRead (request : UpdateRequest) :
    request.asRead.parametersEmpty = request.parametersEmpty := by
  rw [parametersEmpty, parametersEmpty, asRead]
  rcases request.parameters with _ | _ | b | n | s | items | ⟨_ | ⟨member, members⟩⟩ <;> rfl

end UpdateRequest

end ServiceBroker
