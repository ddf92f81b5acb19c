import ServiceBroker.Catalog
import ServiceBroker.Proofs.Document.Decoding
import ServiceBroker.Proofs.Version.Text

/-! Catalogs read back. A catalog holds no numbers and nests no deeper than JSON may, so whatever
services it lists, it is decoded from its own text as the same catalog: the services and their plans
in the same order, repeated ids included, and each level with its version and its description. -/

namespace ServiceBroker

open Decoder

/-- A version is decoded from its text. -/
theorem Version.parsed_text (dialect : Dialect) (v : Version) :
    parsed parseText dialect (.scalar (.ofText v.text)) = .ok v := by
  have hText : parseText v.text = .ok v := mapError_eq_ok_iff.mpr (parse_text v)
  simp [parsed, Decoder.text, reading, Scalar.ofText, hText, bind, Except.bind, pure, Except.pure]

namespace MaintenanceInfo

theorem decoder_members (room : Nat) (version description : Document) :
    decoder { room := room + 1, positional := true }
        (.mapping [(some "version", version), (some "description", description)]) = do
      let version ← parsed Version.parseText { room, positional := true } version
      let description ← text { room, positional := true } description
      return { version, description } :=
  rfl

theorem decoder_toDocument (info : MaintenanceInfo) (room : Nat) :
    decoder { room := room + 1, positional := true } info.toJson.toDocument = .ok info := by
  refine (decoder_members room _ _).trans ?_
  rw [Json.toDocument, Version.parsed_text]
  rfl

/-- A level that is not there stays so. -/
theorem option_decoder_toDocument (info : Option MaintenanceInfo) (room : Nat) :
    option decoder { room := room + 1, positional := true } (optionToJson info).toDocument =
      .ok info :=
  option_toDocument decoder toJson fun info _ =>
    ⟨by simp [toJson], decoder_toDocument info room⟩

theorem faithful_optionToJson (info : Option MaintenanceInfo) : (optionToJson info).Faithful := by
  cases info with
  | none => exact Json.faithful_null
  | some info =>
      simp [optionToJson, toJson, Json.faithful_object_iff, Json.faithful_string]

end MaintenanceInfo

namespace Plan

theorem decoder_members (room : Nat) (id name : String) (info : Document) :
    decoder { room := room + 1, positional := true }
        (.mapping [(some "id", .scalar (.ofText id)), (some "name", .scalar (.ofText name)),
          (some "maintenance_info", info)]) = do
      let found ← option MaintenanceInfo.decoder { room, positional := true } info
      return { id, name, maintenanceInfo := found } :=
  rfl

theorem decoder_toDocument (plan : Plan) (room : Nat) :
    decoder { room := room + 2, positional := true } plan.toJson.toDocument = .ok plan := by
  refine (decoder_members (room + 1) _ _ _).trans ?_
  rw [MaintenanceInfo.option_decoder_toDocument]
  rfl

theorem faithful_toJson (plan : Plan) : plan.toJson.Faithful := by
  simp [toJson, Json.faithful_object_iff, Json.faithful_string,
    MaintenanceInfo.faithful_optionToJson]

end Plan

namespace Service

theorem decoder_members (room : Nat) (id name : String) (plans : Document) :
    decoder { room := room + 1, positional := true }
        (.mapping [(some "id", .scalar (.ofText id)), (some "name", .scalar (.ofText name)),
          (some "plans", plans)]) = do
      let found ← list Plan.decoder { room, positional := true } plans
      return { id, name, plans := found } :=
  rfl

theorem decoder_toDocument (service : Service) (room : Nat) :
    decoder { room := room + 4, positional := true } service.toJson.toDocument = .ok service := by
  have hPlans := list_toDocument Plan.decoder Plan.toJson (fun _ => True) (room + 2) service.plans
    fun plan _ => plan.decoder_toDocument room
  refine (decoder_members (room + 3) _ _ _).trans ?_
  rw [hPlans, if_pos fun _ _ => trivial]
  rfl

theorem faithful_toJson (service : Service) : service.toJson.Faithful := by
  simp [toJson, Json.faithful_object_iff, Json.faithful_array_iff, Json.faithful_string,
    Plan.faithful_toJson]

end Service

namespace Catalog

theorem decoder_members (room : Nat) (services : Document) :
    decoder { room := room + 1, positional := true } (.mapping [(some "services", services)]) = do
      let found ← list Service.decoder { room, positional := true } services
      return { services := found } :=
  rfl

theorem decoder_toDocument (catalog : Catalog) (room : Nat) :
    decoder { room := room + 6, positional := true } catalog.toJson.toDocument = .ok catalog := by
  have hServices := list_toDocument Service.decoder Service.toJson (fun _ => True) (room + 4)
    catalog.services fun service _ => service.decoder_toDocument room
  refine (decoder_members (room + 5) _).trans ?_
  rw [hServices, if_pos fun _ _ => trivial]
  rfl

theorem faithful_toJson (catalog : Catalog) : catalog.toJson.Faithful := by
  simp [toJson, Json.faithful_object_iff, Json.faithful_array_iff, Service.faithful_toJson]

/-- Any catalog is decoded from its text, compact or indented. -/
theorem decode_written (catalog : Catalog) {write : Json → String}
    (form : write ∈ [Json.render, Json.renderPretty]) :
    Json.decode decoder (write catalog.toJson) = .ok catalog := by
  rw [Json.decode_written_form decoder form, catalog.faithful_toJson.reread?_eq, Option.elim_some]
  exact catalog.decoder_toDocument 121

end Catalog

end ServiceBroker
