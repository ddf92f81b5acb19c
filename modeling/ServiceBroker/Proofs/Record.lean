import ServiceBroker.Record
import ServiceBroker.Proofs.Timestamp
import ServiceBroker.Proofs.Workspace.Codec

/-! A record reads back from its stored form, field for field. -/

namespace ServiceBroker.Record

open Decoder

theorem operationDecoder_name (dialect : Dialect) (operation : OperationType) :
    operationDecoder dialect (.scalar (.ofText operation.name)) = .ok operation := by
  cases operation <;> rfl

theorem timestampDecoder_text (dialect : Dialect) (t : Timestamp) :
    timestampDecoder dialect (.scalar (.ofText t.text)) = .ok t := by
  simp [timestampDecoder, parsed, Decoder.text, reading, Scalar.ofText, bind, Except.bind, pure,
    Except.pure]

/-- The dialect in which the members of a record are decoded. -/
def inner : Dialect where
  room := 126
  positional := true

/-- The members of a record are decoded one after another. -/
theorem decoder_members (id operation state message created updated : String) (workspace : Bytes) :
    decoder .json (.mapping [(some "id", .scalar (.ofText id)),
        (some "workspace", .scalar (.ofText (String.ofList (Text.Base64.encode workspace)))),
        (some "last_operation_type", .scalar (.ofText operation)),
        (some "last_operation_state", .scalar (.ofText state)),
        (some "last_operation_message", .scalar (.ofText message)),
        (some "created_at", .scalar (.ofText created)),
        (some "updated_at", .scalar (.ofText updated))]) = do
      let operation ← operationDecoder inner (.scalar (.ofText operation))
      let created ← timestampDecoder inner (.scalar (.ofText created))
      let updated ← timestampDecoder inner (.scalar (.ofText updated))
      return { id, workspace, operation, state := .ofName state, message, created, updated } := by
  have hWorkspace := base64_toJson inner workspace
  change (do
    let workspace ← base64 inner
      (.scalar (.ofText (String.ofList (Text.Base64.encode workspace))))
    let operation ← operationDecoder inner (.scalar (.ofText operation))
    let created ← timestampDecoder inner (.scalar (.ofText created))
    let updated ← timestampDecoder inner (.scalar (.ofText updated))
    return { id, workspace, operation, state := .ofName state, message, created, updated } :
      Except DecodeError Record) = _
  rw [hWorkspace]
  rfl

/-- A record in its stored form, with a text of its own as the state. -/
def stating (record : Record) (stated : String) : Json :=
  match record.toJson with
  | .object members => .object (Fields.put members "last_operation_state" (.string stated))
  | other => other

/-- Whatever text stands as the state, the record is read, with the state that the text names. -/
theorem ofText_stating (record : Record) (stated : String) :
    ofText (record.stating stated).renderPretty = .ok { record with state := .ofName stated } := by
  have hReread : (record.stating stated).reread? =
      some (.mapping [(some "id", .scalar (.ofText record.id)),
        (some "workspace",
          .scalar (.ofText (String.ofList (Text.Base64.encode record.workspace)))),
        (some "last_operation_type", .scalar (.ofText record.operation.name)),
        (some "last_operation_state", .scalar (.ofText stated)),
        (some "last_operation_message", .scalar (.ofText record.message)),
        (some "created_at", .scalar (.ofText record.created.text)),
        (some "updated_at", .scalar (.ofText record.updated.text))]) := by
    simp [stating, toJson, Fields.put, Bytes.toJson, Json.reread?, Json.rereadMembers?]
  rw [ofText, Json.decode_renderPretty, hReread, Option.elim_some, decoder_members]
  simp only [operationDecoder_name, timestampDecoder_text]
  rfl

theorem stating_name (record : Record) : record.stating record.state.name = record.toJson := by
  simp [stating, toJson, Fields.put]

/-- A record is read back from its stored form. -/
@[simp]
theorem ofText_text (record : Record) : ofText record.text = .ok record := by
  rw [Record.text, ← stating_name, ofText_stating, OperationState.ofName_name]

/-- A record that was last changed in a leap second. -/
def leaping (id : String) : Record where
  id
  workspace := [0, 255]
  operation := .update
  state := .unknown
  message := "\x00\"\\é"
  created := { date := { year := 0, month := 2, day := 29 }, hour := 6, minute := 30 }
  updated :=
    { date := { year := 9999, month := 12, day := 31 }, hour := 23, minute := 59, second := 60,
      nanosecond := 999999999 }

end ServiceBroker.Record
