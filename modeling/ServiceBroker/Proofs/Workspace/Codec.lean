import ServiceBroker.Workspace.Codec
import ServiceBroker.Workspace.State
import ServiceBroker.Proofs.Except
import ServiceBroker.Proofs.Json.Reread
import ServiceBroker.Proofs.Text.Base64
import ServiceBroker.Proofs.Version.Text

/-! What is kept of a workspace in its stored form, and of a version in a state. A stored workspace
that can be read has the state that was stored; a state that the tool wrote says which version wrote
it, if it can be read at all, which depends on its outputs alone. -/

namespace ServiceBroker

open Decoder

theorem base64_toJson (dialect : Dialect) (bytes : Bytes) :
    base64 dialect (.scalar (.ofText (String.ofList (Text.Base64.encode bytes)))) = .ok bytes := by
  simp [base64, parsed, text, reading, Scalar.ofText, Text.Base64.decode_encode, bind, Except.bind,
    pure, Except.pure]

namespace Workspace

/-- The members of a workspace are decoded one after another. -/
theorem decoder_members (modules instances transform : Document) (state : Bytes) :
    decoder .json (.mapping [(some "modules", modules), (some "instances", instances),
        (some "transform", transform),
        (some "tfstate", .scalar (.ofText (String.ofList (Text.Base64.encode state))))]) = do
      let inner : Dialect := { room := 126, positional := true }
      let modules ← list moduleDecoder inner modules
      let instances ← list instanceDecoder inner instances
      let parameterization ← Parameterization.decoder inner transform
      return { modules, instances, parameterization, state } := by
  have hState := base64_toJson { room := 126, positional := true } state
  change (do
    let modules ← list moduleDecoder { room := 126, positional := true } modules
    let instances ← list instanceDecoder { room := 126, positional := true } instances
    let parameterization ← Parameterization.decoder { room := 126, positional := true } transform
    let state ← base64 { room := 126, positional := true }
      (.scalar (.ofText (String.ofList (Text.Base64.encode state))))
    return { modules, instances, parameterization, state } : Except DecodeError Workspace) = _
  rw [hState]
  rfl

/-- A stored workspace that can be read has the state that was stored. -/
theorem state_of_ofBytes_toBytes {workspace found : Workspace}
    (h : ofBytes workspace.toBytes = .ok found) : found.state = workspace.state := by
  rw [ofBytes, mapError_eq_ok_iff, toBytes, Workspace.text, Json.decodeBytes_render, toJson,
    Bytes.toJson] at h
  simp only [Json.reread?, Json.rereadMembers?] at h
  cases hModules : Json.rereadItems? (workspace.modules.map moduleToJson) with
  | none => simp [hModules] at h
  | some modules =>
      cases hInstances : Json.rereadItems? (workspace.instances.map instanceToJson) with
      | none => simp [hModules, hInstances] at h
      | some instances =>
          cases hTransform : workspace.parameterization.toJson.reread? with
          | none => simp [hModules, hInstances, hTransform] at h
          | some transform =>
              simp only [hModules, hInstances, hTransform, Option.map_some, Option.bind_some,
                Option.elim_some, decoder_members] at h
              obtain ⟨_, -, h⟩ := exists_of_bind_eq_ok h
              obtain ⟨_, -, h⟩ := exists_of_bind_eq_ok h
              obtain ⟨_, -, h⟩ := exists_of_bind_eq_ok h
              cases h
              rfl

end Workspace

namespace ToolState

/-- What is recorded for an output with a value. -/
def outputEntry (output : String × Json) : String × Json :=
  (output.1, .object [("value", output.2)])

/-- The texts of the outputs can be read as deep as a state lets them nest. -/
def Legible (outputs : Params) : Prop :=
  ∀ output ∈ outputs, ∃ document value,
    output.2.reread? = some document ∧ Decoder.value 124 document = .ok value

/-- The outputs that a state is read to have. -/
def rereadOutputs (outputs : Params) : Except DecodeError Params :=
  (Json.rereadMembers? (outputs.map outputEntry)).elim (.error (.malformed "JSON")) fun members =>
    params { room := 126, positional := true } (.mapping members)

/-- A state as a JSON value. -/
def stateJson (version : Version) (outputs : Params) : Json :=
  .object [("version", .number (.integer 4)), ("terraform_version", .string version.text),
    ("outputs", .object (outputs.map outputEntry))]

theorem document_eq (version : Version) (outputs : Params) :
    document version outputs = Bytes.ofText (stateJson version outputs).render :=
  rfl

theorem document_ne_nil (version : Version) (outputs : Params) :
    (document version outputs).isEmpty = false := by
  cases hEmpty : (document version outputs).isEmpty with
  | false => rfl
  | true =>
      have hText := Bytes.text?_ofText (stateJson version outputs).render
      rw [← document_eq] at hText
      rw [List.isEmpty_iff.mp hEmpty] at hText
      have hNil : Bytes.text? [] = some "" := rfl
      rw [hNil, Option.some.injEq] at hText
      have hChars := congrArg String.toList hText
      simp [stateJson, Json.render, Json.compact] at hChars

theorem reread?_stateJson (version : Version) (outputs : Params) :
    (stateJson version outputs).reread? =
      (Json.rereadMembers? (outputs.map outputEntry)).map fun members =>
        .mapping [(some "version", .scalar (.ofNumber (some (.integer 4)))),
          (some "terraform_version", .scalar (.ofText version.text)),
          (some "outputs", .mapping members)] := by
  have hNumber : Json.reread? (.number (.integer 4)) =
      some (.scalar (.ofNumber (some (.integer 4)))) := by
    rw [Json.reread?, Json.Number.numberDocument?_integer (by decide)]
  rw [stateJson, Json.reread?, Json.rereadMembers?, hNumber]
  simp only [Json.rereadMembers?, Json.reread?, Option.bind_some]
  cases Json.rereadMembers? (outputs.map outputEntry) <;> rfl

/-- A state that the tool wrote is decoded by way of what its outputs are read as. -/
theorem decode_document (version : Version) (outputs : Params) :
    Json.decodeBytes decoder (document version outputs) = do
      let outputs ← rereadOutputs outputs
      return { versionText := version.text, outputs } := by
  rw [document_eq, Json.decodeBytes_render, reread?_stateJson, rereadOutputs]
  cases Json.rereadMembers? (outputs.map outputEntry) <;> rfl

theorem parse_document_eq_ok {version : Version} {outputs : Params} {state : ToolState} :
    parse (document version outputs) = .ok state ↔
      ∃ values, rereadOutputs outputs = .ok values ∧
        state = { versionText := version.text, outputs := values } := by
  rw [parse, document_ne_nil, if_neg Bool.false_ne_true, mapError_eq_ok_iff, decode_document]
  cases rereadOutputs outputs with
  | error e => simp [bind, Except.bind]
  | ok values => simp [bind, Except.bind, pure, Except.pure, eq_comm]

/-- The version in a state is the one that wrote it. -/
theorem version_mk (version : Version) (outputs : Params) :
    ToolState.version { versionText := version.text, outputs } = .ok version := by
  rw [ToolState.version, Version.parse_text]
  rfl

theorem value_outputEntry {document : Document} {value : Json}
    (h : Decoder.value 124 document = .ok value) :
    Decoder.value 125 (.mapping [(some "value", document)]) = .ok (.object [("value", value)]) := by
  simp only [Decoder.value, Decoder.valueMembers, h, bind, Except.bind, pure, Except.pure]
  rfl

/-- Reads the value of an output. -/
def outputDecoder (member : Option String × Document) : Except DecodeError (String × Json) :=
  match member.1 with
  | some key => return (key, ← json { room := 125, positional := true } member.2)
  | none => throw (.unexpected "a key")

theorem params_members (members : List (Option String × Document)) :
    params { room := 126, positional := true } (.mapping members) = do
      return Fields.ofPairs (← members.mapM outputDecoder) :=
  rfl

/-- The members that outputs are written as, one after another. -/
theorem exists_rereadMembers {outputs : Params} (legible : Legible outputs) :
    ∃ members pairs, Json.rereadMembers? (outputs.map outputEntry) = some members ∧
      members.mapM outputDecoder = .ok pairs := by
  induction outputs with
  | nil => exact ⟨[], [], rfl, rfl⟩
  | cons output outputs ih =>
      obtain ⟨members, pairs, hMembers, hPairs⟩ := ih fun other h => legible other (by simp [h])
      obtain ⟨document, value, hRead, hValue⟩ := legible output (by simp)
      refine ⟨(some output.1, .mapping [(some "value", document)]) :: members,
        (output.1, .object [("value", value)]) :: pairs, ?_, ?_⟩
      · simp [outputEntry, Json.rereadMembers?, Json.reread?, hRead, hMembers]
      · rw [List.mapM_cons, hPairs]
        simp only [outputDecoder, json, value_outputEntry hValue]
        rfl

/-- Outputs that are legible are read. -/
theorem exists_rereadOutputs {outputs : Params} (legible : Legible outputs) :
    ∃ values, rereadOutputs outputs = .ok values := by
  obtain ⟨members, pairs, hMembers, hPairs⟩ := exists_rereadMembers legible
  refine ⟨Fields.ofPairs pairs, ?_⟩
  rw [rereadOutputs, hMembers, Option.elim_some, params_members, hPairs]
  rfl

end ToolState

namespace Workspace

/-- A state that the tool wrote is readable only as the state of the version that wrote it. -/
theorem stateVersion_eq_of_document {workspace : Workspace} {version found : Version}
    {outputs : Params} (hState : workspace.state = ToolState.document version outputs)
    (h : workspace.stateVersion = .ok found) : found = version := by
  rw [stateVersion, toolState, hState] at h
  obtain ⟨state, hParse, hVersion⟩ := exists_of_bind_eq_ok h
  obtain ⟨values, -, rfl⟩ := ToolState.parse_document_eq_ok.mp hParse
  rw [ToolState.version_mk] at hVersion
  exact (Except.ok.inj hVersion).symm

theorem stateVersion_of_legible {workspace : Workspace} {version : Version} {outputs : Params}
    (hState : workspace.state = ToolState.document version outputs)
    (legible : ToolState.Legible outputs) : workspace.stateVersion = .ok version := by
  obtain ⟨values, hValues⟩ := ToolState.exists_rereadOutputs legible
  rw [stateVersion, toolState, hState, ToolState.parse_document_eq_ok.mpr ⟨values, hValues, rfl⟩]
  exact ToolState.version_mk version values

end Workspace

end ServiceBroker
