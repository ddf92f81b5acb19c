import ServiceBroker.Proofs.Json.Numbers
import ServiceBroker.Proofs.Workspace.RoundTrip

/-! What is read of a state that the tool wrote: the version that wrote it and the values of its
outputs, in the order in which they were written. The state is kept when its workspace is stored and
read again, also where the configuration holds numbers that are not read as they were written. -/

namespace ServiceBroker

open Decoder

namespace ToolState

variable {version : Version} {outputs : Params}

/-- What is recorded for an output has its value one level deeper, and nothing else in it. -/
theorem depth_outputEntry_le_iff (output : String × Json) (room : Nat) :
    (outputEntry output).2.depth ≤ room + 1 ↔ output.2.depth ≤ room := by
  simp [outputEntry, Json.depth_object_le_iff]

theorem distinct_entries (distinct : (Json.object outputs).Distinct) :
    (Json.object (outputs.map outputEntry)).Distinct := by
  obtain ⟨once, hValues⟩ := Json.distinct_object_iff.mp distinct
  refine Json.distinct_object_iff.mpr ⟨?_, List.forall_mem_map.mpr fun output hOutput => ?_⟩
  · rw [Fields.names, List.map_map]
    exact once
  · simpa [outputEntry, Json.distinct_object_iff, Fields.names] using hValues output hOutput

theorem faithful_entries (faithful : (Json.object outputs).Faithful) :
    (Json.object (outputs.map outputEntry)).Faithful := by
  rw [Json.faithful_object_iff] at faithful
  refine Json.faithful_object_iff.mpr (List.forall_mem_map.mpr fun output hOutput => ?_)
  simpa [outputEntry, Json.faithful_object_iff] using faithful output hOutput

/-- Outputs are read as what was recorded for them if there is room for their values. -/
theorem rereadOutputs_eq (distinct : (Json.object outputs).Distinct)
    (faithful : (Json.object outputs).Faithful) :
    rereadOutputs outputs =
      if ∀ output ∈ outputs, output.2.depth ≤ 124 then .ok (outputs.map outputEntry)
      else .error .tooDeep := by
  obtain ⟨once, hEntries⟩ := Json.distinct_object_iff.mp (distinct_entries distinct)
  have hRead := (faithful_entries faithful).reread?_eq
  have hParams := fields_toDocument json id (fun value => value.depth ≤ 125) 125 once
    fun entry hEntry => value_toDocument (hEntries entry hEntry) 125
  simp only [id, List.map_id', List.forall_mem_map, depth_outputEntry_le_iff] at hParams
  rw [Json.reread?, Json.toDocument, Option.map_eq_some_iff] at hRead
  obtain ⟨members, hMembers, hDocument⟩ := hRead
  rw [rereadOutputs, hMembers, Option.elim_some, hDocument]
  exact hParams

theorem outputValues_entries (text : String) (outputs : Params) :
    outputValues { versionText := text, outputs := outputs.map outputEntry } = outputs := by
  rw [outputValues, List.map_map]
  exact List.map_id _

/-- A state says which version wrote it and which outputs there are, in their order, if there is
room for their values. -/
theorem exists_parse_document (distinct : (Json.object outputs).Distinct)
    (faithful : (Json.object outputs).Faithful)
    (shallow : ∀ output ∈ outputs, output.2.depth ≤ 124) (version : Version) :
    ∃ state, parse (document version outputs) = .ok state ∧ state.version = .ok version ∧
      state.outputValues = outputs := by
  have hRead := rereadOutputs_eq distinct faithful
  rw [if_pos shallow] at hRead
  exact ⟨_, parse_document_eq_ok.mpr ⟨_, hRead, rfl⟩, version_mk version _,
    outputValues_entries version.text outputs⟩

end ToolState

/-- The instance as it is read from its text. -/
def ModuleInstance.asRead (i : ModuleInstance) : ModuleInstance :=
  { i with configuration := i.configuration.map fun field => (field.1, field.2.asRead) }

namespace Workspace

variable {workspace : Workspace}

/-- The workspace as it is read from its text. -/
def asRead (workspace : Workspace) : Workspace :=
  { workspace with instances := workspace.instances.map ModuleInstance.asRead }

theorem state_asRead (workspace : Workspace) : workspace.asRead.state = workspace.state :=
  rfl

theorem instanceNames_asRead (workspace : Workspace) :
    workspace.asRead.instanceNames = workspace.instanceNames := by
  rw [instanceNames, instanceNames, asRead, List.map_map]
  rfl

theorem legible_toJson_iff :
    workspace.toJson.Legible ↔
      ∀ i ∈ workspace.instances, ∀ field ∈ i.configuration, field.2.Legible := by
  refine throughout_toJson_iff fun value hNumber => ?_
  cases value with
  | number n => exact (hNumber n rfl).elim
  | null | bool | string | array | object => trivial

/-- There are no numbers in a workspace but those in the configurations. -/
theorem toJson_asRead (workspace : Workspace) :
    workspace.asRead.toJson = workspace.toJson.asRead := by
  have hModule (m : Module) : (moduleToJson m).asRead = moduleToJson m := by
    simp [moduleToJson, Json.asRead]
  have hInstance (i : ModuleInstance) : (instanceToJson i).asRead = instanceToJson i.asRead := by
    simp [instanceToJson, ModuleInstance.asRead, Json.asRead]
  have hMapping (mapping : ParameterMapping) :
      (Parameterization.mappingToJson mapping).asRead = Parameterization.mappingToJson mapping := by
    simp [Parameterization.mappingToJson, Json.asRead]
  simp only [Json.asRead] at hModule hInstance hMapping
  simp [toJson, asRead, Json.asRead, Parameterization.toJson, Bytes.toJson, hModule, hInstance,
    hMapping, Function.comp_def]

theorem WellFormed.asRead (wellFormed : workspace.WellFormed) : workspace.asRead.WellFormed where
  definitions := wellFormed.definitions
  configuration := List.forall_mem_map.mpr fun i hInstance => by
    have distinct := (wellFormed.configuration i hInstance).mapNumbers Json.Number.asRead
    rwa [Json.mapNumbers_object] at distinct

/-- A workspace whose numbers are legible is read from its text with the numbers that are read, if
the text nests to a depth of at most 127. -/
theorem ofBytes_toBytes_of_legible (wellFormed : workspace.WellFormed)
    (legible : workspace.toJson.Legible) (shallow : workspace.toJson.depth ≤ 127) :
    ofBytes workspace.toBytes = .ok workspace.asRead := by
  have hDepth : workspace.asRead.toJson.depth ≤ 127 := by
    rwa [toJson_asRead, Json.asRead, Json.depth_mapNumbers]
  rw [ofBytes, toBytes, Workspace.text, Json.decodeBytes_render, legible.reread?_eq,
    Option.elim_some, ← toJson_asRead, decoder_toDocument wellFormed.asRead,
    if_pos (depth_toJson_le_iff.mp hDepth)]
  rfl

/-- The state is one of a version with some outputs, which each of the instances has and nothing
else. -/
structure Shows (workspace : Workspace) (version : Version) (outputs : Params) : Prop where
  version : workspace.stateVersion = .ok version
  outputs : ∀ name ∈ workspace.instanceNames, workspace.outputs name = .ok outputs
  others : ∀ name, name ∉ workspace.instanceNames →
    workspace.outputs name = .error (.instanceNotFound name)

theorem shows_of_document {version : Version} {outputs : Params}
    (hState : workspace.state = ToolState.document version outputs)
    (distinct : (Json.object outputs).Distinct) (faithful : (Json.object outputs).Faithful)
    (shallow : ∀ output ∈ outputs, output.2.depth ≤ 124) : workspace.Shows version outputs := by
  obtain ⟨state, hParse, hVersion, hValues⟩ :=
    ToolState.exists_parse_document distinct faithful shallow version
  have hRead : workspace.toolState = .ok state := by rw [toolState, hState, hParse]
  constructor
  · rw [stateVersion, hRead]
    exact hVersion
  · intro name hName
    rw [Workspace.outputs, if_pos (List.contains_iff_mem.mpr hName), hRead, ← hValues]
    rfl
  · intro name hName
    rw [Workspace.outputs, if_neg (mt List.contains_iff_mem.mp hName)]
    rfl

end Workspace

end ServiceBroker
