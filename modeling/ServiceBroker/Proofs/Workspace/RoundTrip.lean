import ServiceBroker.Proofs.Document.Decoding
import ServiceBroker.Proofs.Workspace.Codec
import ServiceBroker.Proofs.Workspace.WellFormed

/-! Workspaces read back. A workspace whose numbers read back is read as it was written if its text
nests to a depth of at most 127, and cannot be read otherwise. A workspace that was read from
anything is nested no deeper, so it reads back. -/

namespace ServiceBroker

open Decoder

/-- No value in the configuration of the instance is nested deeper. -/
def ModuleInstance.FitsIn (room : Nat) (i : ModuleInstance) : Prop :=
  ∀ field ∈ i.configuration, field.2.depth ≤ room

instance (room : Nat) : DecidablePred (ModuleInstance.FitsIn room) := fun i =>
  inferInstanceAs (Decidable (∀ field ∈ i.configuration, field.2.depth ≤ room))

namespace Workspace

theorem moduleDecoder_members (room : Nat) (name : String) (definitions : Document) :
    moduleDecoder { room := room + 1, positional := true }
        (.mapping [(some "name", .scalar (.ofText name)), (some "definitions", definitions)]) = do
      let found ← fields Decoder.text { room, positional := true } definitions
      return { name, definitions := Definitions.ofPairs found } :=
  rfl

theorem instanceDecoder_members (room : Nat) (moduleName name : String) (configuration : Document) :
    instanceDecoder { room := room + 1, positional := true }
        (.mapping [(some "module_name", .scalar (.ofText moduleName)),
          (some "instance_name", .scalar (.ofText name)),
          (some "configuration", configuration)]) = do
      let found ← params { room, positional := true } configuration
      return { moduleName, name, configuration := found } :=
  rfl

theorem moduleDecoder_toDocument {m : Module} (ascending : m.definitions.Ascending) (room : Nat) :
    moduleDecoder { room := room + 2, positional := true } (moduleToJson m).toDocument = .ok m := by
  have hTexts := fields_toDocument Decoder.text Json.string (fun _ => True) room ascending.nodup
    fun _ _ => rfl
  refine (moduleDecoder_members (room + 1) _ _).trans ?_
  rw [hTexts, if_pos fun _ _ => trivial]
  change Except.ok { m with definitions := Definitions.ofPairs m.definitions } = _
  rw [Definitions.ofPairs_of_ascending ascending]

theorem instanceDecoder_toDocument {i : ModuleInstance}
    (distinct : (Json.object i.configuration).Distinct) (room : Nat) :
    instanceDecoder { room := room + 2, positional := true } (instanceToJson i).toDocument =
      if i.FitsIn room then .ok i else .error .tooDeep := by
  obtain ⟨once, hValues⟩ := Json.distinct_object_iff.mp distinct
  have hParams := fields_toDocument json id (fun v => v.depth ≤ room) room once
    fun field hField => value_toDocument (hValues field hField) room
  simp only [id, List.map_id'] at hParams
  refine (instanceDecoder_members (room + 1) _ _ _).trans ?_
  by_cases fits : ∀ field ∈ i.configuration, field.2.depth ≤ room
  · rw [params, hParams, if_pos fits]
    exact (if_pos (c := i.FitsIn room) fits).symm
  · rw [params, hParams, if_neg fits]
    exact (if_neg (c := i.FitsIn room) fits).symm

end Workspace

namespace Parameterization

theorem mappingDecoder_toDocument (mapping : ParameterMapping) (room : Nat) :
    mappingDecoder { room := room + 1, positional := true } (mappingToJson mapping).toDocument =
      .ok mapping :=
  rfl

theorem decoder_members (room : Nat) (mappings removals additions : Document) :
    decoder { room := room + 1, positional := true }
        (.mapping [(some "parameter_mappings", mappings), (some "parameters_to_remove", removals),
          (some "parameters_to_add", additions)]) = do
      let mappings ← list mappingDecoder { room, positional := true } mappings
      let removals ← list text { room, positional := true } removals
      let additions ← list mappingDecoder { room, positional := true } additions
      return { mappings, removals, additions } :=
  rfl

theorem decoder_toDocument (scheme : Parameterization) (room : Nat) :
    decoder { room := room + 3, positional := true } scheme.toJson.toDocument = .ok scheme := by
  have hMappings (mappings : List ParameterMapping) :=
    list_toDocument mappingDecoder mappingToJson (fun _ => True) (room + 1) mappings
      fun mapping _ => mappingDecoder_toDocument mapping room
  have hRemovals :=
    list_toDocument text Json.string (fun _ => True) (room + 1) scheme.removals fun _ _ => rfl
  refine (decoder_members (room + 2) _ _ _).trans ?_
  rw [hMappings, hMappings, hRemovals]
  simp only [implies_true, if_true]
  rfl

end Parameterization

namespace Workspace

/-- No value in the configuration of an instance is nested deeper than a stored workspace has room
for. -/
def Shallow (workspace : Workspace) : Prop :=
  ∀ i ∈ workspace.instances, i.FitsIn 123

instance : DecidablePred Shallow := fun workspace =>
  inferInstanceAs (Decidable (∀ i ∈ workspace.instances, i.FitsIn 123))

variable {workspace : Workspace}

theorem decoder_toDocument (wellFormed : workspace.WellFormed) :
    decoder .json workspace.toJson.toDocument =
      if workspace.Shallow then .ok workspace else .error .tooDeep := by
  have hModules :=
    list_toDocument moduleDecoder moduleToJson (fun _ => True) 125 workspace.modules
      fun m hModule => moduleDecoder_toDocument (wellFormed.definitions m hModule) 123
  have hInstances :=
    list_toDocument instanceDecoder instanceToJson (·.FitsIn 123) 125 workspace.instances
      fun i hInstance => instanceDecoder_toDocument (wellFormed.configuration i hInstance) 123
  have hTransform := Parameterization.decoder_toDocument workspace.parameterization 123
  refine (decoder_members _ _ _ _).trans ?_
  dsimp only
  rw [hModules, if_pos fun _ _ => trivial, hTransform]
  by_cases shallow : ∀ i ∈ workspace.instances, i.FitsIn 123
  · rw [hInstances, if_pos shallow]
    exact (if_pos (c := workspace.Shallow) shallow).symm
  · rw [hInstances, if_neg shallow]
    exact (if_neg (c := workspace.Shallow) shallow).symm

theorem depth_toJson_le_iff : workspace.toJson.depth ≤ 127 ↔ workspace.Shallow := by
  have hModule (m : Module) : (moduleToJson m).depth ≤ 124 + 1 := by
    simp only [moduleToJson, Json.depth_object_le_iff, List.forall_mem_cons, List.forall_mem_map,
      Json.depth_string]
    simp
  have hInstance (i : ModuleInstance) : (instanceToJson i).depth ≤ 124 + 1 ↔ i.FitsIn 123 := by
    simp [instanceToJson, Json.depth_object_le_iff, ModuleInstance.FitsIn]
  have hMapping (mapping : ParameterMapping) :
      (Parameterization.mappingToJson mapping).depth ≤ 123 + 1 := by
    simp [Parameterization.mappingToJson, Json.depth_object_le_iff]
  have hTransform : workspace.parameterization.toJson.depth ≤ 125 + 1 := by
    simp [Parameterization.toJson, Json.depth_object_le_iff, Json.depth_array_le_iff,
      hMapping]
  simp [toJson, Json.depth_object_le_iff, Json.depth_array_le_iff, hModule, hInstance, hTransform,
    Bytes.toJson, Shallow]

/-- The text of a workspace is read as that workspace if it nests to a depth of at most 127, and is
nested too deeply otherwise. -/
theorem ofBytes_toBytes_eq (wellFormed : workspace.WellFormed)
    (faithful : workspace.toJson.Faithful) :
    ofBytes workspace.toBytes =
      if workspace.toJson.depth ≤ 127 then .ok workspace
      else .error (.undecodable DecodeError.tooDeep.message) := by
  rw [ofBytes, toBytes, Workspace.text, Json.decodeBytes_render, faithful.reread?_eq,
    Option.elim_some, decoder_toDocument wellFormed]
  by_cases shallow : workspace.Shallow
  · rw [if_pos shallow, if_pos (depth_toJson_le_iff.mpr shallow)]
    rfl
  · rw [if_neg shallow, if_neg (shallow ∘ depth_toJson_le_iff.mp)]
    rfl

theorem yields_moduleDecoder : Yields moduleDecoder fun _ m => m.definitions.Ascending := by
  unfold moduleDecoder
  refine Yields.record (p := fun _ (m : Module) => m.definitions.Ascending) ?_
  intro dialect form m plain hBuild
  obtain ⟨name, -, hBuild⟩ := exists_of_bind_eq_ok hBuild
  obtain ⟨pairs, -, hBuild⟩ := exists_of_bind_eq_ok hBuild
  cases hBuild
  exact Definitions.ascending_ofPairs pairs

theorem yields_instanceDecoder :
    Yields instanceDecoder fun room i =>
      (Json.object i.configuration).Distinct ∧ i.FitsIn (room - 1 - 1) := by
  unfold instanceDecoder
  refine Yields.record
    (p := fun room (i : ModuleInstance) =>
      (Json.object i.configuration).Distinct ∧ i.FitsIn (room - 1)) ?_
  intro dialect form i plain hBuild
  obtain ⟨moduleName, -, hBuild⟩ := exists_of_bind_eq_ok hBuild
  obtain ⟨name, -, hBuild⟩ := exists_of_bind_eq_ok hBuild
  obtain ⟨configuration, hRead, hBuild⟩ := exists_of_bind_eq_ok hBuild
  cases hBuild
  rcases yields_json.fields.defaulted plain hRead with rfl | ⟨once, hAll⟩
  · exact ⟨Json.distinct_object_iff.mpr ⟨List.nodup_nil, by simp⟩, fun _ h => by cases h⟩
  · exact ⟨Json.distinct_object_iff.mpr ⟨once, fun field hField => (hAll field hField).2⟩,
      fun field hField => (hAll field hField).1⟩

theorem yields_decoder :
    Yields decoder fun room workspace =>
      workspace.WellFormed ∧ ∀ i ∈ workspace.instances, i.FitsIn (room - 1 - 1 - 1 - 1) := by
  unfold decoder
  refine Yields.record
    (p := fun room (workspace : Workspace) =>
      workspace.WellFormed ∧ ∀ i ∈ workspace.instances, i.FitsIn (room - 1 - 1 - 1)) ?_
  intro dialect form workspace plain hBuild
  obtain ⟨modules, hModules, hBuild⟩ := exists_of_bind_eq_ok hBuild
  obtain ⟨instances, hInstances, hBuild⟩ := exists_of_bind_eq_ok hBuild
  obtain ⟨parameterization, -, hBuild⟩ := exists_of_bind_eq_ok hBuild
  obtain ⟨state, -, hBuild⟩ := exists_of_bind_eq_ok hBuild
  cases hBuild
  have hAll := yields_instanceDecoder.list.required plain hInstances
  exact ⟨⟨yields_moduleDecoder.list.required plain hModules, fun i h => (hAll i h).1⟩,
    fun i h => (hAll i h).2⟩

/-- Every workspace that is read is well formed, and nested no deeper than it may be written. -/
theorem wellFormed_of_ofBytes {bytes : Bytes} (h : ofBytes bytes = .ok workspace) :
    workspace.WellFormed ∧ workspace.toJson.depth ≤ 127 := by
  rw [ofBytes, mapError_eq_ok_iff] at h
  obtain ⟨wellFormed, hFits⟩ := yields_decoder.decodeBytes h
  exact ⟨wellFormed, depth_toJson_le_iff.mpr hFits⟩

/-- What can be said of all values that are no numbers holds throughout a workspace if it holds of
the values in its configurations. -/
theorem throughout_toJson_iff {p : Json → Prop} (h : ∀ value, (∀ n, value ≠ .number n) → p value) :
    workspace.toJson.Throughout p ↔
      ∀ i ∈ workspace.instances, ∀ field ∈ i.configuration, field.2.Throughout p := by
  have hString (s : String) : p (.string s) := h _ (by simp)
  have hArray (items : List Json) : p (.array items) := h _ (by simp)
  have hObject (members : List (String × Json)) : p (.object members) := h _ (by simp)
  have hModule (m : Module) : (moduleToJson m).Throughout p := by
    simp only [moduleToJson, Json.throughout_object_iff, List.forall_mem_cons, List.forall_mem_map,
      Json.throughout_string_iff]
    simp [hString, hObject]
  have hInstance (i : ModuleInstance) :
      (instanceToJson i).Throughout p ↔ ∀ field ∈ i.configuration, field.2.Throughout p := by
    simp [instanceToJson, Json.throughout_object_iff, hString, hObject]
  have hMapping (mapping : ParameterMapping) :
      (Parameterization.mappingToJson mapping).Throughout p := by
    simp [Parameterization.mappingToJson, Json.throughout_object_iff, hString, hObject]
  have hTransform : workspace.parameterization.toJson.Throughout p := by
    simp [Parameterization.toJson, Json.throughout_object_iff, Json.throughout_array_iff, hMapping,
      hString, hArray, hObject]
  simp [toJson, Json.throughout_object_iff, Json.throughout_array_iff, hModule, hInstance,
    hTransform, Bytes.toJson, hString, hArray, hObject]

theorem integral_toJson_iff :
    workspace.toJson.Integral ↔
      ∀ i ∈ workspace.instances, ∀ field ∈ i.configuration, field.2.Integral := by
  refine throughout_toJson_iff fun value hNumber => ?_
  cases value with
  | number n => exact (hNumber n rfl).elim
  | null | bool | string | array | object => trivial

theorem faithful_toJson_iff :
    workspace.toJson.Faithful ↔
      ∀ i ∈ workspace.instances, ∀ field ∈ i.configuration, field.2.Faithful := by
  refine throughout_toJson_iff fun value hNumber => ?_
  cases value with
  | number n => exact (hNumber n rfl).elim
  | null | bool | string | array | object => trivial

/-- A well-formed workspace whose numbers are integers of 64 bits is read back from its text if that
nests to a depth of at most 127. Whatever octets a workspace was read from, it is well formed and
its text nests no deeper; so if its numbers are such integers it is read back from its text as the
same workspace, with the same names in the same order, and is written as the same text again. -/
theorem round_trip :
    (∀ workspace : Workspace, workspace.WellFormed → workspace.toJson.Integral →
      workspace.toJson.depth ≤ 127 → ofBytes workspace.toBytes = .ok workspace) ∧
    ∀ (bytes : Bytes) (workspace : Workspace), ofBytes bytes = .ok workspace →
      workspace.toJson.Integral →
      workspace.WellFormed ∧ workspace.toJson.depth ≤ 127 ∧
        ∃ again, ofBytes workspace.toBytes = .ok again ∧ again = workspace ∧
          again.toBytes = workspace.toBytes := by
  have hBack (workspace : Workspace) (wellFormed : workspace.WellFormed)
      (integral : workspace.toJson.Integral) (hDepth : workspace.toJson.depth ≤ 127) :
      ofBytes workspace.toBytes = .ok workspace := by
    rw [ofBytes_toBytes_eq wellFormed integral.faithful, if_pos hDepth]
  refine ⟨hBack, fun bytes workspace hRead integral => ?_⟩
  obtain ⟨wellFormed, hDepth⟩ := wellFormed_of_ofBytes hRead
  exact ⟨wellFormed, hDepth, workspace, hBack workspace wellFormed integral hDepth, rfl, rfl⟩

/-- Octets in which records are arrays, a member is unknown and no text, a name comes twice, and what
has a default is left out. -/
def terseBytes : Bytes :=
  Bytes.ofText "\x7b\"x\":\"" ++
    255 :: Bytes.ofText
      "\",\"instances\":[[\"m\",\"d\",\x7b\"b\":1,\"a\":[-2],\"b\":3\x7d]],\"modules\":[[\"m\"]]\x7d"

/-- The workspace that the terse octets are read as. -/
def terse : Workspace where
  modules := [{ name := "m" }]
  instances := [{
    moduleName := "m"
    name := "d"
    configuration := [("b", .number (.integer 3)), ("a", .array [.number (.integer (-2))])] }]

set_option maxRecDepth 8000 in
theorem ofBytes_terse : ofBytes terseBytes = .ok terse := by
  rw [ofBytes, mapError_eq_ok_iff, Json.decodeBytes, Json.readOctets?, terseBytes,
    Bytes.characters_ofText_append, Bytes.characters_stray_cons _ (by decide),
    Bytes.characters_ofText]
  simp only [String.reduceToList]
  rfl

theorem round_trip_terse :
    ofBytes terseBytes = .ok terse ∧ terse.toJson.Integral ∧
      terse.WellFormed ∧ terse.toJson.depth ≤ 127 ∧ ofBytes terse.toBytes = .ok terse := by
  have integral : terse.toJson.Integral := by
    rw [integral_toJson_iff]
    simp only [terse, List.forall_mem_cons, Json.Integral, Json.throughout_array_iff,
      Json.throughout_number_iff]
    simp [Json.Number.keeps]
  obtain ⟨hWritten, hAccepted⟩ := round_trip
  obtain ⟨wellFormed, hDepth, -⟩ := hAccepted _ _ ofBytes_terse integral
  exact ⟨ofBytes_terse, integral, wellFormed, hDepth,
    hWritten _ wellFormed integral hDepth⟩

end Workspace

end ServiceBroker
