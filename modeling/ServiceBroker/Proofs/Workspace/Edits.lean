import ServiceBroker.Proofs.Workspace.RoundTrip

/-! What the edits of a workspace keep. Every edit keeps definitions in order and names unique, and
what can be said of all values in the configurations can be said after an edit if it can be said of
the values that the edit brings. -/

namespace ServiceBroker

/-- What is left of a sorted list without its repetitions ascends. -/
theorem pairwise_eraseReps_loop {last : String} {rest before : List String}
    (sorted : (last :: rest).Pairwise (· ≤ ·)) (ascending : (last :: before).Pairwise (· > ·)) :
    (List.eraseRepsBy.loop (· == ·) last rest before).Pairwise (· < ·) := by
  induction rest generalizing last before with
  | nil =>
      rw [List.eraseRepsBy.loop]
      exact List.pairwise_reverse.mpr ascending
  | cons next rest ih =>
      obtain ⟨hLast, hRest⟩ := List.pairwise_cons.mp sorted
      rw [List.eraseRepsBy.loop]
      cases hSame : last == next with
      | true =>
          obtain ⟨-, hLater⟩ := List.pairwise_cons.mp hRest
          exact ih (List.pairwise_cons.mpr
            ⟨fun other hOther => hLast other (List.mem_cons_of_mem _ hOther), hLater⟩) ascending
      | false =>
          have hNext : last < next := lt_of_not_lt_of_ne
            (String.not_lt.mpr (hLast next List.mem_cons_self)) (by simpa using hSame)
          refine ih hRest (List.pairwise_cons.mpr ⟨fun other hOther => ?_, ascending⟩)
          rcases List.mem_cons.mp hOther with rfl | hBefore
          · exact hNext
          · exact String.lt_trans ((List.pairwise_cons.mp ascending).1 other hBefore) hNext

theorem pairwise_eraseReps {names : List String} (sorted : names.Pairwise (· ≤ ·)) :
    names.eraseReps.Pairwise (· < ·) := by
  cases names with
  | nil => exact List.Pairwise.nil
  | cons name names => exact pairwise_eraseReps_loop sorted (List.pairwise_singleton _ _)

namespace Workspace

variable {p q : Json → Prop} {workspace edited : Workspace} {vars : Params}

/-- The names of the input variables ascend. -/
theorem pairwise_inputs {names : List String} (h : workspace.inputs = .ok names) :
    names.Pairwise (· < ·) := by
  unfold inputs at h
  split at h
  · cases h
  · cases h
    refine pairwise_eraseReps ?_
    refine (List.pairwise_mergeSort (fun a b c hab hbc => ?_) (fun a b => ?_) _).imp
      fun hSorted => ?_
    · simp only [Bool.not_eq_true', decide_eq_false_iff_not, String.not_lt] at hab hbc ⊢
      exact String.le_trans hab hbc
    · simp only [Bool.or_eq_true, Bool.not_eq_true', decide_eq_false_iff_not, String.not_lt]
      exact String.le_total a b
    · simp only [Bool.not_eq_true', decide_eq_false_iff_not, String.not_lt] at hSorted
      exact hSorted

theorem nodup_inputs {names : List String} (h : workspace.inputs = .ok names) : names.Nodup := by
  refine (pairwise_inputs h).imp fun hBefore same => ?_
  rw [same] at hBefore
  exact String.lt_irrefl _ hBefore

/-- Definitions stand in order, no configuration names a value twice, and something holds of all its
values. -/
structure Holds (p : Json → Prop) (workspace : Workspace) : Prop where
  definitions : ∀ m ∈ workspace.modules, m.definitions.Ascending
  names : ∀ i ∈ workspace.instances, i.configuration.names.Nodup
  values : ∀ i ∈ workspace.instances, ∀ field ∈ i.configuration, p field.2

theorem Holds.mono (holds : workspace.Holds p) (weaker : ∀ value, p value → q value) :
    workspace.Holds q :=
  ⟨holds.definitions, holds.names, fun i hInstance field hField =>
    weaker _ (holds.values i hInstance field hField)⟩

/-- Only the configuration of the first instance is changed, to one that is as good. -/
theorem Holds.reconfigure (holds : workspace.Holds p) (once : vars.names.Nodup)
    (values : ∀ field ∈ vars, p field.2) (h : workspace.reconfigure vars = .ok edited) :
    edited.Holds p := by
  unfold Workspace.reconfigure at h
  split at h
  · cases h
  · next first rest hInstances =>
      cases h
      have hNames := holds.names
      have hValues := holds.values
      rw [hInstances] at hNames hValues
      exact ⟨holds.definitions, List.forall_mem_cons.mpr ⟨once, (List.forall_mem_cons.mp hNames).2⟩,
        List.forall_mem_cons.mpr ⟨values, (List.forall_mem_cons.mp hValues).2⟩⟩

theorem configure_eq_reconfigure {first : ModuleInstance} {rest : List ModuleInstance}
    (h : workspace.instances = first :: rest) :
    workspace.configure vars = workspace.reconfigure (first.configuration.merge vars) := by
  rw [configure, Workspace.reconfigure, h]

theorem Holds.configure (holds : workspace.Holds p) (values : ∀ field ∈ vars, p field.2)
    (h : workspace.configure vars = .ok edited) : edited.Holds p := by
  cases hInstances : workspace.instances with
  | nil =>
      rw [Workspace.configure, hInstances] at h
      cases h
  | cons first rest =>
      rw [configure_eq_reconfigure hInstances] at h
      have member : first ∈ workspace.instances := by simp [hInstances]
      refine holds.reconfigure (Fields.nodup_merge (holds.names first member)) ?_ h
      intro field hField
      rcases Fields.mem_of_mem_merge hField with hOld | hNew
      · exact holds.values first member field hOld
      · exact values field hNew

/-- Of the configuration of the first instance only the declared inputs are left. -/
theorem exists_of_restrict (h : workspace.restrict vars = .ok edited) :
    ∃ names first others, workspace.inputs = .ok names ∧ workspace.instances = first :: others ∧
      edited =
        { workspace with
          instances :=
            { first with
              configuration := names.map fun name => (name, (vars.get? name).getD .null) } ::
                others } := by
  obtain ⟨names, hNames, hEdit⟩ := exists_of_bind_eq_ok h
  unfold Workspace.reconfigure at hEdit
  split at hEdit
  · cases hEdit
  · next first others hInstances =>
      exact ⟨names, first, others, hNames, hInstances, (Except.ok.inj hEdit).symm⟩

theorem Holds.restrict (holds : workspace.Holds p) (null : p .null)
    (values : ∀ field ∈ vars, p field.2) (h : workspace.restrict vars = .ok edited) :
    edited.Holds p := by
  obtain ⟨names, hNames, hEdit⟩ := exists_of_bind_eq_ok h
  refine holds.reconfigure ?_ ?_ hEdit
  · rw [Fields.names, List.map_map]
    simpa [Function.comp_def] using nodup_inputs hNames
  · intro field hField
    obtain ⟨name, -, rfl⟩ := List.mem_map.mp hField
    change p ((vars.get? name).getD .null)
    cases hValue : vars.get? name with
    | none => exact null
    | some value => exact values _ (Fields.mem_of_get? hValue)

theorem Holds.setMain (holds : workspace.Holds p) {text : String}
    (h : workspace.setMain text = .ok edited) : edited.Holds p := by
  unfold Workspace.setMain at h
  split at h
  · cases h
  · next first rest hModules =>
      cases h
      have hDefinitions := holds.definitions
      rw [hModules] at hDefinitions
      obtain ⟨hFirst, hRest⟩ := List.forall_mem_cons.mp hDefinitions
      exact ⟨List.forall_mem_cons.mpr ⟨hFirst.put, hRest⟩, holds.names, holds.values⟩

theorem instances_of_setMain {text : String} (h : workspace.setMain text = .ok edited) :
    edited.instances = workspace.instances := by
  unfold Workspace.setMain at h
  split at h
  · cases h
  · cases h
    rfl

/-- Configured variables are in the configuration of the first instance. -/
theorem exists_of_configure (once : vars.names.Nodup) (h : workspace.configure vars = .ok edited) :
    ∃ first ∈ edited.instances, ∀ field ∈ vars, field ∈ first.configuration := by
  unfold Workspace.configure at h
  split at h
  · cases h
  · next first rest hInstances =>
      cases h
      exact ⟨_, List.mem_cons_self, fun field hField => Fields.mem_merge once hField⟩

theorem holds_distinct_iff : workspace.Holds Json.Distinct ↔ workspace.WellFormed := by
  constructor
  · intro holds
    exact ⟨holds.definitions, fun i hInstance =>
      Json.distinct_object_iff.mpr ⟨holds.names i hInstance, holds.values i hInstance⟩⟩
  · intro wellFormed
    have hAll (i : ModuleInstance) (hInstance : i ∈ workspace.instances) :=
      Json.distinct_object_iff.mp (wellFormed.configuration i hInstance)
    exact ⟨wellFormed.definitions, fun i hInstance => (hAll i hInstance).1,
      fun i hInstance => (hAll i hInstance).2⟩

end Workspace

/-- No object within the value names a member twice, and every number reads back. -/
structure Json.Proper (value : Json) : Prop where
  distinct : value.Distinct
  faithful : value.Faithful

/-- A proper value that is nested no deeper than a stored workspace has room for. -/
structure Json.Storable (value : Json) : Prop where
  proper : value.Proper
  shallow : value.depth ≤ 123

namespace Workspace

variable {workspace : Workspace}

theorem holds_proper_iff :
    workspace.Holds Json.Proper ↔ workspace.WellFormed ∧ workspace.toJson.Faithful := by
  rw [← holds_distinct_iff, faithful_toJson_iff]
  constructor
  · intro holds
    exact ⟨holds.mono fun _ h => h.distinct, fun i hInstance field hField =>
      (holds.values i hInstance field hField).faithful⟩
  · rintro ⟨holds, faithful⟩
    exact ⟨holds.definitions, holds.names, fun i hInstance field hField =>
      ⟨holds.values i hInstance field hField, faithful i hInstance field hField⟩⟩

theorem holds_storable_iff :
    workspace.Holds Json.Storable ↔ workspace.Holds Json.Proper ∧ workspace.toJson.depth ≤ 127 := by
  rw [depth_toJson_le_iff]
  constructor
  · intro holds
    exact ⟨holds.mono fun _ h => h.proper, fun i hInstance field hField =>
      (holds.values i hInstance field hField).shallow⟩
  · rintro ⟨holds, shallow⟩
    exact ⟨holds.definitions, holds.names, fun i hInstance field hField =>
      ⟨holds.values i hInstance field hField, shallow i hInstance field hField⟩⟩

/-- A workspace whose values are proper is read back if its text nests to a depth of at most 127,
and cannot be read otherwise. -/
theorem Holds.ofBytes_toBytes (holds : workspace.Holds Json.Proper) :
    ofBytes workspace.toBytes =
      if workspace.toJson.depth ≤ 127 then .ok workspace
      else .error (.undecodable DecodeError.tooDeep.message) := by
  obtain ⟨wellFormed, faithful⟩ := holds_proper_iff.mp holds
  exact ofBytes_toBytes_eq wellFormed faithful

theorem Holds.readable_iff (holds : workspace.Holds Json.Proper) :
    ofBytes workspace.toBytes = .ok workspace ↔ workspace.toJson.depth ≤ 127 := by
  rw [holds.ofBytes_toBytes]
  split
  · next h => simp [h]
  · next h => simp [h]

/-- If a workspace whose values are proper can be read back, then it is read back as it is. -/
theorem Holds.eq_of_ofBytes {found : Workspace} (holds : workspace.Holds Json.Proper)
    (h : ofBytes workspace.toBytes = .ok found) : found = workspace := by
  rw [holds.ofBytes_toBytes] at h
  split at h
  · exact (Except.ok.inj h).symm
  · cases h

/-- What is read is storable if its numbers read back. -/
theorem holds_of_ofBytes {bytes : Bytes} (h : ofBytes bytes = .ok workspace)
    (faithful : workspace.toJson.Faithful) : workspace.Holds Json.Storable := by
  obtain ⟨wellFormed, hDepth⟩ := wellFormed_of_ofBytes h
  exact holds_storable_iff.mpr ⟨holds_proper_iff.mpr ⟨wellFormed, faithful⟩, hDepth⟩

end Workspace

end ServiceBroker
