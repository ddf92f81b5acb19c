import ServiceBroker.Proofs.Definition.Variables
import ServiceBroker.Proofs.Text.Bytes
import ServiceBroker.Proofs.Workspace.Edits

/-! The input variables of a module: the names that its definitions declare, each once and in the
order of their octets. -/

namespace ServiceBroker

/-- A list and what is left of it without its repetitions have the same entries. -/
theorem mem_eraseReps_loop {α : Type} [BEq α] [LawfulBEq α] {last a : α} {rest before : List α} :
    a ∈ List.eraseRepsBy.loop (· == ·) last rest before ↔ a ∈ before ∨ a ∈ last :: rest := by
  induction rest generalizing last before with
  | nil => simp [List.eraseRepsBy.loop, or_comm]
  | cons next rest ih =>
      rw [List.eraseRepsBy.loop]
      cases hSame : last == next with
      | true =>
          obtain rfl := eq_of_beq hSame
          simp [ih]
      | false =>
          rw [ih]
          simp only [List.mem_cons]
          tauto

theorem mem_eraseReps {α : Type} [BEq α] [LawfulBEq α] {a : α} {entries : List α} :
    a ∈ entries.eraseReps ↔ a ∈ entries := by
  cases entries with
  | nil => rfl
  | cons first rest =>
      rw [List.eraseReps, List.eraseRepsBy, mem_eraseReps_loop]
      simp

/-- A configuration that gives some names their values has these and no others. -/
theorem Fields.get?_map {α : Type} (value : String → α) (names : List String) (name : String) :
    Fields.get? (names.map fun name => (name, value name)) name =
      if name ∈ names then some (value name) else none := by
  induction names with
  | nil => rfl
  | cons first names ih =>
      rw [List.map_cons, get?, List.lookup_cons]
      by_cases hSame : name = first
      · simp [hSame]
      · have hOther : (name == first) = false := by simpa using hSame
        simp only [hOther, List.mem_cons, hSame, false_or]
        exact ih

/-- The names that the definitions of a module declare, ascending in their octets. -/
structure Module.Inputs (m : Module) (names : List String) : Prop where
  ascending : names.Pairwise fun first second => Bytes.ofText first < Bytes.ofText second
  complete : ∀ name, name ∈ names ↔
    ∃ definition ∈ m.definitions, Definition.Declares definition.2.toList name.toList

namespace Workspace

variable {workspace : Workspace} {names : List String} {first : Module} {others : List Module}

theorem mem_inputs (hModules : workspace.modules = first :: others)
    (h : workspace.inputs = .ok names) (name : String) : name ∈ names ↔
      ∃ definition ∈ first.definitions, Definition.Declares definition.2.toList name.toList := by
  rw [inputs, hModules] at h
  cases h
  rw [mem_eraseReps, List.mem_mergeSort, List.mem_flatMap]
  refine exists_congr fun definition => and_congr_right fun _ => ?_
  rw [List.mem_map, ← Definition.mem_declared_iff]
  constructor
  · rintro ⟨declared, member, rfl⟩
    rwa [String.toList_ofList]
  · exact fun member => ⟨name.toList, member, String.ofList_toList⟩

/-- The input variables of a workspace are those of its first module. -/
theorem exists_of_inputs (h : workspace.inputs = .ok names) :
    ∃ first others, workspace.modules = first :: others ∧ first.Inputs names := by
  cases hModules : workspace.modules with
  | nil =>
      rw [inputs, hModules] at h
      cases h
  | cons first others =>
      exact ⟨first, others, rfl, (pairwise_inputs h).imp Bytes.ofText_lt_iff.mpr,
        mem_inputs hModules h⟩

/-- Without a module or an instance nothing can be restricted. -/
theorem exists_error_of_restrict (vars : Params)
    (h : workspace.modules = [] ∨ workspace.instances = []) :
    ∃ e, workspace.restrict vars = .error e := by
  cases hModules : workspace.modules with
  | nil =>
      refine ⟨.noModules, ?_⟩
      rw [restrict, inputs, hModules]
      rfl
  | cons first others =>
      have hInstances : workspace.instances = [] := h.resolve_left (by simp [hModules])
      refine ⟨.noInstances, ?_⟩
      rw [restrict, inputs, hModules]
      simp only [reconfigure, hInstances]
      rfl

end Workspace

end ServiceBroker
