import ServiceBroker.Workspace.Codec
import ServiceBroker.Proofs.Json.Shape

/-! What every workspace is like that is kept by names: its definitions stand in the order of their
names, and no configuration, nor anything within one, names a value twice. -/

namespace ServiceBroker

theorem lt_of_not_lt_of_ne {a b : String} (h : ¬b < a) (other : a ≠ b) : a < b := by
  refine Decidable.byContradiction fun hNot => other ?_
  exact String.le_antisymm (String.not_lt.mp h) (String.not_lt.mp hNot)

namespace Definitions

variable {definitions more : Definitions} {name text : String}

/-- The names stand in order, each once. -/
def Ascending (definitions : Definitions) : Prop :=
  definitions.Pairwise fun a b => a.1 < b.1

/-- What is there after a definition was put is that definition or was there before. -/
theorem mem_of_mem_put {entry : String × String} (h : entry ∈ definitions.put name text) :
    entry = (name, text) ∨ entry ∈ definitions := by
  induction definitions with
  | nil => exact .inl (List.mem_singleton.mp h)
  | cons head rest ih =>
      obtain ⟨known, old⟩ := head
      rw [put] at h
      split at h
      · exact (List.mem_cons.mp h).imp_right (List.mem_cons_of_mem _)
      · split at h
        · exact List.mem_cons.mp h
        · rcases List.mem_cons.mp h with rfl | hRest
          · exact .inr List.mem_cons_self
          · exact (ih hRest).imp_right (List.mem_cons_of_mem _)

theorem Ascending.put (ascending : definitions.Ascending) :
    (definitions.put name text).Ascending := by
  induction definitions with
  | nil => exact List.pairwise_singleton _ _
  | cons head rest ih =>
      obtain ⟨known, old⟩ := head
      obtain ⟨hHead, hRest⟩ := List.pairwise_cons.mp ascending
      rw [Definitions.put]
      split
      · next hSame =>
          subst hSame
          exact List.pairwise_cons.mpr ⟨hHead, hRest⟩
      split
      · next hBefore =>
          refine List.pairwise_cons.mpr ⟨fun entry hEntry => ?_, ascending⟩
          rcases List.mem_cons.mp hEntry with rfl | hLater
          · exact hBefore
          · exact String.lt_trans hBefore (hHead entry hLater)
      · next hOther hBehind =>
          refine List.pairwise_cons.mpr ⟨fun entry hEntry => ?_, ih hRest⟩
          rcases mem_of_mem_put hEntry with rfl | hOld
          · exact lt_of_not_lt_of_ne hBehind (Ne.symm hOther)
          · exact hHead entry hOld

/-- A name behind all others joins at the end. -/
theorem put_of_behind (h : ∀ entry ∈ definitions, entry.1 < name) :
    definitions.put name text = definitions ++ [(name, text)] := by
  induction definitions with
  | nil => rfl
  | cons head rest ih =>
      obtain ⟨known, old⟩ := head
      obtain ⟨hHead, hRest⟩ := List.forall_mem_cons.mp h
      have hOther : name ≠ known := fun same => String.lt_irrefl known (same ▸ hHead)
      rw [put, if_neg hOther, if_neg (String.lt_asymm hHead), ih hRest, List.cons_append]

/-- Definitions, and then others put among them, one after another. -/
def putAll (definitions : Definitions) (pairs : List (String × String)) : Definitions :=
  pairs.foldl (fun all (name, text) => all.put name text) definitions

theorem ascending_putAll {pairs : List (String × String)} (ascending : definitions.Ascending) :
    (definitions.putAll pairs).Ascending := by
  induction pairs generalizing definitions with
  | nil => exact ascending
  | cons pair pairs ih => exact ih ascending.put

theorem ascending_ofPairs (pairs : List (String × String)) : (ofPairs pairs).Ascending :=
  ascending_putAll List.Pairwise.nil

theorem putAll_of_ascending (ascending : Ascending (definitions ++ more)) :
    definitions.putAll more = definitions ++ more := by
  induction more generalizing definitions with
  | nil => exact (List.append_nil definitions).symm
  | cons entry more ih =>
      have hBehind : ∀ known ∈ definitions, known.1 < entry.1 := fun known hKnown =>
        (List.pairwise_append.mp ascending).2.2 known hKnown entry List.mem_cons_self
      change (definitions.put entry.1 entry.2).putAll more = _
      rw [put_of_behind hBehind, ih (by simpa [Ascending] using ascending), List.append_assoc,
        List.singleton_append]

/-- Definitions in order are put together as they are. -/
theorem ofPairs_of_ascending (ascending : definitions.Ascending) :
    ofPairs definitions = definitions := by
  change putAll [] definitions = [] ++ definitions
  exact putAll_of_ascending ascending

theorem Ascending.nodup (ascending : definitions.Ascending) :
    (Fields.names definitions).Nodup := by
  refine List.pairwise_map.mpr (ascending.imp ?_)
  intro a b hBefore same
  rw [same] at hBefore
  exact String.lt_irrefl _ hBefore

end Definitions

/-- Nothing in the workspace is named twice, and its definitions stand in order. -/
structure Workspace.WellFormed (workspace : Workspace) : Prop where
  definitions : ∀ m ∈ workspace.modules, m.definitions.Ascending
  configuration : ∀ i ∈ workspace.instances, (Json.object i.configuration).Distinct

end ServiceBroker
