import Mathlib.Logic.Function.Basic
import ServiceBroker.Fields

/-! Which fields are there after others were put in, and when putting them together changes nothing.
-/

namespace ServiceBroker.Fields

variable {α : Type} {fields more : Fields α} {name : String} {value : α} {field : String × α}

theorem mem_of_get? (h : fields.get? name = some value) : (name, value) ∈ fields := by
  obtain ⟨before, after, hSplit, -⟩ := List.lookup_eq_some_iff.mp h
  rw [hSplit]
  exact List.mem_append_right _ List.mem_cons_self

theorem put_of_not_mem (h : name ∉ fields.names) :
    fields.put name value = fields ++ [(name, value)] := by
  induction fields with
  | nil => rfl
  | cons head rest ih =>
      obtain ⟨known, old⟩ := head
      obtain ⟨hHead, hRest⟩ := List.ne_and_not_mem_of_not_mem_cons h
      rw [put, if_neg (Ne.symm hHead), ih hRest, List.cons_append]

theorem mem_put_self : (name, value) ∈ fields.put name value := by
  induction fields with
  | nil => exact List.mem_cons_self
  | cons head rest ih =>
      obtain ⟨known, old⟩ := head
      rw [put]
      split
      · exact List.mem_cons_self
      · exact List.mem_cons_of_mem _ ih

theorem mem_put_of_ne (h : field ∈ fields) (other : field.1 ≠ name) :
    field ∈ fields.put name value := by
  induction fields with
  | nil => cases h
  | cons head rest ih =>
      obtain ⟨known, old⟩ := head
      rw [put]
      rcases List.mem_cons.mp h with rfl | hRest
      · rw [if_neg other]
        exact List.mem_cons_self
      · split
        · exact List.mem_cons_of_mem _ hRest
        · exact List.mem_cons_of_mem _ (ih hRest)

/-- What is there after a field was put is that field or was there before. -/
theorem mem_of_mem_put (h : field ∈ fields.put name value) :
    field = (name, value) ∨ field ∈ fields := by
  induction fields with
  | nil => exact .inl (List.mem_singleton.mp h)
  | cons head rest ih =>
      obtain ⟨known, old⟩ := head
      rw [put] at h
      split at h
      · rcases List.mem_cons.mp h with hHead | hRest
        · exact .inl hHead
        · exact .inr (List.mem_cons_of_mem _ hRest)
      · rcases List.mem_cons.mp h with rfl | hRest
        · exact .inr List.mem_cons_self
        · exact (ih hRest).imp_right (List.mem_cons_of_mem _)

theorem nodup_put (h : fields.names.Nodup) : (fields.put name value).names.Nodup := by
  rw [names_put]
  split
  · exact h
  · next hNew =>
      refine List.nodup_append.mpr ⟨h, by simp, fun known hKnown new hMember => ?_⟩
      rw [List.mem_singleton.mp hMember]
      exact fun same => hNew (same ▸ hKnown)

theorem nodup_merge (h : fields.names.Nodup) : (fields.merge more).names.Nodup := by
  induction more generalizing fields with
  | nil => exact h
  | cons field more ih => exact ih (nodup_put h)

theorem nodup_ofPairs (pairs : List (String × α)) : (ofPairs pairs).names.Nodup :=
  nodup_merge List.nodup_nil

/-- What is there after a merge was there before or was merged in. -/
theorem mem_of_mem_merge (h : field ∈ fields.merge more) : field ∈ fields ∨ field ∈ more := by
  induction more generalizing fields with
  | nil => exact .inl h
  | cons next more ih =>
      rcases ih h with hPut | hMore
      · rcases mem_of_mem_put hPut with rfl | hOld
        · exact .inr List.mem_cons_self
        · exact .inl hOld
      · exact .inr (List.mem_cons_of_mem _ hMore)

theorem mem_of_mem_ofPairs {pairs : List (String × α)} (h : field ∈ ofPairs pairs) :
    field ∈ pairs := by
  rcases mem_of_mem_merge h with hNone | hPair
  · cases hNone
  · exact hPair

theorem mem_merge_of_not_mem (h : field ∈ fields) (kept : field.1 ∉ more.names) :
    field ∈ fields.merge more := by
  induction more generalizing fields with
  | nil => exact h
  | cons next more ih =>
      obtain ⟨hNext, hMore⟩ := List.ne_and_not_mem_of_not_mem_cons kept
      exact ih (mem_put_of_ne h hNext) hMore

/-- Everything that is merged in is there, if no name comes twice. -/
theorem mem_merge (once : more.names.Nodup) (h : field ∈ more) : field ∈ fields.merge more := by
  induction more generalizing fields with
  | nil => cases h
  | cons next more ih =>
      obtain ⟨hNext, hMore⟩ := List.nodup_cons.mp once
      rcases List.mem_cons.mp h with rfl | hLater
      · change field ∈ (fields.put field.1 field.2).merge more
        exact mem_merge_of_not_mem mem_put_self hNext
      · exact ih hMore hLater

/-- Merging new fields joins them at the end. -/
theorem merge_of_nodup (once : (fields ++ more).names.Nodup) :
    fields.merge more = fields ++ more := by
  induction more generalizing fields with
  | nil => exact (List.append_nil fields).symm
  | cons next more ih =>
      have hNew : next.1 ∉ fields.names := by
        rw [names, List.map_append, List.nodup_append] at once
        exact fun hKnown => once.2.2 _ hKnown _ (by simp) rfl
      have hPut : fields.put next.1 next.2 = fields ++ [next] := put_of_not_mem hNew
      change (fields.put next.1 next.2).merge more = _
      rw [hPut, ih (by simpa using once), List.append_assoc, List.singleton_append]

/-- What is merged in counts before what was there, and the last value of a name counts. -/
theorem get?_merge (fields more : Fields α) (name : String) :
    (fields.merge more).get? name = ((ofPairs more).get? name).or (fields.get? name) := by
  induction more generalizing fields with
  | nil => rfl
  | cons next more ih =>
      obtain ⟨known, value⟩ := next
      have hPut : (fields.put known value).get? name =
          (get? (put [] known value) name).or (fields.get? name) := by
        by_cases h : name = known
        · rw [h, get?_put_self, get?_put_self, Option.some_or]
        · rw [get?_put_of_ne _ _ h, get?_put_of_ne _ _ h]
          rfl
      calc ((fields.put known value).merge more).get? name
          = ((ofPairs more).get? name).or ((fields.put known value).get? name) := ih _
        _ = (((ofPairs more).get? name).or (get? (put [] known value) name)).or
              (fields.get? name) := by rw [hPut, Option.or_assoc]
        _ = _ := by
          rw [← ih]
          rfl

/-- Of pairs that are put together, those that come later count first. -/
theorem get?_ofPairs_append (first second : List (String × α)) (name : String) :
    (ofPairs (first ++ second)).get? name =
      ((ofPairs second).get? name).or ((ofPairs first).get? name) := by
  have hMerge : ofPairs (first ++ second) = (ofPairs first).merge second := List.foldl_append
  rw [hMerge, get?_merge]

theorem get?_ofPairs_append_cons (before after : List (String × α)) (name : String) (value : α) :
    (ofPairs (before ++ (name, value) :: after)).get? name =
      ((ofPairs after).get? name).or (some value) := by
  have hPut : ofPairs (before ++ [(name, value)]) = (ofPairs before).put name value :=
    List.foldl_append
  rw [← List.singleton_append, ← List.append_assoc, get?_ofPairs_append, hPut, get?_put_self]

theorem get?_ofPairs_eq_none {pairs : List (String × α)} (h : ∀ value, (name, value) ∉ pairs) :
    (ofPairs pairs).get? name = none := by
  refine Option.eq_none_iff_forall_ne_some.mpr fun value hValue => ?_
  exact h value (mem_of_mem_ofPairs (mem_of_get? hValue))

/-- What was there keeps its place in a merge. -/
theorem names_prefix_merge (fields more : Fields α) :
    fields.names <+: (fields.merge more).names := by
  induction more generalizing fields with
  | nil => exact List.prefix_refl _
  | cons next more ih =>
      have hPut : fields.names <+: (fields.put next.1 next.2).names := by
        rw [names_put]
        split
        · exact List.prefix_refl _
        · exact List.prefix_append _ _
      exact hPut.trans (ih _)

/-- Fields with different names are put together as they are. -/
theorem ofPairs_of_nodup (once : fields.names.Nodup) : ofPairs fields = fields := by
  change merge [] fields = [] ++ fields
  exact merge_of_nodup once

theorem mem_names_iff : name ∈ fields.names ↔ (fields.get? name).isSome := by
  rw [names, get?, List.lookup_isSome_iff]
  simp

theorem get?_eq_none_of_not_mem (h : name ∉ fields.names) : fields.get? name = none := by
  rw [mem_names_iff] at h
  simpa using h

theorem nodup_erase (h : fields.names.Nodup) : (fields.erase name).names.Nodup := by
  rw [names_erase]
  exact h.filter _

theorem get?_cons (known : String) (old : α) (rest : Fields α) (name : String) :
    get? ((known, old) :: rest) name = if known = name then some old else rest.get? name := by
  rw [get?, List.lookup_cons]
  by_cases h : known = name
  · simp [h]
  · have hOther : (name == known) = false := by simpa using Ne.symm h
    rw [hOther, if_neg h]
    rfl

theorem erase_cons (known : String) (old : α) (rest : Fields α) (name : String) :
    erase ((known, old) :: rest) name =
      if known = name then rest.erase name else (known, old) :: rest.erase name := by
  by_cases h : known = name <;> simp [erase, h]

theorem erase_of_not_mem (h : name ∉ fields.names) : fields.erase name = fields := by
  refine List.filter_eq_self.mpr fun field hField => ?_
  have hOther : field.1 ≠ name := fun same => h (same ▸ List.mem_map_of_mem hField)
  simpa using hOther

theorem erase_of_get?_eq_none (h : fields.get? name = none) : fields.erase name = fields := by
  refine erase_of_not_mem ?_
  rw [mem_names_iff, h]
  exact nofun

/-- What is erased may have been put before. -/
@[simp]
theorem erase_put_self : (fields.put name value).erase name = fields.erase name := by
  induction fields with
  | nil => simp [put, erase]
  | cons head rest ih =>
      obtain ⟨known, old⟩ := head
      rw [put, erase_cons]
      split
      · rw [erase_cons, if_pos rfl]
      · next hOther => rw [erase_cons, if_neg hOther, ih]

theorem erase_put_of_ne {other : String} (h : name ≠ other) :
    (fields.put name value).erase other = (fields.erase other).put name value := by
  induction fields with
  | nil => simp [put, erase, h]
  | cons head rest ih =>
      obtain ⟨known, old⟩ := head
      rw [put, erase_cons]
      split
      · next hKnown =>
          rw [erase_cons, if_neg h, if_neg (hKnown ▸ h), put, if_pos hKnown]
      · next hKnown =>
          rw [erase_cons, ih]
          split
          · rfl
          · rw [put, if_neg hKnown]

/-- The last value that was put counts. -/
@[simp]
theorem put_put_self {later : α} :
    (fields.put name value).put name later = fields.put name later := by
  induction fields with
  | nil => simp [put]
  | cons head rest ih =>
      obtain ⟨known, old⟩ := head
      rw [put, put]
      split
      · rw [put, if_pos rfl]
      · next hOther => rw [put, if_neg hOther, ih]

section Image

variable {β : Type} {rename : String → String} {f : α → β}

/-- The fields under other names, with other values. -/
def image (rename : String → String) (f : α → β) (fields : Fields α) : Fields β :=
  fields.map fun field => (rename field.1, f field.2)

@[simp]
theorem names_image : (fields.image rename f).names = fields.names.map rename := by
  simp [names, image]

variable (injective : rename.Injective)

include injective

theorem get?_image : (fields.image rename f).get? (rename name) = (fields.get? name).map f := by
  induction fields with
  | nil => rfl
  | cons head rest ih =>
      obtain ⟨known, old⟩ := head
      change get? ((rename known, f old) :: image rename f rest) _ = _
      rw [get?_cons, get?_cons, ih]
      simp only [injective.eq_iff]
      split <;> rfl

theorem put_image : (fields.image rename f).put (rename name) (f value) =
    (fields.put name value).image rename f := by
  induction fields with
  | nil => rfl
  | cons head rest ih =>
      obtain ⟨known, old⟩ := head
      change put ((rename known, f old) :: image rename f rest) _ _ = _
      rw [put, put, ih]
      simp only [injective.eq_iff]
      split <;> rfl

theorem erase_image : (fields.image rename f).erase (rename name) =
    (fields.erase name).image rename f := by
  induction fields with
  | nil => rfl
  | cons head rest ih =>
      obtain ⟨known, old⟩ := head
      change erase ((rename known, f old) :: image rename f rest) _ = _
      rw [erase_cons, erase_cons, ih]
      simp only [injective.eq_iff]
      split <;> rfl

end Image

end ServiceBroker.Fields
