import Mathlib.Order.Nat
import ServiceBroker.Proofs.Json.Shape

/-! Values whose numbers can be read. The text of a double-precision number need not be read as the
number that was written, and nothing that holds a number out of range can be read at all. A value in
which each number can be read is read as a value of the same form, in which each number is what its
text is read as. -/

namespace ServiceBroker.Json

namespace Number

/-- The number that the text of a number is read as, unless it is out of range. -/
def reread? (n : Number) : Option Number :=
  (Written.ofText? n.text).bind Written.number?

/-- The text of the number can be read as some number. -/
def Legible (n : Number) : Prop :=
  n.reread?.isSome

/-- The number that the text of a legible number is read as. -/
def asRead (n : Number) : Number :=
  n.reread?.getD n

variable {n : Number}

theorem value_ofNumber (found : Option Number) :
    (Scalar.ofNumber found).value = found.map Json.number := by
  rcases found with _ | _ | _ <;> rfl

theorem ReadsBack.reread?_eq (h : n.ReadsBack) : n.reread? = some n := by
  rw [ReadsBack, Reader.numberDocument?, List.reverse_reverse] at h
  obtain ⟨written, hWritten, hDocument⟩ := Option.map_eq_some_iff.mp h
  have hScalar : Scalar.ofNumber written.number? = Scalar.ofNumber (some n) :=
    Document.scalar.inj hDocument
  have hValue := congrArg Scalar.value hScalar
  rw [value_ofNumber, value_ofNumber, Option.map_some] at hValue
  obtain ⟨found, hFound, hSame⟩ := Option.map_eq_some_iff.mp hValue
  rw [reread?, hWritten, Option.bind_some, hFound, Json.number.inj hSame]

theorem ReadsBack.legible (h : n.ReadsBack) : n.Legible := by
  rw [Legible, h.reread?_eq]
  rfl

theorem Legible.numberDocument?_eq (legible : n.Legible) :
    Reader.numberDocument? n.text.reverse = some (.scalar (.ofNumber (some n.asRead))) := by
  obtain ⟨found, hFound⟩ := Option.isSome_iff_exists.mp legible
  obtain ⟨written, hWritten, hNumber⟩ := Option.bind_eq_some_iff.mp hFound
  rw [Reader.numberDocument?, List.reverse_reverse, hWritten, asRead, hFound, Option.map_some,
    hNumber, Option.getD_some]

end Number

mutual

/-- The value with other numbers in it. -/
def mapNumbers (f : Number → Number) : Json → Json
  | .null => .null
  | .bool b => .bool b
  | .number n => .number (f n)
  | .string s => .string s
  | .array items => .array (mapItems f items)
  | .object members => .object (mapMembers f members)

def mapItems (f : Number → Number) : List Json → List Json
  | [] => []
  | item :: items => mapNumbers f item :: mapItems f items

def mapMembers (f : Number → Number) : List (String × Json) → List (String × Json)
  | [] => []
  | (key, value) :: members => (key, mapNumbers f value) :: mapMembers f members

end

section MapNumbers

variable (f : Number → Number) {value : Json} {items : List Json} {members : List (String × Json)}

@[simp]
theorem mapNumbers_string (s : String) : (string s).mapNumbers f = .string s := by
  rw [mapNumbers]

@[simp]
theorem mapNumbers_array (items : List Json) :
    (array items).mapNumbers f = .array (items.map (mapNumbers f)) := by
  have hItems : mapItems f items = items.map (mapNumbers f) := by
    induction items with
    | nil => rfl
    | cons item items ih => rw [mapItems, ih, List.map_cons]
  rw [mapNumbers, hItems]

@[simp]
theorem mapNumbers_object (members : List (String × Json)) :
    (object members).mapNumbers f =
      .object (members.map fun member => (member.1, member.2.mapNumbers f)) := by
  have hMembers : mapMembers f members =
      members.map fun member => (member.1, member.2.mapNumbers f) := by
    induction members with
    | nil => rfl
    | cons member members ih => rw [mapMembers, ih, List.map_cons]
  rw [mapNumbers, hMembers]

theorem isAtom_mapNumbers (atom : value.IsAtom) : (value.mapNumbers f).IsAtom := by
  cases value with
  | array | object => exact atom.elim
  | null | bool | number | string =>
      rw [mapNumbers]
      trivial

/-- Numbers are not nested. -/
theorem depth_mapNumbers (value : Json) : (value.mapNumbers f).depth = value.depth := by
  induction value using inductionOn with
  | atom value atom => rw [depth_of_isAtom atom, depth_of_isAtom (isAtom_mapNumbers f atom)]
  | array items ih =>
      rw [mapNumbers_array, depth, depth]
      refine congrArg (· + 1) (eq_of_forall_ge_iff fun n => ?_)
      rw [itemsDepth_le_iff, itemsDepth_le_iff, List.forall_mem_map]
      exact forall₂_congr fun item hItem => by rw [ih item hItem]
  | object members ih =>
      rw [mapNumbers_object, depth, depth]
      refine congrArg (· + 1) (eq_of_forall_ge_iff fun n => ?_)
      rw [membersDepth_le_iff, membersDepth_le_iff, List.forall_mem_map]
      exact forall₂_congr fun member hMember => by rw [ih member hMember]

theorem Distinct.mapNumbers (distinct : value.Distinct) : (value.mapNumbers f).Distinct := by
  induction value using inductionOn with
  | atom value atom => exact distinct_of_isAtom (isAtom_mapNumbers f atom)
  | array items ih =>
      rw [distinct_array_iff] at distinct
      rw [mapNumbers_array, distinct_array_iff, List.forall_mem_map]
      exact fun item hItem => ih item hItem (distinct item hItem)
  | object members ih =>
      obtain ⟨once, distinct⟩ := distinct_object_iff.mp distinct
      rw [mapNumbers_object, distinct_object_iff, List.forall_mem_map, Fields.names, List.map_map]
      exact ⟨once, fun member hMember => ih member hMember (distinct member hMember)⟩

end MapNumbers

/-- Every number within the value is legible. -/
def Legible (value : Json) : Prop :=
  value.Throughout fun
    | .number n => n.Legible
    | _ => True

/-- The value as it is read from its text. -/
def asRead (value : Json) : Json :=
  value.mapNumbers Number.asRead

section Legible

variable {value : Json} {items : List Json} {members : List (String × Json)}

theorem asRead_object (members : List (String × Json)) :
    (object members).asRead = .object (members.map fun member => (member.1, member.2.asRead)) :=
  mapNumbers_object Number.asRead members

theorem Faithful.legible (faithful : value.Faithful) : value.Legible :=
  faithful.mono fun inner hInner => by
    cases inner with
    | number n => exact Number.ReadsBack.legible hInner
    | null | bool | string | array | object => trivial

/-- What reads back is read as it is. -/
theorem Faithful.asRead_eq (faithful : value.Faithful) : value.asRead = value := by
  rw [asRead]
  induction value using inductionOn with
  | atom value atom =>
      cases value with
      | number n =>
          have hNumber : n.ReadsBack := faithful _ .self
          rw [mapNumbers, Number.asRead, hNumber.reread?_eq, Option.getD_some]
      | null | bool | string => rw [mapNumbers]
      | array | object => exact atom.elim
  | array items ih =>
      rw [faithful_array_iff] at faithful
      have hItems := List.map_congr_left fun item hItem => ih item hItem (faithful item hItem)
      rw [mapNumbers_array, hItems, List.map_id']
  | object members ih =>
      rw [faithful_object_iff] at faithful
      have hMembers := List.map_congr_left fun member hMember =>
        congrArg (Prod.mk member.1) (ih member hMember (faithful member hMember))
      rw [mapNumbers_object, hMembers, List.map_id']

theorem legible_object_iff : (object members).Legible ↔ ∀ member ∈ members, member.2.Legible :=
  throughout_object_iff.trans (iff_of_eq (true_and _))

theorem legible_array_iff : (array items).Legible ↔ ∀ item ∈ items, item.Legible :=
  throughout_array_iff.trans (iff_of_eq (true_and _))

/-- A value whose numbers are legible is read as the document that is built like the value with the
numbers that are read. -/
theorem Legible.reread?_eq (legible : value.Legible) :
    value.reread? = some value.asRead.toDocument := by
  rw [asRead]
  induction value using inductionOn with
  | atom value atom =>
      cases value with
      | number n =>
          have hNumber : n.Legible := legible _ .self
          rw [reread?, hNumber.numberDocument?_eq, mapNumbers, toDocument]
      | null | bool | string => rfl
      | array | object => exact atom.elim
  | array items ih =>
      rw [legible_array_iff] at legible
      rw [reread?, rereadItems?_eq fun item hItem => ih item hItem (legible item hItem),
        mapNumbers_array]
      rfl
  | object members ih =>
      rw [legible_object_iff] at legible
      rw [reread?, rereadMembers?_eq fun member hMember =>
        ih member hMember (legible member hMember), mapNumbers_object]
      rfl

end Legible

end ServiceBroker.Json
