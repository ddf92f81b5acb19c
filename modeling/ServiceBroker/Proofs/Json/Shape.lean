import ServiceBroker.Proofs.Fields
import ServiceBroker.Proofs.Json.Reread

/-! The values that stand within a value, and what can be said of all of them: that no object names
a member twice, that every number, or at least every integer, is an integer of 64 bits, or that
every number reads back. A value whose numbers read back is read as the document that is built like
it. -/

namespace ServiceBroker.Json

/-- A value is another one, or stands at some place within it. -/
inductive Within (inner : Json) : Json → Prop where
  | self : Within inner inner
  | item {item : Json} {items : List Json} (h : item ∈ items) (within : Within inner item) :
      Within inner (.array items)
  | member {key : String} {value : Json} {members : List (String × Json)}
      (h : (key, value) ∈ members) (within : Within inner value) : Within inner (.object members)

/-- The value holds no others. -/
def IsAtom : Json → Prop
  | .array _ | .object _ => False
  | _ => True

/-- What can be shown of an array from its items and of an object from its values holds of every
value. -/
@[elab_as_elim]
theorem inductionOn {motive : Json → Prop} (atom : ∀ value, value.IsAtom → motive value)
    (array : ∀ items, (∀ item ∈ items, motive item) → motive (.array items))
    (object : ∀ members, (∀ member ∈ members, motive member.2) → motive (.object members)) :
    ∀ value, motive value
  | .null => atom .null trivial
  | .bool b => atom (.bool b) trivial
  | .number n => atom (.number n) trivial
  | .string s => atom (.string s) trivial
  | .array items => array items fun item _ => inductionOn atom array object item
  | .object members => object members fun member _ => inductionOn atom array object member.2
termination_by value => sizeOf value
decreasing_by
  · next h =>
      have := List.sizeOf_lt_of_mem h
      simp only [Json.array.sizeOf_spec]
      omega
  · next h =>
      obtain ⟨key, value⟩ := member
      have := List.sizeOf_lt_of_mem h
      simp only [Json.object.sizeOf_spec, Prod.mk.sizeOf_spec] at this ⊢
      omega

/-- Something holds of a value and of all values within it. -/
def Throughout (p : Json → Prop) (value : Json) : Prop :=
  ∀ inner, Within inner value → p inner

section Throughout

variable {p q : Json → Prop} {value : Json} {items : List Json} {members : List (String × Json)}

theorem Throughout.mono (h : value.Throughout p) (weaker : ∀ inner, p inner → q inner) :
    value.Throughout q :=
  fun inner within => weaker inner (h inner within)

theorem throughout_array_iff :
    (array items).Throughout p ↔ p (.array items) ∧ ∀ item ∈ items, item.Throughout p := by
  constructor
  · exact fun h => ⟨h _ .self, fun item hItem inner within => h inner (.item hItem within)⟩
  · rintro ⟨hSelf, hItems⟩ inner within
    cases within with
    | self => exact hSelf
    | item hItem within => exact hItems _ hItem inner within

theorem throughout_object_iff :
    (object members).Throughout p ↔
      p (.object members) ∧ ∀ member ∈ members, member.2.Throughout p := by
  constructor
  · exact fun h => ⟨h _ .self, fun member hMember inner within => h inner (.member hMember within)⟩
  · rintro ⟨hSelf, hMembers⟩ inner within
    cases within with
    | self => exact hSelf
    | member hMember within => exact hMembers _ hMember inner within

theorem throughout_iff_of_isAtom (atom : value.IsAtom) : value.Throughout p ↔ p value := by
  constructor
  · exact fun h => h _ .self
  · intro h inner within
    cases within with
    | self => exact h
    | item | member => exact atom.elim

@[simp]
theorem throughout_null_iff : Json.null.Throughout p ↔ p .null :=
  throughout_iff_of_isAtom trivial

@[simp]
theorem throughout_string_iff {s : String} : (string s).Throughout p ↔ p (.string s) :=
  throughout_iff_of_isAtom trivial

@[simp]
theorem throughout_number_iff {n : Number} : (number n).Throughout p ↔ p (.number n) :=
  throughout_iff_of_isAtom trivial

end Throughout

/-- No object within the value names a member twice. -/
def Distinct (value : Json) : Prop :=
  value.Throughout fun
    | .object members => (Fields.names members).Nodup
    | _ => True

/-- The text of the number is read as the number. -/
def Number.ReadsBack (n : Number) : Prop :=
  Reader.numberDocument? n.text.reverse = some (.scalar (.ofNumber (some n)))

/-- Every number within the value reads back. -/
def Faithful (value : Json) : Prop :=
  value.Throughout fun
    | .number n => n.ReadsBack
    | _ => True

/-- Every integer within the value is one of 64 bits, with or without a sign. -/
def Bounded (value : Json) : Prop :=
  value.Throughout fun
    | .number (.integer i) => Number.keeps i = true
    | _ => True

/-- Every number within the value is an integer of 64 bits, with or without a sign. -/
def Integral (value : Json) : Prop :=
  value.Throughout fun
    | .number n => ∃ i, n = .integer i ∧ Number.keeps i = true
    | _ => True

section

variable {value : Json} {items : List Json} {members : List (String × Json)}

theorem Integral.faithful (h : value.Integral) : value.Faithful :=
  h.mono fun inner hInner => by
    cases inner with
    | number n =>
        obtain ⟨i, rfl, hKeeps⟩ := hInner
        exact Number.numberDocument?_integer hKeeps
    | null | bool | string | array | object => trivial

/-- A value is faithful if the integers in it are in range and the doubles in it read back. -/
theorem Bounded.faithful (bounded : value.Bounded)
    (doubles : ∀ x, Within (.number (.double x)) value → (Number.double x).ReadsBack) :
    value.Faithful := by
  intro inner within
  have hInner := bounded inner within
  cases inner with
  | number n =>
      cases n with
      | integer i => exact Number.numberDocument?_integer hInner
      | double x => exact doubles x within
  | null | bool | string | array | object => trivial

theorem faithful_null : Json.null.Faithful :=
  throughout_null_iff.mpr trivial

theorem faithful_string (s : String) : (string s).Faithful :=
  throughout_string_iff.mpr trivial

theorem bounded_object_iff :
    (object members).Bounded ↔ ∀ member ∈ members, member.2.Bounded :=
  throughout_object_iff.trans (iff_of_eq (true_and _))

theorem bounded_array_iff : (array items).Bounded ↔ ∀ item ∈ items, item.Bounded :=
  throughout_array_iff.trans (iff_of_eq (true_and _))

theorem distinct_object_iff :
    (object members).Distinct ↔
      (Fields.names members).Nodup ∧ ∀ member ∈ members, member.2.Distinct :=
  throughout_object_iff

theorem distinct_array_iff : (array items).Distinct ↔ ∀ item ∈ items, item.Distinct :=
  throughout_array_iff.trans (iff_of_eq (true_and _))

theorem faithful_object_iff :
    (object members).Faithful ↔ ∀ member ∈ members, member.2.Faithful :=
  throughout_object_iff.trans (iff_of_eq (true_and _))

theorem faithful_array_iff : (array items).Faithful ↔ ∀ item ∈ items, item.Faithful :=
  throughout_array_iff.trans (iff_of_eq (true_and _))

theorem bounded_of_isAtom (atom : value.IsAtom)
    (h : ∀ n, value = .number (.integer n) → Number.keeps n = true) : value.Bounded := by
  rw [Bounded, throughout_iff_of_isAtom atom]
  cases value with
  | number n =>
      cases n with
      | integer n => exact h n rfl
      | double => trivial
  | null | bool | string | array | object => trivial

theorem distinct_of_isAtom (atom : value.IsAtom) : value.Distinct := by
  rw [Distinct, throughout_iff_of_isAtom atom]
  cases value with
  | object => exact atom.elim
  | null | bool | number | string | array => trivial

theorem depth_of_isAtom (atom : value.IsAtom) : value.depth = 0 := by
  cases value with
  | array | object => exact atom.elim
  | null | bool | number | string => simp only [depth]

@[simp]
theorem depth_string (s : String) : (string s).depth = 0 :=
  depth_of_isAtom trivial

theorem itemsDepth_le_iff {n : Nat} : itemsDepth items ≤ n ↔ ∀ item ∈ items, item.depth ≤ n := by
  induction items with
  | nil => simp [itemsDepth]
  | cons item items ih => simp [itemsDepth, ih]

theorem membersDepth_le_iff {n : Nat} :
    membersDepth members ≤ n ↔ ∀ member ∈ members, member.2.depth ≤ n := by
  induction members with
  | nil => simp [membersDepth]
  | cons member members ih => simp [membersDepth, ih]

theorem depth_array_le_iff {n : Nat} :
    (array items).depth ≤ n + 1 ↔ ∀ item ∈ items, item.depth ≤ n := by
  rw [depth, Nat.add_le_add_iff_right, itemsDepth_le_iff]

theorem depth_object_le_iff {n : Nat} :
    (object members).depth ≤ n + 1 ↔ ∀ member ∈ members, member.2.depth ≤ n := by
  rw [depth, Nat.add_le_add_iff_right, membersDepth_le_iff]

/-- Items are read as others if each of them is. -/
theorem rereadItems?_eq {f : Json → Json}
    (h : ∀ item ∈ items, item.reread? = some (f item).toDocument) :
    rereadItems? items = some (itemsToDocuments (items.map f)) := by
  induction items with
  | nil => rfl
  | cons item items ih =>
      rw [rereadItems?, h item (by simp), ih fun other hOther => h other (by simp [hOther])]
      rfl

theorem rereadMembers?_eq {f : Json → Json}
    (h : ∀ member ∈ members, member.2.reread? = some (f member.2).toDocument) :
    rereadMembers? members =
      some (membersToDocuments (members.map fun member => (member.1, f member.2))) := by
  induction members with
  | nil => rfl
  | cons member members ih =>
      rw [rereadMembers?, h member (by simp), ih fun other hOther => h other (by simp [hOther])]
      rfl

/-- A value whose numbers read back is read as the document that is built like it. -/
theorem Faithful.reread?_eq (h : value.Faithful) : value.reread? = some value.toDocument := by
  induction value using inductionOn with
  | atom value atom =>
      cases value with
      | number n => exact h _ .self
      | null | bool | string => rfl
      | array | object => exact atom.elim
  | array items ih =>
      rw [faithful_array_iff] at h
      have hItems := rereadItems?_eq (f := id) fun item hItem => ih item hItem (h item hItem)
      rw [List.map_id] at hItems
      rw [reread?, hItems]
      rfl
  | object members ih =>
      rw [faithful_object_iff] at h
      have hMembers := rereadMembers?_eq (f := id) fun member hMember =>
        ih member hMember (h member hMember)
      simp only [id, List.map_id'] at hMembers
      rw [reread?, hMembers]
      rfl

end

end ServiceBroker.Json
