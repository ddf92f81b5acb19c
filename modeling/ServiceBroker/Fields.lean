/-!
Named values in the order in which the names were first given. A name occurs once; giving it again
replaces the value where it stands.
-/

namespace ServiceBroker

/-- Values by name, in order. -/
abbrev Fields (α : Type) := List (String × α)

namespace Fields

variable {α : Type}

def names (fields : Fields α) : List String :=
  fields.map Prod.fst

def get? (fields : Fields α) (name : String) : Option α :=
  fields.lookup name

/-- Gives a name its value: in its old place if the name is known, at the end otherwise. -/
def put : Fields α → String → α → Fields α
  | [], name, value => [(name, value)]
  | (known, old) :: rest, name, value =>
    if known = name then (name, value) :: rest else (known, old) :: put rest name value

/-- Gives each name of `more` its value, in order. -/
def merge (fields more : Fields α) : Fields α :=
  more.foldl (fun all (name, value) => all.put name value) fields

/-- Takes a name and its value away. -/
def erase (fields : Fields α) (name : String) : Fields α :=
  fields.filter fun field => field.1 ≠ name

/-- The fields with repeated names put together. -/
def ofPairs (pairs : List (String × α)) : Fields α :=
  merge [] pairs

/-- A name that was just put has the new value. -/
@[simp]
theorem get?_put_self (fields : Fields α) (name : String) (value : α) :
    (fields.put name value).get? name = some value := by
  induction fields with
  | nil => simp [put, get?]
  | cons head rest ih =>
    obtain ⟨known, old⟩ := head
    by_cases h : known = name
    · simp [put, get?, h]
    · have : (name == known) = false := by simpa using fun e => h e.symm
      simpa [put, get?, h, List.lookup_cons, this] using ih

/-- Putting one name leaves the others as they were. -/
theorem get?_put_of_ne (fields : Fields α) {name other : String} (value : α) (h : other ≠ name) :
    (fields.put name value).get? other = fields.get? other := by
  induction fields with
  | nil =>
    have : (other == name) = false := by simpa using h
    simp [put, get?, List.lookup_cons, this]
  | cons head rest ih =>
    obtain ⟨known, old⟩ := head
    by_cases hk : known = name
    · subst hk
      have : (other == known) = false := by simpa using h
      simp [put, get?, List.lookup_cons, this]
    · by_cases ho : other = known
      · simp [put, get?, hk, ho]
      · have : (other == known) = false := by simpa using ho
        simpa [put, get?, hk, List.lookup_cons, this] using ih

/-- Putting a known name keeps the names, a new one joins at the end. -/
theorem names_put (fields : Fields α) (name : String) (value : α) :
    (fields.put name value).names =
      if name ∈ fields.names then fields.names else fields.names ++ [name] := by
  induction fields with
  | nil => simp [put, names]
  | cons head rest ih =>
    obtain ⟨known, old⟩ := head
    by_cases hk : known = name
    · simp [put, names, hk]
    · have hne : name ≠ known := fun e => hk e.symm
      simp only [names] at ih
      by_cases hm : name ∈ rest.map Prod.fst <;> simp_all [put, names]

/-- An erased name has no value. -/
@[simp]
theorem get?_erase_self (fields : Fields α) (name : String) :
    (fields.erase name).get? name = none := by
  induction fields with
  | nil => rfl
  | cons head rest ih =>
    obtain ⟨known, old⟩ := head
    by_cases h : known = name
    · simpa [erase, h] using ih
    · have : (name == known) = false := by simpa using fun e => h e.symm
      simpa [erase, get?, h, List.lookup_cons, this] using ih

/-- Erasing one name leaves the others as they were. -/
theorem get?_erase_of_ne (fields : Fields α) {name other : String} (h : other ≠ name) :
    (fields.erase name).get? other = fields.get? other := by
  induction fields with
  | nil => rfl
  | cons head rest ih =>
    obtain ⟨known, old⟩ := head
    by_cases hk : known = name
    · subst hk
      have : (other == known) = false := by simpa using h
      simpa [erase, get?, List.lookup_cons, this] using ih
    · by_cases ho : other = known
      · simp [erase, get?, hk, ho]
      · have : (other == known) = false := by simpa using ho
        simpa [erase, get?, hk, List.lookup_cons, this] using ih

/-- The names that are left. -/
theorem names_erase (fields : Fields α) (name : String) :
    (fields.erase name).names = fields.names.filter (· ≠ name) := by
  simp only [erase, names, List.filter_map]
  rfl

end Fields

end ServiceBroker
