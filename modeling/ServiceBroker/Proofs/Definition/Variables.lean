import ServiceBroker.Definition.Variables
import ServiceBroker.Proofs.Definition.Line
import ServiceBroker.Proofs.Text.Finding

/-! The declarations of input variables in a definition: what is found is what the text declares. -/

namespace ServiceBroker.Definition

open ServiceBroker.Text

variable {text consumed name after : List Char} {names : List (List Char)}

/-- The declaration of a variable. Lines may be empty before it and end within it. -/
def Declaration (consumed name : List Char) : Prop :=
  ∃ lead gap, Blank lead ∧ Blank gap ∧ gap ≠ [] ∧ name ≠ [] ∧ '"' ∉ name ∧
    consumed = lead ++ ("variable".toList ++ (gap ++ '"' :: (name ++ ['"'])))

/-- One of the declarations of a text, read from left to right, is that of `name`. -/
def Declares (text name : List Char) : Prop :=
  ∃ names, Finds (fun consumed name _ => Declaration consumed name) true text names ∧ name ∈ names

theorem declaration?_eq_some_iff : declaration? text = some (name, after) ↔
    ∃ consumed, Declaration consumed name ∧ text = consumed ++ after := by
  constructor
  · intro h
    simp only [declaration?, Option.bind_eq_bind, Option.bind_eq_some_iff] at h
    obtain ⟨behind, hKeyword, labelled, hGap, hLabel⟩ := h
    obtain ⟨lead, hLead, hText⟩ := exists_trimLeft text
    obtain ⟨-, gap, hNonempty, hBlank, rfl⟩ := afterBlanks?_eq_some_iff.mp hGap
    obtain ⟨rfl, hName, hQuote⟩ := label?_eq_some_iff.mp hLabel
    rw [after?_eq_some_iff.mp hKeyword] at hText
    refine ⟨_, ⟨lead, gap, hLead, hBlank, hNonempty, hName, hQuote, rfl⟩, ?_⟩
    rw [hText]
    simp only [List.append_assoc, List.cons_append, List.nil_append]
  · rintro ⟨-, ⟨lead, gap, hLead, hBlank, hNonempty, hName, hQuote, rfl⟩, rfl⟩
    have hTrim : trimLeft (lead ++ ("variable".toList ++ (gap ++ '"' :: (name ++ '"' :: after)))) =
        "variable".toList ++ (gap ++ '"' :: (name ++ '"' :: after)) :=
      trimLeft_append hLead (flush_cons.mpr (by decide))
    have hGap : afterBlanks? (gap ++ '"' :: (name ++ '"' :: after)) =
        some ('"' :: (name ++ '"' :: after)) :=
      afterBlanks?_eq_some_iff.mpr
        ⟨flush_cons.mpr (by decide), gap, hNonempty, hBlank, rfl⟩
    have hLabel : label? ('"' :: (name ++ '"' :: after)) = some (name, after) :=
      label?_eq_some_iff.mpr ⟨rfl, hName, hQuote⟩
    simp only [List.append_assoc, List.cons_append, List.nil_append]
    rw [declaration?, hTrim, after?_append]
    simp only [hGap, hLabel, Option.bind_eq_bind, Option.bind_some]

theorem declaration?_append_iff : declaration? (consumed ++ after) = some (name, after) ↔
    Declaration consumed name := by
  rw [declaration?_eq_some_iff]
  constructor
  · rintro ⟨same, declaration, hText⟩
    exact List.append_cancel_right hText ▸ declaration
  · exact fun declaration => ⟨consumed, declaration, rfl⟩

theorem declaredFrom_cons (fresh : Bool) (c : Char) (text : List Char) :
    declaredFrom 0 fresh (c :: text) =
      match if fresh then declaration? (c :: text) else none with
      | some (name, after) => name :: declaredFrom (text.length - after.length) (c == '\n') text
      | none => declaredFrom 0 (c == '\n') text := by
  cases fresh <;> rfl

theorem declaredFrom_eq_findFrom (skip : Nat) (fresh : Bool) (text : List Char) :
    declaredFrom skip fresh text = findFrom declaration? skip fresh text := by
  refine eq_findFrom (fun _ _ => rfl) (fun _ _ _ _ => rfl) (fun fresh c rest => ?_) skip fresh text
  rw [declaredFrom_cons]
  cases (if fresh then declaration? (c :: rest) else none) <;> rfl

theorem declaration?_consumes : Consumes declaration? := by
  intro text name after h
  obtain ⟨consumed, ⟨lead, gap, -, -, hNonempty, -, -, rfl⟩, rfl⟩ := declaration?_eq_some_iff.mp h
  refine ⟨_, fun hNil => hNonempty ?_, rfl⟩
  simp only [List.append_eq_nil_iff] at hNil
  exact hNil.2.2.1

/-- The declared names are those of the declarations, read from left to right. -/
theorem finds_declared_iff :
    Finds (fun consumed name _ => Declaration consumed name) true text names ↔
      declared text = names := by
  rw [declared, declaredFrom_eq_findFrom]
  exact finds_iff declaration?_consumes fun _ _ _ => declaration?_append_iff.symm

theorem mem_declared_iff : name ∈ declared text ↔ Declares text name := by
  simp only [Declares, finds_declared_iff, exists_eq_left']

/-- A declaration in the middle of a line is none, and one across lines is one. -/
example : declared "x variable \"a\"\n\nvariable\n \"b\" \x7b\n\x7d".toList = ["b".toList] := by
  decide

end ServiceBroker.Definition
