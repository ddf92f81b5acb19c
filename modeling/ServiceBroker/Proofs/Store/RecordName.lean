import Mathlib.Data.List.Basic
import ServiceBroker.Files.Folder
import ServiceBroker.Store.RecordName

/-! Record names tell ids apart. The escaped form of an id has no character in it that file systems
give a meaning of its own but the percent sign, and is read back as the id; so no two ids have one
record file, and no temporary file has the name of a record file. -/

namespace ServiceBroker.RecordName

/-- Something that stands for one character: a character that is no percent sign, or such a sign and
two others that are none. -/
inductive IsUnit : List Char → Prop where
  | plain {c : Char} (h : c ≠ '%') : IsUnit [c]
  | escape {x y : Char} (hx : x ≠ '%') (hy : y ≠ '%') : IsUnit ['%', x, y]

theorem isUnit_escapeChar (c : Char) : IsUnit (escapeChar c) := by
  unfold escapeChar
  split
  · exact .escape (by decide) (by decide)
  · exact .escape (by decide) (by decide)
  · exact .escape (by decide) (by decide)
  · exact .escape (by decide) (by decide)
  · next hPercent _ _ _ => exact .plain hPercent

section

variable {high low c : Char} {block : List Char}

theorem unescapeOne_cons {x : Char} (h : x ≠ '%') (rest : List Char) :
    unescapeOne high low c (x :: rest) = x :: unescapeOne high low c rest := by
  rw [unescapeOne]
  intro y z later hPercent
  exact absurd hPercent h

/-- What stands for one character is looked at by itself, whatever follows. -/
theorem unescapeOne_append (unit : IsUnit block) (rest : List Char) :
    unescapeOne high low c (block ++ rest) =
      unescapeOne high low c block ++ unescapeOne high low c rest := by
  cases unit with
  | plain hx => simp [unescapeOne_cons hx, unescapeOne]
  | escape hx hy =>
      simp only [List.cons_append, List.nil_append, unescapeOne]
      split
      · rfl
      · simp [unescapeOne_cons hx, unescapeOne_cons hy]

theorem IsUnit.unescapeOne (high low : Char) (unit : IsUnit block) (h : c ≠ '%') :
    IsUnit (unescapeOne high low c block) := by
  cases unit with
  | plain hx =>
      rw [unescapeOne_cons hx]
      exact .plain hx
  | escape hx hy =>
      simp only [RecordName.unescapeOne]
      split
      · exact .plain h
      · exact .escape hx hy

theorem unescapeOne_flatMap {f : Char → List Char} (units : ∀ x, IsUnit (f x)) (text : List Char) :
    unescapeOne high low c (text.flatMap f) =
      text.flatMap fun x => unescapeOne high low c (f x) := by
  induction text with
  | nil => rfl
  | cons x text ih =>
      rw [List.flatMap_cons, List.flatMap_cons, unescapeOne_append (units x), ih]

end

theorem unescape_escapeChar (c : Char) : unescape (escapeChar c) = [c] := by
  unfold escapeChar
  split
  · decide
  · decide
  · decide
  · decide
  · next hPercent _ _ _ => simp [unescape, unescapeOne_cons hPercent, unescapeOne]

/-- An id is read back from its escaped form. -/
@[simp]
theorem unescape_escape (id : List Char) : unescape (escape id) = id := by
  -- Only the last pass makes percent signs, so each pass finds the units that were written.
  have hColon (c : Char) := (isUnit_escapeChar c).unescapeOne '3' 'A' (show ':' ≠ '%' by decide)
  have hSlash (c : Char) := (hColon c).unescapeOne '2' 'F' (show '/' ≠ '%' by decide)
  have hBackslash (c : Char) := (hSlash c).unescapeOne '5' 'C' (show '\\' ≠ '%' by decide)
  calc unescape (escape id) = id.flatMap fun c => unescape (escapeChar c) := by
        rw [unescape, escape, unescapeOne_flatMap isUnit_escapeChar, unescapeOne_flatMap hColon,
          unescapeOne_flatMap hSlash, unescapeOne_flatMap hBackslash]
        rfl
    _ = id := by simp only [unescape_escapeChar, List.flatMap_singleton']

theorem escape_injective : Function.Injective escape :=
  Function.LeftInverse.injective unescape_escape

/-- A character that file systems give a meaning of its own stands nowhere in an escaped form; the
percent sign does. -/
theorem not_mem_escape {c : Char} (h : c = ':' ∨ c = '/' ∨ c = '\\') (id : List Char) :
    c ∉ escape id := by
  intro hMember
  obtain ⟨x, -, hUnit⟩ := List.mem_flatMap.mp hMember
  unfold escapeChar at hUnit
  -- In the last case the character stands for itself, so it is none of those that are escaped.
  split at hUnit
  · rcases h with rfl | rfl | rfl <;> simp at hUnit
  · rcases h with rfl | rfl | rfl <;> simp at hUnit
  · rcases h with rfl | rfl | rfl <;> simp at hUnit
  · rcases h with rfl | rfl | rfl <;> simp at hUnit
  · next hColon hSlash hBackslash =>
      obtain rfl := List.mem_singleton.mp hUnit
      rcases h with rfl | rfl | rfl
      · exact hColon rfl
      · exact hSlash rfl
      · exact hBackslash rfl

/-- Every id is read back from its escaped form, also where it looks like an escaped form itself;
that form has no colon, slash or backslash, and no other id has it. -/
theorem escape_reversible (id : String) :
    String.ofList (unescape (escape id.toList)) = id ∧
      ':' ∉ escape id.toList ∧ '/' ∉ escape id.toList ∧ '\\' ∉ escape id.toList ∧
      ∀ other : String, escape other.toList = escape id.toList ↔ other = id := by
  refine ⟨?_, not_mem_escape (.inl rfl) _, not_mem_escape (.inr (.inl rfl)) _,
    not_mem_escape (.inr (.inr rfl)) _, fun other => ?_⟩
  · rw [unescape_escape, String.ofList_toList]
  · rw [escape_injective.eq_iff, String.toList_inj]

example : escape "tf:50%/%253A".toList = "tf%3A50%25%2F%25253A".toList := by
  decide

/-- With the percent sign first, the escaped form of an escape would be read as what that stands
for. -/
example :
    unescapeOne '3' 'A' ':' (unescapeOne '2' '5' '%' (escape "%3A".toList)) = ":".toList := by
  decide

@[simp]
theorem idOfFile?_file (id : String) : idOfFile? (file id) = some id := by
  simp [idOfFile?, file]

theorem file_injective : Function.Injective file := by
  intro first second h
  have hIds := congrArg idOfFile? h
  rwa [idOfFile?_file, idOfFile?_file, Option.some.injEq] at hIds

/-- What ends in another way than records do holds none. -/
theorem idOfFile?_of_not_suffix {name : String} (h : ¬ending <:+ name.toList) :
    idOfFile? name = none := by
  have hSuffix : ending.isSuffixOf name.toList = false := by
    simpa [← List.isSuffixOf_iff_suffix] using h
  simp [idOfFile?, withoutEnding?, hSuffix]

theorem not_ending_suffix_append_tmp (name : List Char) : ¬ending <:+ name ++ ".tmp".toList := by
  intro h
  obtain ⟨before, h⟩ := h
  have hLast := congrArg List.getLast? h
  simp [ending] at hLast

/-- A temporary file holds no record. -/
theorem idOfFile?_temporary (id : String) : idOfFile? (temporary id) = none := by
  apply idOfFile?_of_not_suffix
  unfold temporary
  split
  · rw [String.toList_ofList]
    exact not_ending_suffix_append_tmp _
  · decide
  · rw [String.toList_ofList]
    exact not_ending_suffix_append_tmp _

/-- The name of a temporary file is none that a record file has. -/
theorem temporary_ne_file (id other : String) : temporary id ≠ file other := by
  intro h
  have hIds := congrArg idOfFile? h
  rw [idOfFile?_temporary, idOfFile?_file] at hIds
  cases hIds

theorem escape_ne_dot {id : String} (h : id ≠ ".") : escape id.toList ≠ ['.'] := by
  intro hDot
  have hSame : escape id.toList = escape ['.'] := hDot
  exact h (String.toList_inj.mp (escape_injective hSame))

/-- A temporary name is one that a file can have wherever the name of the record file is, but for
the id that makes it lead to the folder above. -/
theorem isFileName_temporary {id : String} (h : id ≠ ".")
    (hFile : Folder.isFileName (file id) = true) : Folder.isFileName (temporary id) = true := by
  have hDot := escape_ne_dot h
  unfold temporary
  unfold file at hFile
  split
  · decide
  · next hName => exact absurd hName hDot
  · next hNone _ =>
      have hLast (text : String) (hText : text.toList.getLast? ≠ some 'p') :
          String.ofList (escape id.toList) ++ ".tmp" ≠ text := by
        rintro rfl
        exact hText (by simp)
      have hEnding : (String.ofList ending).utf8ByteSize = 5 := by decide
      have hTmp : ".tmp".utf8ByteSize = 4 := by decide
      simp only [Folder.isFileName, String.ofList_append, String.utf8ByteSize_append, hEnding,
        String.ofList_toList, hTmp, Bool.and_eq_true, decide_eq_true_eq] at hFile ⊢
      obtain ⟨⟨⟨⟨⟨hSize, hZero⟩, hSlash⟩, -⟩, -⟩, -⟩ := hFile
      have hWithout {c : Char} (hTail : ".tmp".toList.contains c = false)
          (hName : (!(String.ofList (escape id.toList) ++ String.ofList ending).toList.contains
            c) = true) :
          (!(String.ofList (escape id.toList) ++ ".tmp").toList.contains c) = true := by
        simp only [String.toList_append, List.contains_append, Bool.not_eq_true',
          Bool.or_eq_false_iff] at hName ⊢
        exact ⟨hName.1, hTail⟩
      refine ⟨⟨⟨⟨⟨by omega, hWithout (by decide) hZero⟩, hWithout (by decide) hSlash⟩, ?_⟩, ?_⟩, ?_⟩
      · simp
      · simpa using hLast "." (by decide)
      · simpa using hLast ".." (by decide)

/-- The file whose name is a single dot before the ending cannot be written. -/
theorem isFileName_temporary_dot : Folder.isFileName (temporary ".") = false := by
  decide

end ServiceBroker.RecordName
