import ServiceBroker.Definition.Parameterization
import ServiceBroker.Proofs.Definition.Line

/-! What a line is, by its form and the blocks that are open, and the lines of a text. -/

namespace ServiceBroker.Definition

open ServiceBroker.Text

variable {c : Char} {text line rest tail key value address : List Char}
  {stack : List (List Char)} {first : Line} {read : List Line}

theorem isComment_eq_false_of_isClosing (h : isClosing line = true) : isComment line = false := by
  rw [isClosing, beq_iff_eq] at h
  rw [isComment, h]
  rfl

theorem headerAddress?_eq_none (h : ¬EndsWithBrace line) : headerAddress? line = none :=
  Option.eq_none_iff_forall_ne_some.mpr fun _ hHeader =>
    h (headerAddress?_eq_some_iff.mp hHeader).endsWithBrace

theorem nestedKey?_eq_none (h : ¬EndsWithBrace line) : nestedKey? line = none :=
  Option.eq_none_iff_forall_ne_some.mpr fun _ hKey =>
    h (nestedKey?_eq_some_iff.mp hKey).endsWithBrace

theorem Header.isClosing_eq_false (h : Header line address) : isClosing line = false := by
  obtain ⟨lead, keyword, gap, rest, hLead, hKeyword, -, -, rfl⟩ := h.exists_keyword
  rw [isClosing, trimLeft_append hLead (flush_keyword hKeyword _)]
  rcases hKeyword with rfl | rfl <;> rfl

theorem classify_of_isComment (h : isComment line = true) :
    classify stack line = (.comment, stack) := by
  rw [classify, if_pos h]

theorem classify_of_header (h : Header line address) :
    classify stack line = (.opening address, [address]) := by
  rw [classify, h.isComment_eq_false, headerAddress?_eq_some_iff.mpr h]
  rfl

theorem classify_of_isClosing (h : isClosing line = true) :
    classify stack line = (.other, stack.tail) := by
  have hHeader : headerAddress? line = none :=
    Option.eq_none_iff_forall_ne_some.mpr fun _ hHeader => by
      simp [(headerAddress?_eq_some_iff.mp hHeader).isClosing_eq_false] at h
  rw [classify, isComment_eq_false_of_isClosing h, hHeader, h]
  rfl

theorem Opens.headerAddress?_eq_none (h : Opens line key) : headerAddress? line = none :=
  Option.eq_none_iff_forall_ne_some.mpr fun _ hHeader => by
    have := (headerAddress?_eq_some_iff.mp hHeader).nestedKey?_eq_none
    rw [nestedKey?_eq_some_iff.mpr h] at this
    cases this

theorem classify_of_opens (h : Opens line key) (hComment : isComment line = false)
    (hClosing : isClosing line = false) (hStack : stack ≠ []) :
    classify stack line = (.opening (joinPath (key :: stack)), key :: stack) := by
  rw [classify, hComment, h.headerAddress?_eq_none, hClosing, List.isEmpty_eq_false_iff.mpr hStack,
    nestedKey?_eq_some_iff.mpr h]
  rfl

/-- A line without a block: an attribute, if it gives a value within a block. -/
theorem classify_of_not_endsWithBrace (h : ¬EndsWithBrace line) (hComment : isComment line = false)
    (hClosing : isClosing line = false) : classify stack line =
      (if stack.isEmpty then .other else match attribute? line with
        | some (key, value) =>
          .attribute (joinPath (key :: stack)) key value (stack.length == 1)
        | none => .other, stack) := by
  rw [classify, hComment, headerAddress?_eq_none h, hClosing, nestedKey?_eq_none h]
  cases attribute? line <;> cases stack <;> rfl

theorem intercalate_concat {mark : List Char} {pieces : List (List Char)} {piece : List Char}
    (h : pieces ≠ []) :
    mark.intercalate (pieces ++ [piece]) = mark.intercalate pieces ++ (mark ++ piece) := by
  induction pieces with
  | nil => exact absurd rfl h
  | cons first pieces ih =>
      cases pieces with
      | nil => simp
      | cons second pieces =>
          rw [List.cons_append, List.intercalate_cons_of_ne_nil (by simp), ih (by simp),
            List.intercalate_cons_cons]
          simp

theorem joinPath_cons (h : stack ≠ []) :
    joinPath (key :: stack) = joinPath stack ++ '.' :: key := by
  rw [joinPath, List.reverse_cons, intercalate_concat (by simpa using h)]
  rfl

theorem classify_outside (h : ¬EndsWithBrace line) (hComment : isComment line = false)
    (hClosing : isClosing line = false) : classify [] line = (.other, []) :=
  classify_of_not_endsWithBrace h hComment hClosing

theorem classify_of_assigns (h : Assigns line key value) (hBrace : ¬EndsWithBrace line)
    (hComment : isComment line = false) (hClosing : isClosing line = false) (hStack : stack ≠ []) :
    classify stack line =
      (.attribute (joinPath stack ++ '.' :: key) key value (decide (stack.length = 1)), stack) := by
  rw [classify_of_not_endsWithBrace hBrace hComment hClosing, List.isEmpty_eq_false_iff.mpr hStack,
    attribute?_eq_some_iff.mpr h, ← joinPath_cons hStack]
  rfl

/-- The blocks that stand open behind lines. -/
def stackBehind (stack : List (List Char)) (lines : List (List Char)) : List (List Char) :=
  lines.foldl (fun stack line => (classify stack line).2) stack

theorem classifyAll_cons (line : List Char) (lines : List (List Char)) :
    classifyAll stack (line :: lines) =
      { text := line, kind := (classify stack line).1 } ::
        classifyAll (classify stack line).2 lines :=
  rfl

theorem classifyAll_append (before after : List (List Char)) :
    classifyAll stack (before ++ after) =
      classifyAll stack before ++ classifyAll (stackBehind stack before) after := by
  induction before generalizing stack with
  | nil => rfl
  | cons line before ih =>
      rw [List.cons_append, classifyAll_cons, classifyAll_cons, ih]
      rfl

@[simp]
theorem length_classifyAll (lines : List (List Char)) :
    (classifyAll stack lines).length = lines.length := by
  induction lines generalizing stack with
  | nil => rfl
  | cons line lines ih => rw [classifyAll_cons, List.length_cons, ih, List.length_cons]

/-- What each kind of line says about it, and the blocks that are open behind it. -/
inductive Classified (stack : List (List Char)) (line : List Char) : Kind → List (List Char) → Prop
  | comment (h : isComment line = true) : Classified stack line .comment stack
  | header {address : List Char} (h : Header line address) :
      Classified stack line (.opening address) [address]
  | closing (h : isClosing line = true) : Classified stack line .other stack.tail
  | nested {key : List Char} (h : Opens line key) (hStack : stack ≠ []) :
      Classified stack line (.opening (joinPath stack ++ '.' :: key)) (key :: stack)
  | assignment {key value : List Char} (h : Assigns line key value) (hStack : stack ≠ []) :
      Classified stack line
        (.attribute (joinPath stack ++ '.' :: key) key value (decide (stack.length = 1))) stack
  | plain : Classified stack line .other stack

theorem classified (stack : List (List Char)) (line : List Char) :
    Classified stack line (classify stack line).1 (classify stack line).2 := by
  unfold classify
  split
  · next h => exact .comment h
  split
  · next h => exact .header (headerAddress?_eq_some_iff.mp h)
  split
  · next h => exact .closing h
  split
  · exact .plain
  next hStack =>
    replace hStack : stack ≠ [] := by simpa using hStack
    split
    · next h =>
        rw [joinPath_cons hStack]
        exact .nested (nestedKey?_eq_some_iff.mp h) hStack
    · next h =>
        rw [joinPath_cons hStack]
        exact .assignment (attribute?_eq_some_iff.mp h) hStack
    · exact .plain

/-! ### Blanks at the end of a line -/

theorem isComment_append (hTail : Blank tail) : isComment (line ++ tail) = isComment line := by
  rw [isComment, isComment, head?_trimLeft_append hTail]

theorem isClosing_append (hTail : Blank tail) : isClosing (line ++ tail) = isClosing line := by
  rw [isClosing, isClosing, head?_trimLeft_append hTail]

/-- Blanks behind a brace do not matter to what ends with one. -/
theorem append_iff_of_front {Form : List Char → Prop}
    (hForm : ∀ line, Form line → ∃ front braced, Braced braced ∧ line = front ++ braced ∧
      ∀ other, Braced other → Form (front ++ other)) (hTail : Blank tail) :
    Form (line ++ tail) ↔ Form line := by
  constructor
  · intro h
    obtain ⟨front, braced, ⟨behind, blanks, hBehind, hBlanks, rfl⟩, hLine, hOther⟩ := hForm _ h
    rw [← List.append_assoc] at hLine
    obtain ⟨inner, rfl, rfl⟩ := exists_of_append_blank (by decide) hTail hLine
    rw [List.append_assoc]
    exact hOther _ ⟨behind, inner, hBehind, (blank_append.mp hBlanks).1, rfl⟩
  · intro h
    obtain ⟨front, braced, hBraced, rfl, hOther⟩ := hForm _ h
    rw [List.append_assoc]
    exact hOther _ (hBraced.append hTail)

theorem header_append_iff (hTail : Blank tail) :
    Header (line ++ tail) address ↔ Header line address :=
  append_iff_of_front (fun _ => Header.exists_front) hTail

theorem opens_append_iff (hTail : Blank tail) : Opens (line ++ tail) key ↔ Opens line key :=
  append_iff_of_front (fun _ => Opens.exists_front) hTail

theorem BeginsWithKey.append (h : BeginsWithKey line key rest) :
    BeginsWithKey (line ++ tail) key (rest ++ tail) := by
  obtain ⟨hKey, hChars, lead, front, hLead, hFront, rfl⟩ := h
  exact ⟨hKey, hChars, lead, front, hLead, hFront, by simp⟩

theorem BeginsWithKey.of_append {first : List Char}
    (h : BeginsWithKey (line ++ tail) key (first ++ c :: rest)) (hc : isBlank c = false)
    (hTail : Blank tail) :
    ∃ inner, rest = inner ++ tail ∧ BeginsWithKey line key (first ++ c :: inner) := by
  obtain ⟨hKey, hChars, lead, front, hLead, hFront, hLine⟩ := h
  have hText : line ++ tail = lead ++ (front ++ (key ++ first)) ++ c :: rest := by
    simpa using hLine
  obtain ⟨inner, rfl, hInner⟩ := exists_of_append_blank hc hTail hText
  exact ⟨inner, rfl, hKey, hChars, lead, front, hLead, hFront, by simpa using hInner⟩

theorem assigns_append_iff (hTail : Blank tail) :
    Assigns (line ++ tail) key value ↔ Assigns line key value := by
  constructor
  · rintro ⟨back, gap, written, hBack, hGap, rfl, h⟩
    have hSigned : BeginsWithKey (line ++ tail) key (back ++ gap ++ '=' :: written) := by
      simpa using h
    obtain ⟨inner, rfl, hInner⟩ := hSigned.of_append (by decide) hTail
    exact ⟨back, gap, inner, hBack, hGap, trim_append hTail inner, by simpa using hInner⟩
  · rintro ⟨back, gap, written, hBack, hGap, rfl, h⟩
    exact ⟨back, gap, written ++ tail, hBack, hGap, (trim_append hTail written).symm,
      by simpa using h.append⟩

/-- Blanks at the end do not change what a line is. -/
theorem classify_append (hTail : Blank tail) :
    classify stack (line ++ tail) = classify stack line := by
  have hHeader : headerAddress? (line ++ tail) = headerAddress? line := Option.ext fun _ => by
    rw [headerAddress?_eq_some_iff, headerAddress?_eq_some_iff, header_append_iff hTail]
  have hNested : nestedKey? (line ++ tail) = nestedKey? line := Option.ext fun _ => by
    rw [nestedKey?_eq_some_iff, nestedKey?_eq_some_iff, opens_append_iff hTail]
  have hAttribute : attribute? (line ++ tail) = attribute? line := Option.ext fun _ => by
    rw [attribute?_eq_some_iff, attribute?_eq_some_iff, assigns_append_iff hTail]
  rw [classify, classify, isComment_append hTail, hHeader, isClosing_append hTail, hNested,
    hAttribute]

/-! ### Lines that are read as what they are -/

/-- Each line is what it is read as within the blocks of `stack`. -/
def Parsed (stack : List (List Char)) (read : List Line) : Prop :=
  classifyAll stack (read.map (·.text)) = read

@[simp]
theorem parsed_nil : Parsed stack [] := rfl

theorem parsed_cons : Parsed stack (first :: read) ↔
    (classify stack first.text).1 = first.kind ∧ Parsed (classify stack first.text).2 read := by
  cases first
  simp [Parsed, classifyAll_cons]

@[simp]
theorem map_text_classifyAll (lines : List (List Char)) :
    (classifyAll stack lines).map (·.text) = lines := by
  induction lines generalizing stack with
  | nil => rfl
  | cons line lines ih => rw [classifyAll_cons, List.map_cons, ih]

theorem parsed_classifyAll (lines : List (List Char)) : Parsed stack (classifyAll stack lines) := by
  rw [Parsed, map_text_classifyAll]

theorem parsed_parse (text : List Char) : Parsed [] (parse text) :=
  parsed_classifyAll (lines text)

/-- The line can be read as what it is. -/
def Fits (line : Line) : Prop :=
  ∃ stack, (classify stack line.text).1 = line.kind

theorem Parsed.fits (h : Parsed stack read) : ∀ line ∈ read, Fits line := by
  induction read generalizing stack with
  | nil => simp
  | cons first read ih =>
      obtain ⟨hKind, hRead⟩ := parsed_cons.mp h
      exact List.forall_mem_cons.mpr ⟨⟨stack, hKind⟩, ih hRead⟩

/-- Comments and attributes leave the open blocks as they are. -/
def Kind.Passive : Kind → Prop
  | .comment | .attribute _ _ _ _ => True
  | .opening _ | .other => False

theorem classify_of_passive (h : (classify stack line).1.Passive) :
    (classify stack line).2 = stack := by
  have hLine := classified stack line
  generalize (classify stack line).1 = kind at h hLine
  generalize (classify stack line).2 = behind at hLine
  cases hLine with
  | comment => rfl
  | assignment => rfl
  | plain => rfl
  | header => exact h.elim
  | closing => exact h.elim
  | nested => exact h.elim

theorem Parsed.filter {keeps : Line → Bool} (h : Parsed stack read)
    (hDropped : ∀ line ∈ read, keeps line = false → line.kind.Passive) :
    Parsed stack (read.filter keeps) := by
  induction read generalizing stack with
  | nil => exact h
  | cons first read ih =>
      obtain ⟨hKind, hRead⟩ := parsed_cons.mp h
      obtain ⟨hFirst, hDropped⟩ := List.forall_mem_cons.mp hDropped
      by_cases hKeeps : keeps first = true
      · rw [List.filter_cons_of_pos hKeeps]
        exact parsed_cons.mpr ⟨hKind, ih hRead hDropped⟩
      · rw [List.filter_cons_of_neg hKeeps]
        have hPassive := hFirst (by simpa using hKeeps)
        rw [classify_of_passive (hKind ▸ hPassive)] at hRead
        exact ih hRead hDropped

/-- Lines within the blocks that are open, in front of others. -/
theorem Parsed.append {inner : List Line}
    (hInner : ∀ line ∈ inner, classify stack line.text = (line.kind, stack))
    (h : Parsed stack read) : Parsed stack (inner ++ read) := by
  induction inner with
  | nil => exact h
  | cons line inner ih =>
      obtain ⟨hLine, hInner⟩ := List.forall_mem_cons.mp hInner
      refine parsed_cons.mpr ?_
      rw [hLine]
      exact ⟨rfl, ih hInner⟩

/-- A block that opens is the innermost one, and its address is that of all open blocks. -/
theorem classify_of_opening {path text : List Char} (h : (classify stack text).1 = .opening path) :
    (classify stack text).2 ≠ [] ∧ joinPath (classify stack text).2 = path ∧
      decide ((classify stack text).2.length = 1) = (headerAddress? text).isSome := by
  have hLine := classified stack text
  rw [h] at hLine
  generalize (classify stack text).2 = behind at hLine
  cases hLine with
  | header hHeader => simp [joinPath, headerAddress?_eq_some_iff.mpr hHeader]
  | nested hOpens hStack =>
      have hHeader : headerAddress? text = none := hOpens.headerAddress?_eq_none
      simp [joinPath_cons hStack, hHeader, hStack]

theorem mem_lines_of_mem_parse (h : first ∈ parse text) : first.text ∈ lines text := by
  have hText : (parse text).map (·.text) = lines text := map_text_classifyAll (lines text)
  rw [← hText]
  exact List.mem_map_of_mem h

/-- An attribute is removed as the identifier of a resource, or for its address. -/
theorem keeps_attribute_eq_false_iff {scheme : Parameterization} {path : List Char}
    {topLevel : Bool} :
    scheme.keeps { text := text, kind := .attribute path key value topLevel } = false ↔
      topLevel = true ∧ key = "id".toList ∨ ∃ removal ∈ scheme.removals, removal.toList = path := by
  rw [Parameterization.keeps, Bool.not_eq_false', Bool.or_eq_true, Bool.and_eq_true, beq_iff_eq,
    List.any_eq_true]
  simp only [beq_iff_eq]

end ServiceBroker.Definition
