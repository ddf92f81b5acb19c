import ServiceBroker.Definition.Parameterization
import ServiceBroker.Proofs.Definition.Settling

/-! What a definition is after it has got its parameters back.

Each of the three steps puts lines together that the next one reads again. A line that stays, is put
in or is rewritten is read as what it is meant to be, within the same blocks, so that the last text
can be told from the first one line by line. -/

namespace ServiceBroker.Parameterization

open ServiceBroker.Text ServiceBroker.Definition

variable {scheme : Parameterization} {c : Char}
  {text indent key block address parameter : List Char} {stack : List (List Char)} {line : Line}
  {read : List Line}

/-! ### References -/

/-- No character of the name means anything in a line, as with letters, digits, `_` and `-`. -/
def Plain (name : List Char) : Prop :=
  ∀ c ∈ name, isKeyChar c = true ∧ c ≠ '#' ∧ c ≠ '{' ∧ c ≠ '}'

instance (name : List Char) : Decidable (Plain name) :=
  List.decidableBAll _ name

theorem Plain.isBlank_eq_false (h : Plain key) : ∀ c ∈ key, isBlank c = false := fun c hc => by
  have := (h c hc).1
  simp only [isKeyChar, Bool.and_eq_true] at this
  simpa using this.2

theorem Plain.not_mem_newline (h : Plain key) : '\n' ∉ key := fun hc =>
  absurd (h.isBlank_eq_false _ hc) (by decide)

theorem not_mem_reference (hIndent : c ∉ indent) (hKey : c ∉ key) (hSign : c ∉ " = var.".toList)
    (hParameter : c ∉ parameter) : c ∉ reference indent key parameter := by
  simp only [reference, List.mem_append, not_or]
  exact ⟨⟨⟨hIndent, hKey⟩, hSign⟩, hParameter⟩

theorem blank_indentation (text : List Char) : Blank (indentation text) :=
  List.all_eq_true.mp List.all_takeWhile

theorem trimLeft_reference (hIndent : Blank indent) (hNonempty : key ≠ []) (hKey : Plain key) :
    trimLeft (reference indent key parameter) = key ++ (" = var.".toList ++ parameter) := by
  obtain ⟨c, key, rfl⟩ := List.exists_cons_of_ne_nil hNonempty
  rw [reference, List.append_assoc, List.append_assoc]
  exact trimLeft_append hIndent (flush_cons.mpr (hKey.isBlank_eq_false c (by simp)))

theorem assigns_reference (hIndent : Blank indent) (hNonempty : key ≠ []) (hKey : Plain key)
    (hParameter : Plain parameter) :
    Assigns (reference indent key parameter) key ("var.".toList ++ parameter) := by
  refine ⟨[], [' '], ' ' :: ("var.".toList ++ parameter), .inl rfl, by simp [isBlank], ?_,
    hNonempty, fun c hc => (hKey c hc).1, indent, [], hIndent, .inl rfl, by simp [reference]⟩
  have hWord : ∀ c ∈ "var.".toList ++ parameter, isBlank c = false :=
    List.forall_mem_append.mpr ⟨by simp [isBlank], hParameter.isBlank_eq_false⟩
  rw [← List.singleton_append, trim_lead (by simp [isBlank]), trim_eq_self hWord]

/-- A reference within a block is the attribute that it is written for. -/
theorem classify_reference (hIndent : Blank indent) (hNonempty : key ≠ []) (hKey : Plain key)
    (hParameter : Plain parameter) (hStack : stack ≠ []) :
    classify stack (reference indent key parameter) =
      (.attribute (joinPath stack ++ '.' :: key) key ("var.".toList ++ parameter)
        (decide (stack.length = 1)), stack) := by
  have hPlain {name : List Char} (h : Plain name) : '{' ∉ name := fun hc => (h _ hc).2.2.1 rfl
  have hBrace : ¬EndsWithBrace (reference indent key parameter) := by
    rintro ⟨before, tail, -, h⟩
    have := not_mem_reference (c := '{') (fun hc => absurd (hIndent _ hc) (by decide)) (hPlain hKey)
      (by decide) (hPlain hParameter)
    simp [h] at this
  obtain ⟨c, rest, rfl⟩ := List.exists_cons_of_ne_nil hNonempty
  obtain ⟨-, hNumber, -, hClosing⟩ := hKey c (by simp)
  have hHead : (trimLeft (reference indent (c :: rest) parameter)).head? = some c := by
    rw [trimLeft_reference hIndent hNonempty hKey]
    rfl
  exact classify_of_assigns (assigns_reference hIndent hNonempty hKey hParameter) hBrace
    (by simpa [isComment, hHead] using hNumber) (by simpa [isClosing, hHead] using hClosing) hStack

/-! ### Added lines -/

/-- An address is split at its last dot. -/
theorem splitAddress?_append (h : '.' ∉ key) :
    splitAddress? (block ++ '.' :: key) = some (block, key) := by
  have hKey : (block ++ '.' :: key).reverse.takeWhile (· != '.') = key.reverse := by
    rw [List.reverse_append, List.reverse_cons, List.append_assoc]
    exact (takeWhile_append_stop
      (fun c hc => by simpa using fun same : c = '.' => h (by simpa [same] using hc)) (by simp)).1
  have hLength : (block ++ '.' :: key).length - key.length - 1 = block.length := by simp; omega
  simp only [splitAddress?, hKey, List.reverse_reverse, hLength]
  rw [if_pos (by simp; omega), List.take_left]

theorem splitAddress?_eq_none (h : '.' ∉ address) : splitAddress? address = none := by
  have hAll : address.reverse.takeWhile (· != '.') = address.reverse :=
    List.takeWhile_eq_self_iff.mpr fun c hc => by
      simpa using fun same : c = '.' => h (by simpa [same] using hc)
  simp [splitAddress?, hAll]

theorem splitAddress?_eq_some_iff :
    splitAddress? address = some (block, key) ↔ address = block ++ '.' :: key ∧ '.' ∉ key := by
  constructor
  · intro h
    by_cases hDot : '.' ∈ address.reverse
    · obtain ⟨last, first, hAddress, hLast⟩ := List.eq_append_cons_of_mem hDot
      obtain rfl : address = first.reverse ++ '.' :: last.reverse := by
        rw [← List.reverse_reverse address, hAddress]
        simp
      rw [splitAddress?_append (by simpa using hLast)] at h
      obtain ⟨rfl, rfl⟩ : first.reverse = block ∧ last.reverse = key := by simpa using h
      exact ⟨rfl, by simpa using hLast⟩
    · rw [splitAddress?_eq_none (by simpa using hDot)] at h
      cases h
  · rintro ⟨rfl, hKey⟩
    exact splitAddress?_append hKey

/-- Names are plain, and so are mapped addresses but for what cannot be in a key. -/
structure Orderly (scheme : Parameterization) : Prop where
  mapped : ∀ mapping ∈ scheme.mappings, Plain mapping.parameter.toList ∧
    '\x1b' ∉ mapping.parameter.toList ∧ '#' ∉ mapping.address.toList ∧
    '{' ∉ mapping.address.toList ∧ '}' ∉ mapping.address.toList
  added : ∀ addition ∈ scheme.additions, Plain addition.parameter.toList ∧
    '\x1b' ∉ addition.parameter.toList ∧
    ∀ block key, addition.address.toList = block ++ '.' :: key → '.' ∉ key →
      key ≠ [] ∧ Plain key ∧ '\x1b' ∉ key

/-- The attribute that an addition puts in behind a line, if the line opens its block. -/
def addedLine? (line : Line) (addition : ParameterMapping) : Option Line :=
  match line.kind, splitAddress? addition.address.toList with
  | .opening path, some (block, key) =>
    if block = path then
      some {
        text := reference (indentation line.text ++ "    ".toList) key addition.parameter.toList
        kind := .attribute addition.address.toList key ("var.".toList ++ addition.parameter.toList)
          (headerAddress? line.text).isSome }
    else none
  | _, _ => none

/-- The lines that are put in behind a line. -/
def addedLines (scheme : Parameterization) (line : Line) : List Line :=
  scheme.additions.filterMap (addedLine? line)

theorem addedLine?_eq_some_iff {addition : ParameterMapping} {added : Line} :
    addedLine? line addition = some added ↔ ∃ block key, line.kind = .opening block ∧
      addition.address.toList = block ++ '.' :: key ∧ '.' ∉ key ∧
      added.text =
        reference (indentation line.text ++ "    ".toList) key addition.parameter.toList ∧
      added.kind = .attribute addition.address.toList key
        ("var.".toList ++ addition.parameter.toList) (headerAddress? line.text).isSome := by
  constructor
  · intro h
    unfold addedLine? at h
    split at h
    · next path block key hKind hAddress =>
        split at h
        · next hBlock =>
            cases h
            obtain ⟨hAddress, hKey⟩ := splitAddress?_eq_some_iff.mp hAddress
            exact ⟨block, key, hBlock ▸ hKind, hAddress, hKey, rfl, rfl⟩
        · cases h
    · cases h
  · rintro ⟨block, key, hKind, hAddress, hKey, hText, hAddedKind⟩
    obtain ⟨text, kind⟩ := added
    obtain rfl := hText
    obtain rfl := hAddedKind
    simp only [addedLine?, hKind, splitAddress?_eq_some_iff.mpr ⟨hAddress, hKey⟩, if_true]

theorem map_text_addedLines : (scheme.addedLines line).map (·.text) = scheme.addedBehind line := by
  rw [addedLines, addedBehind, List.map_filterMap]
  cases hKind : line.kind with
  | opening path =>
      refine List.filterMap_congr fun addition _ => ?_
      cases hAddress : splitAddress? addition.address.toList with
      | none => simp [addedLine?, hKind, hAddress]
      | some split =>
          simp only [addedLine?, hKind, hAddress]
          split
          · rfl
          · rfl
  | _ => simp [addedLine?, hKind]

theorem classify_added (hScheme : scheme.Orderly) (h : (classify stack line.text).1 = line.kind) :
    ∀ added ∈ scheme.addedLines line,
      classify (classify stack line.text).2 added.text =
        (added.kind, (classify stack line.text).2) := by
  intro added hAdded
  obtain ⟨addition, hAddition, hLine⟩ := List.mem_filterMap.mp hAdded
  obtain ⟨block, key, hKind, hAddress, hDot, hText, hAddedKind⟩ := addedLine?_eq_some_iff.mp hLine
  obtain ⟨hParameter, -, hName⟩ := hScheme.added addition hAddition
  obtain ⟨hNonempty, hKey, -⟩ := hName block key hAddress hDot
  obtain ⟨hStack, hPath, hTop⟩ := classify_of_opening (h.trans hKind)
  have hIndent : Blank (indentation line.text ++ "    ".toList) :=
    blank_append.mpr ⟨blank_indentation line.text, by simp [isBlank]⟩
  rw [hText, classify_reference hIndent hNonempty hKey hParameter hStack, hPath, hTop, hAddedKind,
    hAddress]

theorem parsed_withAdded (hScheme : scheme.Orderly) (h : Parsed stack read) :
    Parsed stack (read.flatMap fun line => line :: scheme.addedLines line) := by
  induction read generalizing stack with
  | nil => exact h
  | cons line read ih =>
      obtain ⟨hKind, hRead⟩ := parsed_cons.mp h
      exact parsed_cons.mpr ⟨hKind, (ih hRead).append (classify_added hScheme hKind)⟩

/-- The characters of an added line are those of its block's line and of its names. -/
theorem not_mem_added (hScheme : scheme.Orderly) (hc : c = '\n' ∨ c = '\x1b')
    (hText : c ∉ line.text) : ∀ added ∈ scheme.addedLines line, c ∉ added.text := by
  intro added hAdded
  obtain ⟨addition, hAddition, hLine⟩ := List.mem_filterMap.mp hAdded
  obtain ⟨block, key, -, hAddress, hDot, hReference, -⟩ := addedLine?_eq_some_iff.mp hLine
  obtain ⟨hParameter, parameterEscape, hName⟩ := hScheme.added addition hAddition
  obtain ⟨-, hKey, keyEscape⟩ := hName block key hAddress hDot
  rw [hReference]
  have hIndent : c ∉ indentation line.text ++ "    ".toList := by
    rw [List.mem_append, not_or]
    refine ⟨fun hMem => hText ((List.takeWhile_prefix _).subset hMem), ?_⟩
    rcases hc with rfl | rfl <;> decide
  rcases hc with rfl | rfl
  · exact not_mem_reference hIndent hKey.not_mem_newline (by decide) hParameter.not_mem_newline
  · exact not_mem_reference hIndent keyEscape (by decide) parameterEscape

theorem add_eq (scheme : Parameterization) (text : List Char) : scheme.add text =
    joinLines (((parse text).flatMap fun line => line :: scheme.addedLines line).map (·.text)) := by
  rw [add, List.map_flatMap]
  simp only [List.map_cons, map_text_addedLines]

theorem not_mem_withAdded (hScheme : scheme.Orderly) (hc : c = '\n' ∨ c = '\x1b')
    (hRead : ∀ line ∈ read, c ∉ line.text) :
    ∀ line ∈ read.flatMap fun line => line :: scheme.addedLines line, c ∉ line.text := by
  intro line hLine
  obtain ⟨first, hFirst, hLine⟩ := List.mem_flatMap.mp hLine
  rcases List.mem_cons.mp hLine with rfl | hAdded
  · exact hRead line hFirst
  · exact not_mem_added hScheme hc (hRead first hFirst) line hAdded

theorem parse_add (hScheme : scheme.Orderly) (text : List Char) :
    parse (scheme.add text) =
      reread ((parse text).flatMap fun line => line :: scheme.addedLines line) := by
  rw [add_eq]
  exact parse_joinLines (parsed_withAdded hScheme (parsed_parse text))
    (not_mem_withAdded hScheme (.inl rfl) fun line hLine =>
      not_mem_of_mem_lines (mem_lines_of_mem_parse hLine))

/-! ### Rewritten lines -/

/-- The line with a reference in place of a mapped value. -/
def rewritten (scheme : Parameterization) (line : Line) : Line :=
  match line.kind with
  | .attribute path key _ topLevel =>
    match scheme.mappings.find? (·.address.toList == path) with
    | some mapping => {
        text := reference (indentation line.text) key mapping.parameter.toList
        kind := .attribute path key ("var.".toList ++ mapping.parameter.toList) topLevel }
    | none => line
  | _ => line

/-- A line is rewritten as a mapped attribute, or it stays. -/
theorem rewritten_cases (scheme : Parameterization) (line : Line) :
    (∃ path key value topLevel mapping, line.kind = .attribute path key value topLevel ∧
      scheme.mappings.find? (·.address.toList == path) = some mapping ∧
      scheme.rewritten line = {
        text := reference (indentation line.text) key mapping.parameter.toList
        kind := .attribute path key ("var.".toList ++ mapping.parameter.toList) topLevel }) ∨
      scheme.rewritten line = line ∧ ∀ path key value topLevel,
        line.kind = .attribute path key value topLevel →
          scheme.mappings.find? (·.address.toList == path) = none := by
  rcases hKind : line.kind with path | ⟨path, key, value, topLevel⟩ | _ | _
  · exact .inr ⟨by simp [rewritten, hKind], by simp⟩
  · cases hFind : scheme.mappings.find? (·.address.toList == path) with
    | some mapping =>
        exact .inl ⟨path, key, value, topLevel, mapping, rfl, hFind,
          by simp [rewritten, hKind, hFind]⟩
    | none =>
        refine .inr ⟨by simp [rewritten, hKind, hFind], ?_⟩
        rintro _ _ _ _ ⟨⟩
        exact hFind
  · exact .inr ⟨by simp [rewritten, hKind], by simp⟩
  · exact .inr ⟨by simp [rewritten, hKind], by simp⟩

theorem text_rewritten : (scheme.rewritten line).text = (scheme.replaceLine line).1 := by
  rcases rewritten_cases scheme line with
    ⟨path, key, value, topLevel, mapping, hKind, hFind, h⟩ | ⟨h, hNone⟩
  · rw [h]
    simp only [replaceLine, hKind, hFind]
  · rw [h, replaceLine]
    split
    · next path key value topLevel hKind => rw [hNone path key value topLevel hKind]
    · rfl

/-- A mapped attribute stands in a block, under a plain key. -/
theorem mapped_key {path value : List Char} {topLevel : Bool} {mapping : ParameterMapping}
    (hScheme : scheme.Orderly)
    (hLine : (classify stack text).1 = .attribute path key value topLevel)
    (hFind : scheme.mappings.find? (·.address.toList == path) = some mapping) :
    (classify stack text).2 = stack ∧ stack ≠ [] ∧ path = joinPath stack ++ '.' :: key ∧
      topLevel = decide (stack.length = 1) ∧ key ≠ [] ∧ Plain key ∧ ∀ c ∈ key, c ∈ text := by
  have hClassified := classified stack text
  rw [hLine] at hClassified
  generalize (classify stack text).2 = behind at hClassified
  cases hClassified with
  | assignment hAssigns hStack =>
      obtain ⟨rest, hBegins⟩ := hAssigns.exists_rest
      have hAddress : mapping.address.toList = joinPath stack ++ '.' :: key := by
        simpa using List.find?_some hFind
      obtain ⟨-, -, hNumber, hOpening, hClosing⟩ :=
        hScheme.mapped mapping (List.mem_of_find?_eq_some hFind)
      simp only [hAddress, List.mem_append, List.mem_cons, not_or] at hNumber hOpening hClosing
      refine ⟨rfl, hStack, rfl, rfl, hBegins.1, fun c hc => ⟨hBegins.2.1 c hc, ?_, ?_, ?_⟩,
        hBegins.subset⟩
      · exact fun same => hNumber.2.2 (same ▸ hc)
      · exact fun same => hOpening.2.2 (same ▸ hc)
      · exact fun same => hClosing.2.2 (same ▸ hc)

/-- A rewritten line is the attribute that it was, and leaves the open blocks as they are. -/
theorem classify_rewritten (hScheme : scheme.Orderly)
    (h : (classify stack line.text).1 = line.kind) :
    classify stack (scheme.rewritten line).text =
      ((scheme.rewritten line).kind, (classify stack line.text).2) := by
  rcases rewritten_cases scheme line with
    ⟨path, key, value, topLevel, mapping, hKind, hFind, hLine⟩ | ⟨hLine, -⟩
  · obtain ⟨hBehind, hStack, rfl, rfl, hNonempty, hKey, -⟩ :=
      mapped_key hScheme (h.trans hKind) hFind
    have hParameter := (hScheme.mapped mapping (List.mem_of_find?_eq_some hFind)).1
    rw [hLine, hBehind,
      classify_reference (blank_indentation line.text) hNonempty hKey hParameter hStack]
  · rw [hLine, ← h]

/-- The characters of a rewritten line are those of the line and of its parameter. -/
theorem not_mem_rewritten (hScheme : scheme.Orderly) (hFits : Fits line)
    (hc : c = '\n' ∨ c = '\x1b') (hText : c ∉ line.text) : c ∉ (scheme.rewritten line).text := by
  obtain ⟨stack, hFits⟩ := hFits
  rcases rewritten_cases scheme line with
    ⟨path, key, value, topLevel, mapping, hKind, hFind, hLine⟩ | ⟨hLine, -⟩
  · obtain ⟨-, -, -, -, -, -, hSubset⟩ := mapped_key hScheme (hFits.trans hKind) hFind
    obtain ⟨hParameter, parameterEscape, -⟩ :=
      hScheme.mapped mapping (List.mem_of_find?_eq_some hFind)
    have hIndent : c ∉ indentation line.text := fun hMem =>
      hText ((List.takeWhile_prefix _).subset hMem)
    rw [hLine]
    rcases hc with rfl | rfl
    · exact not_mem_reference hIndent (mt (hSubset _) hText) (by decide) hParameter.not_mem_newline
    · exact not_mem_reference hIndent (mt (hSubset _) hText) (by decide) parameterEscape
  · rwa [hLine]

theorem parsed_map_rewritten (hScheme : scheme.Orderly) (h : Parsed stack read) :
    Parsed stack (read.map scheme.rewritten) := by
  induction read generalizing stack with
  | nil => exact h
  | cons line read ih =>
      obtain ⟨hKind, hRead⟩ := parsed_cons.mp h
      refine parsed_cons.mpr ?_
      rw [classify_rewritten hScheme hKind]
      exact ⟨rfl, ih hRead⟩

theorem replace_eq (scheme : Parameterization) (text : List Char) :
    (scheme.replace text).1 = joinLines (((parse text).map scheme.rewritten).map (·.text)) := by
  simp only [replace, List.map_map, Function.comp_def, text_rewritten]

theorem not_mem_map_rewritten (hScheme : scheme.Orderly) (hc : c = '\n' ∨ c = '\x1b')
    (hFits : ∀ line ∈ read, Fits line) (hRead : ∀ line ∈ read, c ∉ line.text) :
    ∀ line ∈ read.map scheme.rewritten, c ∉ line.text :=
  List.forall_mem_map.mpr fun line hLine =>
    not_mem_rewritten hScheme (hFits line hLine) hc (hRead line hLine)

theorem parse_replace (hScheme : scheme.Orderly) (text : List Char) :
    parse (scheme.replace text).1 = reread ((parse text).map scheme.rewritten) := by
  have hParsed := parsed_parse text
  rw [replace_eq]
  exact parse_joinLines (parsed_map_rewritten hScheme hParsed)
    (not_mem_map_rewritten hScheme (.inl rfl) hParsed.fits fun line hLine =>
      not_mem_of_mem_lines (mem_lines_of_mem_parse hLine))

/-! ### Carriage returns and empty lines -/

theorem indentation_settled (h : ¬Blank line.text) :
    indentation line.settled.text = indentation line.text := by
  obtain ⟨returns, hReturns, hText⟩ := exists_withoutReturns line.text
  have hFull : ((withoutReturns line.text).takeWhile isBlank).length ≠
      (withoutReturns line.text).length := fun hAll => by
    have hBlank : Blank (withoutReturns line.text) := by
      rw [← (List.takeWhile_prefix isBlank).eq_of_length hAll]
      exact blank_indentation _
    exact h (hText ▸ blank_append.mpr ⟨hBlank, hReturns⟩)
  rw [indentation, indentation]
  conv_rhs => rw [hText, List.takeWhile_append, if_neg hFull]
  rfl

theorem reference_settled (hParameter : Plain parameter) :
    withoutReturns (reference indent key parameter) = reference indent key parameter := by
  have hReturn : '\r' ∉ " = var.".toList ++ parameter := by
    rw [List.mem_append, not_or]
    exact ⟨by decide, fun hc => absurd (hParameter.isBlank_eq_false _ hc) (by decide)⟩
  rw [reference, List.append_assoc]
  exact withoutReturns_append (by simp) hReturn

theorem reference_ne_nil : reference indent key parameter ≠ [] := by
  simp [reference]

theorem addedLines_of_other (h : line.kind = .other) : scheme.addedLines line = [] := by
  simp [addedLines, addedLine?, h]

theorem addedLines_settled (hFits : Fits line) :
    scheme.addedLines line.settled = scheme.addedLines line := by
  refine List.filterMap_congr fun addition _ => Option.ext fun added => ?_
  rw [addedLine?_eq_some_iff, addedLine?_eq_some_iff]
  refine exists_congr fun block => exists_congr fun key => and_congr_right fun hKind => ?_
  have hBlank : ¬Blank line.text := hFits.not_blank (by simp [show line.kind = _ from hKind])
  have hHeader : headerAddress? line.settled.text = headerAddress? line.text := by
    obtain ⟨returns, hReturns, hText⟩ := exists_withoutReturns line.text
    refine Option.ext fun address => ?_
    rw [headerAddress?_eq_some_iff, headerAddress?_eq_some_iff]
    conv_rhs => rw [hText, header_append_iff hReturns]
    rfl
  rw [indentation_settled hBlank, hHeader]

theorem settle_added (hScheme : scheme.Orderly) (hRead : ∀ line ∈ read, Fits line) :
    settle (read.flatMap fun line => line :: scheme.addedLines line) =
      (settle read).flatMap fun line => line :: scheme.addedLines line := by
  refine settle_flatMap (fun line hLine => addedLines_settled (hRead line hLine)) ?_ ?_
  · intro line hLine added hAdded
    obtain ⟨addition, hAddition, hAdded⟩ := List.mem_filterMap.mp hAdded
    obtain ⟨block, key, -, -, -, hText, -⟩ := addedLine?_eq_some_iff.mp hAdded
    constructor
    · rw [Line.settled, hText, reference_settled (hScheme.added addition hAddition).1, ← hText]
    · rw [hText]
      exact reference_ne_nil
  · exact fun line hLine hEmpty => addedLines_of_other ((hRead line hLine).kind_of_settled hEmpty)

theorem rewritten_settled (hScheme : scheme.Orderly) (hFits : Fits line) :
    (scheme.rewritten line).settled = scheme.rewritten line.settled ∧
      ((scheme.rewritten line).settled.text = [] ↔ line.settled.text = []) := by
  rcases rewritten_cases scheme line with
    ⟨path, key, value, topLevel, mapping, hKind, hFind, hLine⟩ | ⟨hLine, hNone⟩
  · have hOther : line.kind ≠ .other := by simp [hKind]
    have hParameter := (hScheme.mapped mapping (List.mem_of_find?_eq_some hFind)).1
    have hSettled : scheme.rewritten line.settled = {
        text := reference (indentation line.text) key mapping.parameter.toList
        kind := .attribute path key ("var.".toList ++ mapping.parameter.toList) topLevel } := by
      rw [← indentation_settled (hFits.not_blank hOther)]
      simp [rewritten, show line.settled.kind = _ from hKind, hFind]
    rw [hSettled, hLine, Line.settled, reference_settled hParameter]
    exact ⟨rfl, iff_of_false reference_ne_nil (mt hFits.kind_of_settled hOther)⟩
  · have hSettled : scheme.rewritten line.settled = line.settled := by
      rcases rewritten_cases scheme line.settled with
        ⟨path, key, value, topLevel, mapping, hKind, hFind, -⟩ | ⟨hSame, -⟩
      · rw [hNone path key value topLevel hKind] at hFind
        cases hFind
      · exact hSame
    rw [hLine, hSettled]
    exact ⟨rfl, Iff.rfl⟩

theorem settle_rewritten (hScheme : scheme.Orderly) (hRead : ∀ line ∈ read, Fits line) :
    settle (read.map scheme.rewritten) = (settle read).map scheme.rewritten := by
  refine settle_map (fun line hLine => (rewritten_settled hScheme (hRead line hLine)).1)
    fun line hLine => ?_
  rw [Bool.eq_iff_iff, List.isEmpty_iff, List.isEmpty_iff]
  exact (rewritten_settled hScheme (hRead line hLine)).2

end ServiceBroker.Parameterization
