import ServiceBroker.Json.Printer
import ServiceBroker.Proofs.Definition.Result
import ServiceBroker.Proofs.Fields

/-! Where the recovered values come from.

References are put in before mapped values are taken out, so the last step finds them among the
lines that the tool has shown. A value is then a reference where an attribute is put in that is
mapped as well, and the value of a line that was shown everywhere else. -/

namespace ServiceBroker.Parameterization

open ServiceBroker.Text ServiceBroker.Definition

variable {scheme : Parameterization} {c : Char} {text line path key type name : List Char}
  {stack : List (List Char)} {read : List Line} {parameter : String} {value : Json}

/-- The value that a line gives up, behind the parameter that it is for. -/
def givenUp? (scheme : Parameterization) (line : Line) : Option (String × Json) :=
  (scheme.replaceLine line).2

/-- A line of the cleaned definition gives the value up for the parameter. -/
def Recovers (scheme : Parameterization) (text : List Char) (parameter : String) (value : Json) :
    Prop :=
  ∃ line ∈ parse (scheme.clean text), ∃ path key literal topLevel mapping,
    line.kind = .attribute path key literal topLevel ∧
    scheme.mappings.find? (·.address.toList == path) = some mapping ∧
    mapping.parameter = parameter ∧ literalValue literal = value

theorem givenUp?_eq_some_iff {line : Line} : scheme.givenUp? line = some (parameter, value) ↔
    ∃ path key literal topLevel mapping, line.kind = .attribute path key literal topLevel ∧
      scheme.mappings.find? (·.address.toList == path) = some mapping ∧
      mapping.parameter = parameter ∧ literalValue literal = value := by
  constructor
  · intro h
    unfold givenUp? replaceLine at h
    split at h
    · next path key literal topLevel hKind =>
        split at h
        · next mapping hFind =>
            cases h
            exact ⟨path, key, literal, topLevel, mapping, hKind, hFind, rfl, rfl⟩
        · cases h
    · cases h
  · rintro ⟨path, key, literal, topLevel, mapping, hKind, hFind, rfl, rfl⟩
    simp only [givenUp?, replaceLine, hKind, hFind]

theorem recovers_iff : scheme.Recovers text parameter value ↔
    ∃ line ∈ parse (scheme.clean text), scheme.givenUp? line = some (parameter, value) := by
  simp only [Recovers, givenUp?_eq_some_iff]

theorem givenUp?_congr {first second : Line} (h : first.kind = second.kind) :
    scheme.givenUp? first = scheme.givenUp? second := by
  refine Option.ext fun field => ?_
  rw [givenUp?_eq_some_iff, givenUp?_eq_some_iff, h]

theorem givenUp?_of_other {line : Line} (h : line.kind = .other) : scheme.givenUp? line = none := by
  simp only [givenUp?, replaceLine, h]

theorem givenUp?_of_opening {line : Line} (h : line.kind = .opening path) :
    scheme.givenUp? line = none := by
  simp only [givenUp?, replaceLine, h]

/-- What a line gives up does not depend on carriage returns, and an empty line gives nothing up. -/
theorem filterMap_givenUp?_reread (hRead : ∀ line ∈ read, Fits line) :
    (reread read).filterMap scheme.givenUp? = read.filterMap scheme.givenUp? := by
  fun_induction reread read with
  | case1 => rfl
  | case2 last hEmpty =>
      have hSettled : last.settled.text = [] := by
        rw [Line.settled, List.isEmpty_iff.mp hEmpty]
        rfl
      have hOther := (hRead last (by simp)).kind_of_settled hSettled
      simp [givenUp?_of_other hOther]
  | case3 last hEmpty => rfl
  | case4 line next read ih =>
      obtain ⟨-, hLater⟩ := List.forall_mem_cons.mp hRead
      have hSame : scheme.givenUp? { line with text := dropReturn line.text } =
          scheme.givenUp? line := givenUp?_congr rfl
      rw [List.filterMap_cons, List.filterMap_cons, ih hLater, hSame]

theorem snd_replace (scheme : Parameterization) (text : List Char) :
    (scheme.replace text).2 = Fields.ofPairs ((parse text).filterMap scheme.givenUp?) := by
  simp only [replace, List.filterMap_map]
  rfl

/-- The scheme that does nothing but put attributes in. -/
def adding (scheme : Parameterization) : Parameterization :=
  { additions := scheme.additions }

/-- All that is given up, by the lines of the cleaned definition and by those that are put in. -/
theorem snd_apply (hAdding : scheme.adding.Orderly) (text : List Char) :
    (scheme.apply text).2 = Fields.ofPairs
      (((parse (scheme.clean text)).flatMap fun line =>
        line :: scheme.addedLines line).filterMap scheme.givenUp?) := by
  have hAdd : parse (scheme.add (scheme.clean text)) =
      reread ((parse (scheme.clean text)).flatMap fun line => line :: scheme.addedLines line) :=
    parse_add hAdding (scheme.clean text)
  have hParsed : Parsed [] ((parse (scheme.clean text)).flatMap fun line =>
      line :: scheme.adding.addedLines line) :=
    parsed_withAdded hAdding (parsed_parse (scheme.clean text))
  have hFits : ∀ line ∈ (parse (scheme.clean text)).flatMap fun line =>
      line :: scheme.addedLines line, Fits line := hParsed.fits
  rw [apply, snd_replace, hAdd, filterMap_givenUp?_reread hFits]

/-! ### Which value counts -/

/-- Lines that give nothing up for a parameter do not matter to its value. -/
theorem get?_withAdded
    (h : ∀ line ∈ read, ∀ added ∈ scheme.addedLines line, ∀ value,
      scheme.givenUp? added ≠ some (parameter, value)) :
    (Fields.ofPairs ((read.flatMap fun line =>
        line :: scheme.addedLines line).filterMap scheme.givenUp?)).get? parameter =
      (Fields.ofPairs (read.filterMap scheme.givenUp?)).get? parameter := by
  induction read with
  | nil => rfl
  | cons line read ih =>
      obtain ⟨hLine, hRead⟩ := List.forall_mem_cons.mp h
      have hAdded : (Fields.ofPairs ((scheme.addedLines line).filterMap
          scheme.givenUp?)).get? parameter = none := by
        refine Fields.get?_ofPairs_eq_none fun value hMem => ?_
        obtain ⟨added, hMember, hGiven⟩ := List.mem_filterMap.mp hMem
        exact hLine added hMember value hGiven
      rw [List.flatMap_cons, List.cons_append, ← List.singleton_append,
        ← List.singleton_append (l := read), List.filterMap_append, List.filterMap_append,
        List.filterMap_append, Fields.get?_ofPairs_append, Fields.get?_ofPairs_append,
        Fields.get?_ofPairs_append, hAdded, ih hRead, Option.or_none]

/-! ### References -/

theorem readDocument?_reference (rest : List Char) : Json.readDocument? ('v' :: rest) = none :=
  rfl

/-- A reference is no JSON, so it counts as a text. -/
theorem literalValue_reference (parameter : List Char) :
    literalValue ("var.".toList ++ parameter) =
      .string (String.ofList ("var.".toList ++ parameter)) := by
  have hRead : Json.readDocument? (String.ofList ("var.".toList ++ parameter)).toList = none := by
    rw [String.toList_ofList]
    exact readDocument?_reference _
  change literalValue.jsonOr ("var.".toList ++ parameter) = _
  rw [literalValue.jsonOr, Json.parse, Json.decode, hRead]
  rfl

/-- What an added line gives up: the reference, if the attribute is mapped. -/
theorem exists_of_givenUp?_added {opener added : Line} (hAdded : added ∈ scheme.addedLines opener)
    (hGiven : scheme.givenUp? added = some (parameter, value)) :
    ∃ addition ∈ scheme.additions, ∃ block key mapping, opener.kind = .opening block ∧
      addition.address.toList = block ++ '.' :: key ∧ '.' ∉ key ∧
      scheme.mappings.find? (·.address.toList == addition.address.toList) = some mapping ∧
      mapping.parameter = parameter ∧
      value = .string (String.ofList ("var.".toList ++ addition.parameter.toList)) := by
  obtain ⟨addition, hAddition, hLine⟩ := List.mem_filterMap.mp hAdded
  obtain ⟨block, key, hOpener, hAddress, hKey, -, hKind⟩ := addedLine?_eq_some_iff.mp hLine
  obtain ⟨_, _, _, _, mapping, hAttribute, hFind, hParameter, hValue⟩ :=
    givenUp?_eq_some_iff.mp hGiven
  cases hKind.symm.trans hAttribute
  rw [literalValue_reference] at hValue
  exact ⟨addition, hAddition, block, key, mapping, hOpener, hAddress, hKey, hFind, hParameter,
    hValue.symm⟩

/-! ### The paths of blocks -/

/-- A character that a cleaned line can have within a label or a key. -/
def Printable (c : Char) : Prop :=
  c ≠ '"' ∧ c ≠ '\n' ∧ c ≠ '\x1b'

instance (c : Char) : Decidable (Printable c) :=
  inferInstanceAs (Decidable (_ ∧ _))

/-- A path that some definition has for a block: the type and the name of a resource, and perhaps
keys behind them. -/
def BlockPath (path : List Char) : Prop :=
  ∃ type name, path = type ++ '.' :: name ∧ type ≠ [] ∧ name ≠ [] ∧ ∀ c ∈ path, Printable c

theorem BlockPath.nested (h : BlockPath path) (hKey : ∀ c ∈ key, Printable c) :
    BlockPath (path ++ '.' :: key) := by
  obtain ⟨type, name, rfl, hType, hName, hPath⟩ := h
  refine ⟨type, name ++ '.' :: key, by simp, hType, by simp, ?_⟩
  rw [List.forall_mem_append, List.forall_mem_cons]
  exact ⟨hPath, by decide, hKey⟩

/-- Blocks that stand open within a resource. -/
inductive Rooted : List (List Char) → Prop where
  | outside : Rooted []
  | resource {path : List Char} (h : BlockPath path) : Rooted [path]
  | within {stack : List (List Char)} {key : List Char} (h : Rooted stack) (hStack : stack ≠ [])
      (hKey : ∀ c ∈ key, Printable c) : Rooted (key :: stack)

theorem Rooted.tail (h : Rooted stack) : Rooted stack.tail := by
  cases h with
  | outside => exact .outside
  | resource h => exact .outside
  | within h hStack hKey => exact h

theorem Rooted.blockPath (h : Rooted stack) (hStack : stack ≠ []) : BlockPath (joinPath stack) := by
  induction h with
  | outside => exact absurd rfl hStack
  | resource h => simpa [joinPath] using h
  | within h hInner hKey ih =>
      rw [joinPath_cons hInner]
      exact (ih hInner).nested hKey

theorem printable_of_mem (hLine : '\n' ∉ line ∧ '\x1b' ∉ line) (hc : c ∈ line) (hQuote : c ≠ '"') :
    Printable c :=
  ⟨hQuote, fun same => hLine.1 (same ▸ hc), fun same => hLine.2 (same ▸ hc)⟩

theorem blockPath_of_header (h : Header line path) (hLine : '\n' ∉ line ∧ '\x1b' ∉ line) :
    BlockPath path := by
  obtain ⟨lead, keyword, labels, text, -, ⟨type, named, name, braced,
    ⟨gap, -, -, hType, typeQuote, rfl⟩, ⟨between, -, -, hName, nameQuote, rfl⟩, -, rfl⟩, hKeyword,
    rfl⟩ := h
  have hPrintable : ∀ c ∈ type ++ '.' :: name, Printable c := by
    rw [List.forall_mem_append, List.forall_mem_cons]
    exact ⟨fun c hc => printable_of_mem hLine (by simp [hc]) fun same => typeQuote (same ▸ hc),
      by decide,
      fun c hc => printable_of_mem hLine (by simp [hc]) fun same => nameQuote (same ▸ hc)⟩
  rcases hKeyword with ⟨-, rfl⟩ | ⟨-, rfl⟩
  · exact ⟨type, name, rfl, hType, hName, hPrintable⟩
  · refine ⟨"data".toList, type ++ '.' :: name, by simp, by simp, by simp, ?_⟩
    exact List.forall_mem_append.mpr ⟨by simp [Printable], hPrintable⟩

theorem printable_of_beginsWithKey {rest : List Char} (h : BeginsWithKey line key rest)
    (hLine : '\n' ∉ line ∧ '\x1b' ∉ line) : ∀ c ∈ key, Printable c := by
  refine fun c hc => printable_of_mem hLine (h.subset c hc) ?_
  rintro rfl
  exact absurd (h.2.1 _ hc) (by decide)

theorem Rooted.behind_line (h : Rooted stack) (hLine : '\n' ∉ line ∧ '\x1b' ∉ line) :
    Rooted (classify stack line).2 := by
  have hClassified := classified stack line
  generalize (classify stack line).1 = kind at hClassified
  generalize (classify stack line).2 = behind at hClassified
  cases hClassified with
  | comment => exact h
  | header hHeader => exact .resource (blockPath_of_header hHeader hLine)
  | closing => exact h.tail
  | nested hOpens hStack =>
      obtain ⟨_, _, _, _, -, -, -, -, hKey⟩ := hOpens
      exact .within h hStack (printable_of_beginsWithKey hKey hLine)
  | assignment => exact h
  | plain => exact h

/-- A block that a line opens is one within a resource. -/
theorem blockPath_of_parsed (hParsed : Parsed stack read) (hStack : Rooted stack)
    (hRead : ∀ line ∈ read, '\n' ∉ line.text ∧ '\x1b' ∉ line.text) :
    ∀ line ∈ read, line.kind = .opening path → BlockPath path := by
  induction read generalizing stack with
  | nil => simp
  | cons first read ih =>
      obtain ⟨hKind, hParsed⟩ := parsed_cons.mp hParsed
      obtain ⟨hFirst, hRead⟩ := List.forall_mem_cons.mp hRead
      have hBehind := hStack.behind_line hFirst
      refine List.forall_mem_cons.mpr ⟨fun hOpening => ?_, ih hParsed hBehind hRead⟩
      obtain ⟨hSome, hPath, -⟩ := classify_of_opening (hKind.trans hOpening)
      exact hPath ▸ hBehind.blockPath hSome

theorem blockPath_of_clean {opener : Line} (hOpener : opener ∈ parse (scheme.clean text))
    (hKind : opener.kind = .opening path) : BlockPath path :=
  blockPath_of_parsed (parsed_parse (scheme.clean text)) .outside
    (fun line hLine => ⟨not_mem_of_mem_lines (mem_lines_of_mem_parse hLine),
      not_mem_lines_of_text (not_mem_clean scheme text) line hLine⟩) opener hOpener hKind

/-- The header of a resource in the form in which the tool prints it. -/
def headerLine (type name : List Char) : List Char :=
  "resource".toList ++ (' ' :: '"' :: (type ++ '"' :: ' ' :: '"' :: (name ++ ['"', ' ', '{'])))

theorem header_headerLine (hType : type ≠ []) (hName : name ≠ []) (typeQuote : '"' ∉ type)
    (nameQuote : '"' ∉ name) : Header (headerLine type name) (type ++ '.' :: name) := by
  have hGap : Blank [' '] := by simp [isBlank]
  have hNamed : Labelled (' ' :: '"' :: (name ++ ['"', ' ', '{'])) name [' ', '{'] :=
    ⟨[' '], by simp, hGap, hName, nameQuote, rfl⟩
  have hTyped : Labelled
      (' ' :: '"' :: (type ++ '"' :: ' ' :: '"' :: (name ++ ['"', ' ', '{']))) type
      (' ' :: '"' :: (name ++ ['"', ' ', '{'])) :=
    ⟨[' '], by simp, hGap, hType, typeQuote, rfl⟩
  have hBraced : Braced [' ', '{'] := ⟨[' '], [], hGap, blank_nil, rfl⟩
  exact ⟨[], "resource".toList, _, _, blank_nil, ⟨_, _, _, _, hTyped, hNamed, hBraced, rfl⟩,
    .inl ⟨rfl, rfl⟩, List.nil_append _⟩

theorem not_mem_headerLine (hWord : c ∉ "resource".toList) (hMarks : c ∉ [' ', '"', '{'])
    (hType : c ∉ type) (hName : c ∉ name) : c ∉ headerLine type name := by
  have hParts : ∀ word : List Char, c ∉ word →
      c ∉ word ++ (' ' :: '"' :: (type ++ '"' :: ' ' :: '"' :: (name ++ ['"', ' ', '{']))) := by
    simp only [List.mem_cons, List.not_mem_nil, or_false, not_or] at hMarks
    intro word hWord
    simp [hMarks, hType, hName, hWord]
  exact hParts _ hWord

theorem stripEscapes_eq_self (h : '\x1b' ∉ text) : stripEscapes text = text := by
  rw [stripEscapes]
  induction text with
  | nil => rfl
  | cons c text ih =>
      obtain ⟨hc, hText⟩ := List.ne_and_not_mem_of_not_mem_cons h
      rw [stripEscapesFrom, if_neg (Ne.symm hc), ih hText]

/-- A text of one line is read as that line. -/
theorem parse_of_line (h : '\n' ∉ line) (hLine : line ≠ []) :
    parse line = [{ text := line, kind := (classify [] line).1 }] := by
  rw [parse, lines, splitAt_of_not_mem h, endLines, if_neg (by simpa using hLine)]
  rfl

/-- For every path that a block can have there is a definition with nothing but such a block. -/
theorem exists_parse_clean (scheme : Parameterization) (h : BlockPath path) :
    ∃ text header, parse (scheme.clean text) = [{ text := header, kind := .opening path }] := by
  obtain ⟨type, name, rfl, hType, hName, hPath⟩ := h
  rw [List.forall_mem_append, List.forall_mem_cons] at hPath
  obtain ⟨typePrintable, -, namePrintable⟩ := hPath
  have hHeader : Header (headerLine type name) (type ++ '.' :: name) :=
    header_headerLine hType hName (fun hc => (typePrintable _ hc).1 rfl)
      fun hc => (namePrintable _ hc).1 rfl
  have hNewline : '\n' ∉ headerLine type name := not_mem_headerLine (by decide) (by decide)
    (fun hc => (typePrintable _ hc).2.1 rfl) fun hc => (namePrintable _ hc).2.1 rfl
  have hEscape : '\x1b' ∉ headerLine type name := not_mem_headerLine (by decide) (by decide)
    (fun hc => (typePrintable _ hc).2.2 rfl) fun hc => (namePrintable _ hc).2.2 rfl
  have hLine : parse (headerLine type name) =
      [{ text := headerLine type name, kind := .opening (type ++ '.' :: name) }] := by
    rw [parse_of_line hNewline (List.append_ne_nil_of_right_ne_nil _ (List.cons_ne_nil _ _)),
      classify_of_header hHeader]
  have hClean : scheme.clean (headerLine type name) = headerLine type name := by
    rw [clean, stripEscapes_eq_self hEscape, hLine, List.filter_cons_of_pos rfl]
    exact List.append_nil _
  exact ⟨headerLine type name, headerLine type name, by rw [hClean, hLine]⟩

/-! ### The source of a value -/

/-- What is captured was given up by a line of the cleaned definition, or is the reference of an
attribute that was put in there. -/
theorem source_of_captured (hAdding : scheme.adding.Orderly)
    (hValue : (scheme.apply text).2.get? parameter = some value) :
    scheme.Recovers text parameter value ∨
      ∃ opener ∈ parse (scheme.clean text), ∃ addition ∈ scheme.additions,
        ∃ block key mapping, opener.kind = .opening block ∧
          addition.address.toList = block ++ '.' :: key ∧ '.' ∉ key ∧
          scheme.mappings.find? (·.address.toList == addition.address.toList) = some mapping ∧
          mapping.parameter = parameter ∧
          value = .string (String.ofList ("var.".toList ++ addition.parameter.toList)) := by
  rw [snd_apply hAdding] at hValue
  obtain ⟨line, hLine, hGiven⟩ :=
    List.mem_filterMap.mp (Fields.mem_of_mem_ofPairs (Fields.mem_of_get? hValue))
  obtain ⟨opener, hOpener, hLine⟩ := List.mem_flatMap.mp hLine
  rcases List.mem_cons.mp hLine with rfl | hAdded
  · exact .inl (recovers_iff.mpr ⟨line, hOpener, hGiven⟩)
  · obtain ⟨addition, hAddition, hSource⟩ := exists_of_givenUp?_added hAdded hGiven
    exact .inr ⟨opener, hOpener, addition, hAddition, hSource⟩

/-- Without an attribute that is put in and mapped to it, a parameter has the value that it has when
nothing is put in. -/
theorem get?_apply_of_unmapped (hAdding : scheme.adding.Orderly)
    (hUnmapped : ∀ addition ∈ scheme.additions, ∀ block key,
      addition.address.toList = block ++ '.' :: key → '.' ∉ key → BlockPath block →
      ∀ mapping, scheme.mappings.find? (·.address.toList == addition.address.toList) =
        some mapping → mapping.parameter ≠ parameter) (text : List Char) :
    (scheme.apply text).2.get? parameter =
      (scheme.replace (scheme.clean text)).2.get? parameter := by
  rw [snd_apply hAdding, snd_replace]
  refine get?_withAdded fun opener hOpener added hAdded value hGiven => ?_
  obtain ⟨addition, hAddition, block, key, mapping, hKind, hAddress, hKey, hFind, hParameter, -⟩ :=
    exists_of_givenUp?_added hAdded hGiven
  exact hUnmapped addition hAddition block key hAddress hKey (blockPath_of_clean hOpener hKind)
    mapping hFind hParameter

/-- An attribute that is put in and mapped gives its reference up where it stands alone. -/
theorem exists_captured_reference (hAdding : scheme.adding.Orderly) {block : List Char}
    {addition mapping : ParameterMapping} (hAddition : addition ∈ scheme.additions)
    (hAddress : addition.address.toList = block ++ '.' :: key) (hKey : '.' ∉ key)
    (hBlock : BlockPath block)
    (hFind : scheme.mappings.find? (·.address.toList == addition.address.toList) = some mapping) :
    ∃ text value, (scheme.apply text).2.get? mapping.parameter = some value ∧
      ¬scheme.Recovers text mapping.parameter value := by
  obtain ⟨text, header, hClean⟩ := exists_parse_clean scheme hBlock
  let opener : Line := { text := header, kind := .opening block }
  let added : Line := {
    text := reference (indentation header ++ "    ".toList) key addition.parameter.toList
    kind := .attribute addition.address.toList key ("var.".toList ++ addition.parameter.toList)
      (headerAddress? header).isSome }
  have hAdded : added ∈ scheme.addedLines opener :=
    List.mem_filterMap.mpr ⟨addition, hAddition,
      addedLine?_eq_some_iff.mpr ⟨block, key, rfl, hAddress, hKey, rfl, rfl⟩⟩
  have hGiven : scheme.givenUp? added =
      some (mapping.parameter, literalValue ("var.".toList ++ addition.parameter.toList)) :=
    givenUp?_eq_some_iff.mpr ⟨_, _, _, _, mapping, rfl, hFind, rfl, rfl⟩
  have hSome : ((scheme.apply text).2.get? mapping.parameter).isSome := by
    rw [snd_apply hAdding, hClean]
    have hMem : added ∈ [opener].flatMap fun line => line :: scheme.addedLines line :=
      List.mem_flatMap.mpr ⟨opener, List.mem_cons_self, List.mem_cons_of_mem _ hAdded⟩
    obtain ⟨before, after, hPairs⟩ :=
      List.append_of_mem (List.mem_filterMap.mpr ⟨added, hMem, hGiven⟩)
    rw [hPairs, Fields.get?_ofPairs_append_cons]
    simp
  obtain ⟨value, hValue⟩ := Option.isSome_iff_exists.mp hSome
  refine ⟨text, value, hValue, fun hRecovers => ?_⟩
  obtain ⟨line, hLine, hLineGiven⟩ := recovers_iff.mp hRecovers
  rw [hClean] at hLine
  obtain rfl := List.mem_singleton.mp hLine
  rw [givenUp?_of_opening rfl] at hLineGiven
  cases hLineGiven

/-- All values that are ever captured for a parameter are those of lines in the cleaned definition
exactly if no attribute that is put in, into a block that there can be, is mapped to the parameter.
Else it is captured as the text of the reference, from the very line that was put in. -/
theorem captured_from_definition_iff (hAdding : scheme.adding.Orderly) (parameter : String) :
    ((∀ text value, (scheme.apply text).2.get? parameter = some value →
        scheme.Recovers text parameter value) ↔
      ∀ addition ∈ scheme.additions, ∀ block key,
        addition.address.toList = block ++ '.' :: key → '.' ∉ key → BlockPath block →
        ∀ mapping, scheme.mappings.find? (·.address.toList == addition.address.toList) =
          some mapping → mapping.parameter ≠ parameter) ∧
      ∀ text value, (scheme.apply text).2.get? parameter = some value →
        scheme.Recovers text parameter value ∨
          ∃ opener ∈ parse (scheme.clean text), ∃ addition ∈ scheme.additions,
            ∃ block key mapping, opener.kind = .opening block ∧
              addition.address.toList = block ++ '.' :: key ∧ '.' ∉ key ∧
              scheme.mappings.find? (·.address.toList == addition.address.toList) =
                some mapping ∧ mapping.parameter = parameter ∧
              value = .string (String.ofList ("var.".toList ++ addition.parameter.toList)) := by
  refine ⟨⟨fun hRecovers addition hAddition block key hAddress hKey hBlock mapping hFind => ?_,
    fun hUnmapped text value hValue => ?_⟩, fun text value => source_of_captured hAdding⟩
  · rintro rfl
    obtain ⟨text, value, hValue, hNot⟩ :=
      exists_captured_reference hAdding hAddition hAddress hKey hBlock hFind
    exact hNot (hRecovers text value hValue)
  · rw [get?_apply_of_unmapped hAdding hUnmapped, snd_replace] at hValue
    obtain ⟨line, hLine, hGiven⟩ :=
      List.mem_filterMap.mp (Fields.mem_of_mem_ofPairs (Fields.mem_of_get? hValue))
    exact recovers_iff.mpr ⟨line, hLine, hGiven⟩

theorem orderly_adding_bucketScheme : bucketScheme.adding.Orderly where
  mapped := by simp [adding]
  added := orderly_bucketScheme.added

/-- Every name of a bucket that is captured is one that the tool has shown. -/
theorem captured_from_definition_bucket_name :
    bucketScheme.adding.Orderly ∧
      ((bucketScheme.apply bucketShown).2.get? "bucket_name").map Json.compact =
        some ['"', 'l', 'o', 'g', 's', '"'] ∧
      ∀ text value, (bucketScheme.apply text).2.get? "bucket_name" = some value →
        bucketScheme.Recovers text "bucket_name" value := by
  refine ⟨orderly_adding_bucketScheme, by decide +kernel, ?_⟩
  obtain ⟨hIff, -⟩ := captured_from_definition_iff orderly_adding_bucketScheme "bucket_name"
  refine hIff.mpr fun addition hAddition block key _ _ _ mapping hFind => ?_
  obtain rfl := List.mem_singleton.mp hAddition
  have hDays : bucketScheme.mappings.find?
      (·.address.toList == "aws_s3_bucket.b.rule.days".toList) =
        some { address := "aws_s3_bucket.b.rule.days", parameter := "days" } := by decide +kernel
  cases hDays.symm.trans hFind
  decide

/-- No line that the tool shows gives the days up, and yet they are captured: as the reference that
was put in. -/
theorem added_reference_captured :
    ((bucketScheme.apply bucketShown).2.get? "days").map Json.compact =
        some ('"' :: ("var.expiry-days".toList ++ ['"'])) ∧
      ∀ value, ¬bucketScheme.Recovers bucketShown "days" value := by
  refine ⟨by decide +kernel, fun value hRecovers => ?_⟩
  obtain ⟨line, hLine, hGiven⟩ := recovers_iff.mp hRecovers
  have hNames : ((parse (bucketScheme.clean bucketShown)).filterMap bucketScheme.givenUp?).map
      (·.1) = ["bucket_name"] := by decide +kernel
  have hDays : "days" ∈ ["bucket_name"] := by
    rw [← hNames]
    exact List.mem_map_of_mem (List.mem_filterMap.mpr ⟨line, hLine, hGiven⟩)
  exact absurd hDays (by decide)

end ServiceBroker.Parameterization
