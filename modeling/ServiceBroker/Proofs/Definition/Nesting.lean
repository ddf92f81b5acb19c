import ServiceBroker.Proofs.Definition.Parse

/-! The nesting of blocks by their braces, and the addresses of attributes.

Braces in strings do not count. As long as every line that opens a brace within a resource does so
under a key, the blocks that stand open to the parser are those whose braces are open, so that an
attribute is addressed by the resource and the keys around it. -/

namespace ServiceBroker.Definition

open ServiceBroker.Text

variable {skip : Nat} {text line first rest key value path : List Char}
  {outer stack before after : List (List Char)}

/-- How much of a text belongs to the string that it begins in, with the closing quote. A backslash
takes the character behind it into the string. -/
def stringLength? : List Char → Option Nat
  | [] => none
  | '"' :: _ => some 1
  | '\\' :: _ :: rest => (stringLength? rest).map (· + 2)
  | _ :: rest => (stringLength? rest).map (· + 1)

/-- The text outside of strings; the first `skip` characters belong to one. A quote that no other
closes is a character like any other. -/
def bareFrom : Nat → List Char → List Char
  | _, [] => []
  | skip + 1, _ :: rest => bareFrom skip rest
  | 0, c :: rest =>
    if c = '"' then
      match stringLength? rest with
      | some length => bareFrom length rest
      | none => c :: bareFrom 0 rest
    else c :: bareFrom 0 rest

/-- The line without its strings. -/
def bare (line : List Char) : List Char :=
  bareFrom 0 line

/-- A brace opens, on `line`, or closes the innermost one. -/
def brace (line : List Char) (outer : List (List Char)) (c : Char) : List (List Char) :=
  if c = '{' then line :: outer else if c = '}' then outer.tail else outer

/-- The lines whose braces are open behind a line, the innermost first. -/
def descend (outer : List (List Char)) (line : List Char) : List (List Char) :=
  (bare line).foldl (brace line) outer

/-- The lines whose braces are open behind all of `lines`. -/
def openBehind (lines : List (List Char)) : List (List Char) :=
  lines.foldl descend []

/-- At most one brace opens, at the end of the line, and at most one closes, at its beginning. -/
structure Tidy (line : List Char) : Prop where
  oneOpening : (bare line).count '{' ≤ 1
  opensAtEnd : '{' ∈ bare line → EndsWithBrace line
  oneClosing : (bare line).count '}' ≤ 1
  closesAtBeginning : '}' ∈ bare line → isClosing line = true

/-- Lines that are tidy and close all that is open, where every brace that opens outside of the
others is that of a resource or data source. -/
def Blocks (outer : List (List Char)) : List (List Char) → Prop
  | [] => outer = []
  | line :: rest =>
    Tidy line ∧ ('}' ∈ bare line → outer ≠ []) ∧
      ('{' ∈ bare line → descend outer line = [line] → ∃ address, Header line address) ∧
      Blocks (descend outer line) rest

/-- Whatever opens a brace within another one is a block or a map with a key. -/
def Keyed (outer : List (List Char)) : List (List Char) → Prop
  | [] => True
  | line :: rest =>
    ('{' ∈ bare line → outer ≠ [] →
      (∃ key, Opens line key) ∧ isComment line = false ∧ isClosing line = false) ∧
      Keyed (descend outer line) rest

instance (line : List Char) : Decidable (Tidy line) :=
  decidable_of_iff ((bare line).count '{' ≤ 1 ∧ ('{' ∈ bare line → EndsWithBrace line) ∧
      (bare line).count '}' ≤ 1 ∧ ('}' ∈ bare line → isClosing line = true))
    ⟨fun ⟨h₁, h₂, h₃, h₄⟩ => ⟨h₁, h₂, h₃, h₄⟩, fun ⟨h₁, h₂, h₃, h₄⟩ => ⟨h₁, h₂, h₃, h₄⟩⟩

instance decidableBlocks : (outer lines : List (List Char)) → Decidable (Blocks outer lines)
  | outer, [] => inferInstanceAs (Decidable (outer = []))
  | outer, line :: rest =>
    have := decidableBlocks (descend outer line) rest
    inferInstanceAs (Decidable (Tidy line ∧ ('}' ∈ bare line → outer ≠ []) ∧
      ('{' ∈ bare line → descend outer line = [line] → ∃ address, Header line address) ∧
      Blocks (descend outer line) rest))

instance decidableKeyed : (outer lines : List (List Char)) → Decidable (Keyed outer lines)
  | _, [] => inferInstanceAs (Decidable True)
  | outer, line :: rest =>
    have := decidableKeyed (descend outer line) rest
    inferInstanceAs (Decidable (('{' ∈ bare line → outer ≠ [] →
      (∃ key, Opens line key) ∧ isComment line = false ∧ isClosing line = false) ∧
      Keyed (descend outer line) rest))

/-- The address of what stands within the braces of `outer`. -/
inductive Within : List (List Char) → List Char → Prop
  | header {line address : List Char} (h : Header line address) : Within [line] address
  | nested {outer : List (List Char)} {path line key : List Char} (h : Within outer path)
      (hOpens : Opens line key) : Within (line :: outer) (path ++ '.' :: key)

/-! ### Braces of a line -/

theorem stringLength?_eq_none (h : '"' ∉ text) : stringLength? text = none := by
  fun_induction stringLength? text with
  | case1 => rfl
  | case2 rest => simp at h
  | case3 c rest ih => rw [ih (by simp_all), Option.map_none]
  | case4 c rest hQuote hEscape ih => rw [ih (by simp_all), Option.map_none]

/-- Without a quote behind it, a string ends where it would end at the end of the text. -/
theorem stringLength?_append (h : '"' ∉ rest) :
    stringLength? (first ++ rest) = stringLength? first := by
  fun_induction stringLength? first with
  | case1 => exact stringLength?_eq_none h
  | case2 first => rfl
  | case3 c first ih => simp [stringLength?, ih]
  | case4 c first hQuote hEscape ih =>
      cases first with
      | nil =>
          have hc : '"' ≠ c := fun same => hQuote same.symm
          rw [stringLength?_eq_none (by simp [hc, h]), stringLength?, Option.map_none]
      | cons d first =>
          have hc : c ≠ '\\' := fun same => hEscape d first same rfl
          simpa [stringLength?, hQuote, hc] using congrArg _ ih

theorem stringLength?_le {length : Nat} (h : stringLength? text = some length) :
    length ≤ text.length := by
  fun_induction stringLength? text generalizing length with
  | case1 => cases h
  | case2 rest => cases h; simp
  | case3 c rest ih =>
      obtain ⟨length, hRest, rfl⟩ := Option.map_eq_some_iff.mp h
      have := ih hRest
      simp only [List.length_cons]
      omega
  | case4 c rest hQuote hEscape ih =>
      obtain ⟨length, hRest, rfl⟩ := Option.map_eq_some_iff.mp h
      have := ih hRest
      simp only [List.length_cons]
      omega

theorem bareFrom_of_not_mem (h : '"' ∉ text) : bareFrom 0 text = text := by
  induction text with
  | nil => rfl
  | cons c text ih =>
      obtain ⟨hc, hText⟩ : '"' ≠ c ∧ '"' ∉ text := by simpa using h
      rw [bareFrom, if_neg (Ne.symm hc), ih hText]

theorem bareFrom_append (h : '"' ∉ rest) (hSkip : skip ≤ first.length) :
    bareFrom skip (first ++ rest) = bareFrom skip first ++ rest := by
  induction first generalizing skip with
  | nil =>
      obtain rfl : skip = 0 := by simpa using hSkip
      exact bareFrom_of_not_mem h
  | cons c first ih =>
      cases skip with
      | succ skip => exact ih (by simpa using hSkip)
      | zero =>
          simp only [List.cons_append, bareFrom, stringLength?_append h]
          split
          · split
            · next length hLength => exact ih (stringLength?_le hLength)
            · rw [ih (Nat.zero_le _), List.cons_append]
          · rw [ih (Nat.zero_le _), List.cons_append]

/-- A brace at the end of a line is in no string, since no quote follows it. -/
theorem mem_bare_of_endsWithBrace (h : EndsWithBrace line) : '{' ∈ bare line := by
  obtain ⟨before, tail, hTail, rfl⟩ := h
  have hQuote : '"' ∉ '{' :: tail := by
    simpa using fun member : '"' ∈ tail => absurd (hTail '"' member) (by decide)
  rw [bare, bareFrom_append hQuote (Nat.zero_le _)]
  simp

/-- A brace at the beginning of a line is in no string, since no quote precedes it. -/
theorem mem_bare_of_isClosing (h : isClosing line = true) : '}' ∈ bare line := by
  obtain ⟨lead, hLead, hLine⟩ := exists_trimLeft line
  obtain ⟨rest, hRest⟩ : ∃ rest, trimLeft line = '}' :: rest := by
    simpa [isClosing, List.head?_eq_some_iff] using h
  rw [hLine, hRest]
  clear hLine hRest h
  induction lead with
  | nil => simp [bare, bareFrom]
  | cons c lead ih =>
      obtain ⟨hc, hLead⟩ := blank_cons.mp hLead
      have hQuote : c ≠ '"' := by
        rintro rfl
        exact absurd hc (by decide)
      have := ih hLead
      rw [bare] at this ⊢
      rw [List.cons_append, bareFrom, if_neg hQuote]
      exact List.mem_cons_of_mem c this

/-! ### One line -/

theorem foldl_brace (hOpening : '{' ∉ text) (hClosing : '}' ∉ text) :
    text.foldl (brace line) outer = outer := by
  induction text with
  | nil => rfl
  | cons c text ih =>
      obtain ⟨hOpen, hOpening⟩ : '{' ≠ c ∧ '{' ∉ text := by simpa using hOpening
      obtain ⟨hClose, hClosing⟩ : '}' ≠ c ∧ '}' ∉ text := by simpa using hClosing
      rw [List.foldl_cons, brace, if_neg (Ne.symm hOpen), if_neg (Ne.symm hClose)]
      exact ih hOpening hClosing

theorem descend_of_not_mem (hOpening : '{' ∉ bare line) (hClosing : '}' ∉ bare line) :
    descend outer line = outer :=
  foldl_brace hOpening hClosing

/-- The one occurrence of a character in a text. -/
theorem exists_of_count_le_one {c : Char} (hMem : c ∈ text) (hCount : text.count c ≤ 1) :
    ∃ first rest, text = first ++ c :: rest ∧ c ∉ first ∧ c ∉ rest := by
  obtain ⟨first, rest, rfl, hFirst⟩ := List.eq_append_cons_of_mem hMem
  refine ⟨first, rest, rfl, hFirst, List.count_eq_zero.mp ?_⟩
  simp only [List.count_append, List.count_cons_self] at hCount
  omega

theorem Tidy.descend_of_opening (h : Tidy line) (hOpening : '{' ∈ bare line)
    (hClosing : '}' ∉ bare line) : descend outer line = line :: outer := by
  obtain ⟨first, rest, hBare, hFirst, hRest⟩ := exists_of_count_le_one hOpening h.oneOpening
  rw [hBare] at hClosing
  simp only [List.mem_append, List.mem_cons, not_or] at hClosing
  rw [descend, hBare, List.foldl_append, foldl_brace hFirst hClosing.1, List.foldl_cons, brace,
    if_pos rfl, foldl_brace hRest hClosing.2.2]

theorem Tidy.descend_of_closing (h : Tidy line) (hOpening : '{' ∉ bare line)
    (hClosing : '}' ∈ bare line) : descend outer line = outer.tail := by
  obtain ⟨first, rest, hBare, hFirst, hRest⟩ := exists_of_count_le_one hClosing h.oneClosing
  rw [hBare] at hOpening
  simp only [List.mem_append, List.mem_cons, not_or] at hOpening
  rw [descend, hBare, List.foldl_append, foldl_brace hOpening.1 hFirst, List.foldl_cons, brace,
    if_neg (by decide), if_pos rfl, foldl_brace hOpening.2.2 hRest]

/-- The keys of the blocks that are open to the parser, for the lines whose braces are open. -/
inductive Opened : List (List Char) → List (List Char) → Prop
  | none : Opened [] []
  | header {line address : List Char} (h : Header line address) : Opened [line] [address]
  | nested {outer stack : List (List Char)} {line key : List Char} (h : Opened outer stack)
      (hOuter : outer ≠ []) (hOpens : Opens line key) : Opened (line :: outer) (key :: stack)

theorem Opened.length_eq (h : Opened outer stack) : stack.length = outer.length := by
  induction h with
  | none => rfl
  | header => rfl
  | nested h hOuter hOpens ih => simp [ih]

theorem Opened.eq_nil_iff (h : Opened outer stack) : stack = [] ↔ outer = [] := by
  rw [← List.length_eq_zero_iff, h.length_eq, List.length_eq_zero_iff]

theorem Opened.tail (h : Opened outer stack) : Opened outer.tail stack.tail := by
  cases h with
  | none => exact .none
  | header h => exact .none
  | nested h hOuter hOpens => exact h

/-- The open blocks make up the address. -/
theorem Opened.within (h : Opened outer stack) (hOuter : outer ≠ []) :
    Within outer (joinPath stack) := by
  induction h with
  | none => exact absurd rfl hOuter
  | header h => simpa [joinPath] using Within.header h
  | nested h hInner hOpens ih =>
      rw [joinPath_cons (mt h.eq_nil_iff.mp hInner)]
      exact .nested (ih hInner) hOpens

/-- A line keeps the open blocks in step with the open braces. -/
theorem Opened.behind_line (h : Opened outer stack) (hTidy : Tidy line)
    (hOuter : '}' ∈ bare line → outer ≠ [])
    (hHeader : '{' ∈ bare line → descend outer line = [line] → ∃ address, Header line address)
    (hKeyed : '{' ∈ bare line → outer ≠ [] →
      (∃ key, Opens line key) ∧ isComment line = false ∧ isClosing line = false) :
    Opened (descend outer line) (classify stack line).2 := by
  by_cases hOpening : '{' ∈ bare line
  · -- The brace of a resource, or of a block within one.
    have hClosing : '}' ∉ bare line := fun hClosing => by
      have := hTidy.closesAtBeginning hClosing
      simp [(hKeyed hOpening (hOuter hClosing)).2.2] at this
    have hDescend : descend outer line = line :: outer := hTidy.descend_of_opening hOpening hClosing
    rw [hDescend]
    by_cases hOutermost : outer = []
    · subst hOutermost
      obtain ⟨address, hAddress⟩ := hHeader hOpening hDescend
      rw [classify_of_header hAddress]
      exact .header hAddress
    · obtain ⟨⟨key, hKey⟩, hComment, hCloses⟩ := hKeyed hOpening hOutermost
      rw [classify_of_opens hKey hComment hCloses (mt h.eq_nil_iff.mp hOutermost)]
      exact .nested h hOutermost hKey
  · by_cases hClosing : '}' ∈ bare line
    · rw [hTidy.descend_of_closing hOpening hClosing,
        classify_of_isClosing (hTidy.closesAtBeginning hClosing)]
      exact h.tail
    · have hCloses : isClosing line = false :=
        Bool.eq_false_iff.mpr fun hCloses => hClosing (mem_bare_of_isClosing hCloses)
      have hBrace : ¬EndsWithBrace line := mt mem_bare_of_endsWithBrace hOpening
      rw [descend_of_not_mem hOpening hClosing]
      by_cases hComment : isComment line = true
      · rwa [classify_of_isComment hComment]
      · rwa [classify_of_not_endsWithBrace hBrace (by simpa using hComment) hCloses]

/-! ### All lines -/

/-- The open blocks are in step with the open braces behind every line. -/
theorem Opened.behind (h : Opened outer stack) (hBlocks : Blocks outer (before ++ after))
    (hKeyed : Keyed outer (before ++ after)) :
    Opened (before.foldl descend outer) (stackBehind stack before) := by
  induction before generalizing outer stack with
  | nil => exact h
  | cons line before ih =>
      obtain ⟨hTidy, hOuter, hHeader, hBlocks⟩ := hBlocks
      exact ih (h.behind_line hTidy hOuter hHeader hKeyed.1) hBlocks hKeyed.2

/-- A line that gives a key a value, and opens no brace, is an attribute of the resource exactly if
one brace is open. Further inside its address has the keys around, and outside it is none. -/
theorem address_follows_nesting (hBlocks : Blocks [] (lines text)) (hKeyed : Keyed [] (lines text))
    (hLines : lines text = before ++ line :: after) (hAssigns : Assigns line key value)
    (hComment : isComment line = false) (hClosing : isClosing line = false)
    (hOpening : '{' ∉ bare line) :
    ∃ kind, (parse text)[before.length]? = some { text := line, kind } ∧
      ((∃ path key value, kind = .attribute path key value true) ↔ (openBehind before).length = 1) ∧
      (∀ header, openBehind before = [header] → ∃ address, Header header address ∧
        kind = .attribute (address ++ '.' :: key) key value true) ∧
      (openBehind before = [] → kind = .other) ∧
      (openBehind before ≠ [] → ∃ path, Within (openBehind before) path ∧
        kind = .attribute (path ++ '.' :: key) key value (decide ((openBehind before).length = 1)) ∧
        ∀ scheme : Parameterization, scheme.keeps { text := line, kind } = false ↔
          (openBehind before).length = 1 ∧ key = "id".toList ∨
            ∃ removal ∈ scheme.removals, removal.toList = path ++ '.' :: key) := by
  rw [hLines] at hBlocks hKeyed
  have hOpened : Opened (openBehind before) (stackBehind [] before) :=
    Opened.none.behind hBlocks hKeyed
  have hKind : (parse text)[before.length]? =
      some { text := line, kind := (classify (stackBehind [] before) line).1 } := by
    rw [parse, hLines, classifyAll_append, List.getElem?_append_right (by simp), length_classifyAll,
      Nat.sub_self]
    rfl
  have hBrace : ¬EndsWithBrace line := mt mem_bare_of_endsWithBrace hOpening
  refine ⟨_, hKind, ?_⟩
  by_cases hOuter : openBehind before = []
  · rw [hOpened.eq_nil_iff.mpr hOuter, classify_outside hBrace hComment hClosing, hOuter]
    simp
  · have hWithin := hOpened.within hOuter
    rw [classify_of_assigns hAssigns hBrace hComment hClosing (mt hOpened.eq_nil_iff.mp hOuter),
      hOpened.length_eq]
    refine ⟨by simp, fun header hHeader => ?_, fun hNone => absurd hNone hOuter,
      fun _ => ⟨_, hWithin, rfl, fun scheme => ?_⟩⟩
    · rw [hHeader] at hWithin ⊢
      generalize joinPath (stackBehind [] before) = path at hWithin ⊢
      cases hWithin with
      | header h => exact ⟨_, h, rfl⟩
      | nested h => cases h
    · rw [keeps_attribute_eq_false_iff, decide_eq_true_iff]

/-- A resource with a map, a block in a block, and an attribute behind them. -/
def bucketLines : List (List Char) :=
  ["resource \"aws_s3_bucket\" \"logs\" \x7b", "  tags = \x7b", "    \"Owner\" = \"ops\"",
    "  \x7d", "  rule \x7b", "    id = \"expiry\"", "    expiration \x7b", "      days = 1",
    "    \x7d", "  \x7d", "  acl = \"private\"", "\x7d"].map String.toList

/-- Behind the nested bodies an attribute has the address of its resource again. -/
theorem address_follows_nesting_bucket :
    Blocks [] (lines (joinLines bucketLines)) ∧ Keyed [] (lines (joinLines bucketLines)) ∧
      (parse (joinLines bucketLines))[10]? = some {
        text := "  acl = \"private\"".toList
        kind := .attribute "aws_s3_bucket.logs.acl".toList "acl".toList "\"private\"".toList
          true } := by
  have hBlocks : Blocks [] (lines (joinLines bucketLines)) := by decide +kernel
  have hKeyed : Keyed [] (lines (joinLines bucketLines)) := by decide +kernel
  have hAssigns : Assigns "  acl = \"private\"".toList "acl".toList "\"private\"".toList :=
    attribute?_eq_some_iff.mp (by decide +kernel)
  have hLines : lines (joinLines bucketLines) =
      bucketLines.take 10 ++ "  acl = \"private\"".toList :: bucketLines.drop 11 := by
    decide +kernel
  obtain ⟨kind, hLine, -, hTop, -⟩ := address_follows_nesting hBlocks hKeyed hLines hAssigns
    (by decide +kernel) (by decide +kernel) (by decide +kernel)
  obtain ⟨address, hHeader, rfl⟩ := hTop (bucketLines.head (by decide)) (by decide +kernel)
  have hAddress : some address = some "aws_s3_bucket.logs".toList := by
    rw [← headerAddress?_eq_some_iff.mpr hHeader]
    decide +kernel
  cases hAddress
  exact ⟨hBlocks, hKeyed, hLine⟩

/-- A resource with a body in a call, and its identifier behind it. -/
def roleLines : List (List Char) :=
  ["resource \"aws_iam_role\" \"ci\" \x7b", "    assume_role_policy = jsonencode(", "        \x7b",
    "            Version = \"2012-10-17\"", "        \x7d", "    )", "    id = \"ci\"",
    "\x7d"].map String.toList

/-- A brace without a key opens no block, but closes one. What stands in it then seems to belong to
the resource, and what follows it seems to stand outside. -/
theorem call_misplaces_attributes :
    Blocks [] (lines (joinLines roleLines)) ∧
      (∃ value, Assigns "            Version = \"2012-10-17\"".toList "Version".toList value) ∧
      (openBehind (roleLines.take 3)).length = 2 ∧
      (parse (joinLines roleLines))[3]? = some {
        text := "            Version = \"2012-10-17\"".toList
        kind := .attribute "aws_iam_role.ci.Version".toList "Version".toList
          "\"2012-10-17\"".toList true } ∧
      (∃ value, Assigns "    id = \"ci\"".toList "id".toList value) ∧
      (openBehind (roleLines.take 6)).length = 1 ∧
      (parse (joinLines roleLines))[6]? = some {
        text := "    id = \"ci\"".toList
        kind := .other } :=
  ⟨by decide +kernel, ⟨_, attribute?_eq_some_iff.mp (by rfl)⟩, by decide +kernel, by decide +kernel,
    ⟨_, attribute?_eq_some_iff.mp (by rfl)⟩, by decide +kernel, by decide +kernel⟩

end ServiceBroker.Definition
