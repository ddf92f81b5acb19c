import ServiceBroker.Proofs.Definition.Nesting
import ServiceBroker.Proofs.Definition.Recovery

/-! Brackets and braces of a definition before and after it has got its parameters back.

A line that is taken out or rewritten takes its brackets with it. If all brackets were closed before
they are so afterwards exactly if each of these lines closes what it opens, which is to say that no
value goes on in the next line. -/

namespace ServiceBroker.Definition

open ServiceBroker.Text

variable {c : Char} {line text outer after : List Char} {first : Line} {read : List Line}
  {keep : Line → Bool}

def isOpener (c : Char) : Bool :=
  c == '{' || c == '['

def isBracket (c : Char) : Bool :=
  isOpener c || c == '}' || c == ']'

/-- The brackets and braces of a line outside of its strings. -/
def marks (line : List Char) : List Char :=
  (bare line).filter isBracket

/-- The counterpart of an opening bracket. -/
def closer (c : Char) : Char :=
  if c = '{' then '}' else ']'

/-- A bracket opens, or closes the innermost of the open ones if it is its counterpart. -/
def nest (outer : List Char) (c : Char) : Option (List Char) :=
  if isOpener c then some (c :: outer)
  else match outer with
    | first :: outer => if c = closer first then some outer else none
    | [] => none

/-- Every bracket outside of strings is closed, by its counterpart. -/
def Balanced (text : List Char) : Prop :=
  ((lines text).flatMap marks).foldlM nest [] = some []

/-- Every bracket of the line is closed on the line. -/
def Neutral (line : List Char) : Prop :=
  (marks line).foldlM nest [] = some []

/-- The line closes no bracket of another line. -/
def Contained (line : List Char) : Prop :=
  ∃ outer, (marks line).foldlM nest [] = some outer

instance (text : List Char) : Decidable (Balanced text) :=
  inferInstanceAs (Decidable (_ = _))

instance (line : List Char) : Decidable (Neutral line) :=
  inferInstanceAs (Decidable (_ = _))

/-! ### Brackets of a line -/

theorem nest_eq_some_iff : nest outer c = some after ↔
    isOpener c = true ∧ after = c :: outer ∨
      isOpener c = false ∧ ∃ first, outer = first :: after ∧ c = closer first := by
  unfold nest
  cases hOpener : isOpener c with
  | true => simp [eq_comm]
  | false =>
      cases outer with
      | nil => simp
      | cons first outer =>
          by_cases hCloser : c = closer first
          · simp [hCloser]
          · simp [hCloser]

/-- What is open further out does not matter. -/
theorem foldlM_nest_append (h : text.foldlM nest outer = some after) (below : List Char) :
    text.foldlM nest (outer ++ below) = some (after ++ below) := by
  induction text generalizing outer with
  | nil =>
      cases h
      rfl
  | cons c text ih =>
      rw [List.foldlM_cons] at h ⊢
      obtain ⟨between, hStep, hRest⟩ := Option.bind_eq_some_iff.mp h
      have hBelow : nest (outer ++ below) c = some (between ++ below) := by
        rcases nest_eq_some_iff.mp hStep with ⟨hOpener, rfl⟩ | ⟨hOpener, first, rfl, hCloser⟩
        · exact nest_eq_some_iff.mpr (.inl ⟨hOpener, rfl⟩)
        · exact nest_eq_some_iff.mpr (.inr ⟨hOpener, first, rfl, hCloser⟩)
      rw [hBelow]
      exact ih hRest

theorem Neutral.foldlM (h : Neutral line) (outer : List Char) :
    (marks line).foldlM nest outer = some outer :=
  foldlM_nest_append h outer

theorem Neutral.contained (h : Neutral line) : Contained line :=
  ⟨[], h⟩

/-- Each opening bracket counts up by one and each closing bracket down. -/
theorem length_foldlM_nest (h : text.foldlM nest outer = some after) :
    after.length + text.length = outer.length + 2 * text.countP isOpener := by
  induction text generalizing outer with
  | nil =>
      cases h
      rfl
  | cons c text ih =>
      rw [List.foldlM_cons] at h
      obtain ⟨between, hStep, hRest⟩ := Option.bind_eq_some_iff.mp h
      have hLater := ih hRest
      rcases nest_eq_some_iff.mp hStep with ⟨hOpener, rfl⟩ | ⟨hOpener, first, rfl, -⟩
      · rw [List.countP_cons_of_pos hOpener]
        simp only [List.length_cons] at hLater ⊢
        omega
      · rw [List.countP_cons_of_neg (by simp [hOpener])]
        simp only [List.length_cons] at hLater ⊢
        omega

theorem Contained.length_le (h : Contained line) :
    (marks line).length ≤ 2 * (marks line).countP isOpener := by
  obtain ⟨outer, h⟩ := h
  have hLength := length_foldlM_nest h
  rw [List.length_nil] at hLength
  omega

theorem Contained.neutral (h : Contained line)
    (hCount : 2 * (marks line).countP isOpener ≤ (marks line).length) : Neutral line := by
  obtain ⟨outer, h⟩ := h
  have hLength := length_foldlM_nest h
  rw [List.length_nil] at hLength
  obtain rfl : outer = [] := List.eq_nil_of_length_eq_zero (by omega)
  exact h

/-! ### Brackets of lines -/

def allMarks (read : List Line) : List Char :=
  read.flatMap fun line => marks line.text

theorem allMarks_cons (first : Line) (read : List Line) :
    allMarks (first :: read) = marks first.text ++ allMarks read :=
  List.flatMap_cons

theorem allMarks_parse (text : List Char) : allMarks (parse text) = (lines text).flatMap marks := by
  have hLines : (parse text).map (·.text) = lines text := map_text_classifyAll _
  rw [← hLines, List.flatMap_map]
  rfl

theorem balanced_iff : Balanced text ↔ (allMarks (parse text)).foldlM nest [] = some [] := by
  rw [allMarks_parse]
  rfl

/-- Lines that close what they open can be left out. -/
theorem foldlM_filter (h : ∀ line ∈ read, keep line = false → Neutral line.text)
    (outer : List Char) : (allMarks (read.filter keep)).foldlM nest outer =
      (allMarks read).foldlM nest outer := by
  induction read generalizing outer with
  | nil => rfl
  | cons first read ih =>
      obtain ⟨hFirst, hRead⟩ := List.forall_mem_cons.mp h
      rw [allMarks_cons, List.foldlM_append]
      cases hKeep : keep first with
      | true =>
          rw [List.filter_cons_of_pos hKeep, allMarks_cons, List.foldlM_append]
          exact congrArg _ (funext (ih hRead))
      | false =>
          rw [List.filter_cons_of_neg (by simp [hKeep]), (hFirst hKeep).foldlM]
          exact ih hRead outer

/-- Lines that close no more than they open open at least as much as they close, and as much only if
each of them does. -/
theorem allMarks_of_contained (h : ∀ line ∈ read, Contained line.text) :
    (allMarks read).length ≤ 2 * (allMarks read).countP isOpener ∧
      (2 * (allMarks read).countP isOpener ≤ (allMarks read).length →
        ∀ line ∈ read, Neutral line.text) := by
  induction read with
  | nil => simp [allMarks]
  | cons first read ih =>
      obtain ⟨hFirst, hRead⟩ := List.forall_mem_cons.mp h
      obtain ⟨hLength, hNeutral⟩ := ih hRead
      have hFirstLength := hFirst.length_le
      rw [allMarks_cons, List.length_append, List.countP_append]
      refine ⟨by omega, fun hCount => List.forall_mem_cons.mpr ⟨hFirst.neutral ?_, hNeutral ?_⟩⟩
      · omega
      · omega

/-- The brackets of lines are those of the lines that stay and of those that do not. -/
theorem allMarks_partition (read : List Line) (keep : Line → Bool) :
    (allMarks (read.filter keep) ++ allMarks (read.filter (!keep ·))).Perm (allMarks read) := by
  have hPerm := (List.filter_append_perm keep read).flatMap_right fun line => marks line.text
  rwa [List.flatMap_append] at hPerm

/-- Brackets that are closed are closed when lines are left out, exactly if each of these lines
closes what it opens. -/
theorem balanced_filter_iff (hRead : (allMarks read).foldlM nest [] = some [])
    (hContained : ∀ line ∈ read.filter (!keep ·), Contained line.text) :
    (allMarks (read.filter keep)).foldlM nest [] = some [] ↔
      ∀ line ∈ read.filter (!keep ·), Neutral line.text := by
  constructor
  · intro hKept
    have hPerm := allMarks_partition read keep
    have hCount := hPerm.countP_eq isOpener
    have hLength := hPerm.length_eq
    have hBefore := length_foldlM_nest hRead
    have hAfter := length_foldlM_nest hKept
    rw [List.countP_append] at hCount
    rw [List.length_append] at hLength
    refine (allMarks_of_contained hContained).2 ?_
    omega
  · intro hNeutral
    rw [foldlM_filter fun line hLine hKeep => ?_, hRead]
    exact hNeutral line (List.mem_filter.mpr ⟨hLine, by simp [hKeep]⟩)

/-! ### Carriage returns and empty lines -/

theorem marks_append {rest : List Char} (hQuote : '"' ∉ rest)
    (hRest : ∀ c ∈ rest, isBracket c = false) : marks (line ++ rest) = marks line := by
  have hNone : rest.filter isBracket = [] :=
    List.filter_eq_nil_iff.mpr fun c hc => by simp [hRest c hc]
  rw [marks, bare, bareFrom_append hQuote (Nat.zero_le _), List.filter_append, hNone,
    List.append_nil]
  rfl

theorem marks_settled (line : Line) : marks line.settled.text = marks line.text := by
  have hText : line.text = withoutReturns line.text ++ line.text.rtakeWhile (· == '\r') :=
    List.rdropWhile_append_rtakeWhile.symm
  have hReturn : ∀ c ∈ line.text.rtakeWhile (· == '\r'), c = '\r' := fun c hc => by
    simpa using List.mem_rtakeWhile_imp hc
  rw [hText, marks_append (fun hQuote => absurd (hReturn _ hQuote) (by decide))
    fun c hc => hReturn c hc ▸ rfl]
  rfl

/-- What lines come to together does not depend on carriage returns, nor on empty lines at the end,
if each of them does not. -/
theorem flatMap_settle {part : Line → List Char}
    (hSettled : ∀ line ∈ read, part line.settled = part line)
    (hEmpty : ∀ line, line.text = [] → part line = []) :
    (settle read).flatMap part = read.flatMap part := by
  obtain ⟨dropped, hRead, hDropped⟩ := exists_dropped read
  have hNone : dropped.flatMap part = [] :=
    List.flatMap_eq_nil_iff.mpr fun line hLine => hEmpty line (hDropped line hLine)
  calc (settle read).flatMap part = (settle read ++ dropped).flatMap part := by
        rw [List.flatMap_append, hNone, List.append_nil]
    _ = read.flatMap fun line => part line.settled := by rw [← hRead, List.flatMap_map]
    _ = read.flatMap part := List.flatMap_congr hSettled

theorem allMarks_settle (read : List Line) : allMarks (settle read) = allMarks read :=
  flatMap_settle (fun line _ => marks_settled line) fun line hText => by
    rw [hText]
    rfl

/-- Lines that are given up bring no brackets. -/
theorem flatMap_filter (read : List Line) (keep : Line → Bool) :
    (read.flatMap fun line => if keep line then marks line.text else []) =
      allMarks (read.filter keep) := by
  induction read with
  | nil => rfl
  | cons first read ih =>
      rw [List.flatMap_cons, ih]
      cases hKeep : keep first with
      | true =>
          rw [List.filter_cons_of_pos hKeep, allMarks_cons]
          rfl
      | false =>
          rw [List.filter_cons_of_neg (by simp [hKeep])]
          rfl

end ServiceBroker.Definition

namespace ServiceBroker.Parameterization

open ServiceBroker.Text ServiceBroker.Definition

variable {scheme : Parameterization} {text indent key parameter : List Char} {line : Line}

/-- No bracket stands in the name. -/
def Unbracketed (name : List Char) : Prop :=
  ∀ c ∈ name, isBracket c = false

instance (name : List Char) : Decidable (Unbracketed name) :=
  List.decidableBAll _ name

/-- No bracket stands in a name of the scheme. -/
structure NamesUnbracketed (scheme : Parameterization) : Prop where
  address : ∀ entry ∈ scheme.mappings ++ scheme.additions, Unbracketed entry.address.toList
  parameter : ∀ entry ∈ scheme.mappings ++ scheme.additions, Unbracketed entry.parameter.toList

/-- A line that is neither taken out nor rewritten. -/
def spares (scheme : Parameterization) (line : Line) : Bool :=
  scheme.keeps line && (scheme.givenUp? line).isNone

/-- The lines that are taken out when the text is cleaned. -/
def removed (scheme : Parameterization) (text : List Char) : List Line :=
  (parse (stripEscapes text)).filter (!scheme.keeps ·)

/-- The lines that are taken out, and those that get a reference in place of their value. -/
def touched (scheme : Parameterization) (text : List Char) : List Line :=
  (parse (stripEscapes text)).filter (!scheme.spares ·)

/-! ### Lines that are put in or rewritten -/

theorem unbracketed_of_blank (h : Blank indent) : Unbracketed indent := by
  refine fun c hc => Bool.eq_false_iff.mpr fun hBracket => ?_
  have hBlank := h c hc
  simp only [isBracket, isOpener, Bool.or_eq_true, beq_iff_eq] at hBracket
  rcases hBracket with ((rfl | rfl) | rfl) | rfl <;> exact absurd hBlank (by decide)

theorem marks_reference (hIndent : Blank indent) (hKey : Plain key) (hKeyMarks : Unbracketed key)
    (hParameter : Plain parameter) (hParameterMarks : Unbracketed parameter) :
    marks (reference indent key parameter) = [] := by
  have hQuote {name : List Char} (h : Plain name) : '"' ∉ name := fun hc =>
    absurd (h _ hc).1 (by decide)
  have hMarks : Unbracketed (reference indent key parameter) := by
    unfold Unbracketed reference
    simp only [List.forall_mem_append]
    exact ⟨⟨⟨unbracketed_of_blank hIndent, hKeyMarks⟩, by simp [isBracket, isOpener]⟩,
      hParameterMarks⟩
  have hBehind : marks ([] ++ reference indent key parameter) = marks [] := by
    refine marks_append (not_mem_reference (fun hc => ?_) (hQuote hKey) (by decide)
      (hQuote hParameter)) hMarks
    exact absurd (hIndent _ hc) (by decide)
  exact hBehind

/-- The brackets of a mapped line are gone, those of any other line stay. -/
theorem marks_rewritten (hScheme : scheme.Orderly) (hNames : scheme.NamesUnbracketed)
    (hFits : Fits line) : marks (scheme.rewritten line).text =
      if (scheme.givenUp? line).isNone then marks line.text else [] := by
  obtain ⟨stack, hFits⟩ := hFits
  rcases rewritten_cases scheme line with
    ⟨path, key, value, topLevel, mapping, hKind, hFind, hLine⟩ | ⟨hLine, hNone⟩
  · obtain ⟨-, -, hPath, -, -, hKey, -⟩ := mapped_key hScheme (hFits.trans hKind) hFind
    have hMember := List.mem_of_find?_eq_some hFind
    have hAddress : mapping.address.toList = path := by simpa using List.find?_some hFind
    have hKeyMarks : Unbracketed key := fun c hc =>
      hNames.address mapping (List.mem_append_left _ hMember) c (by simp [hAddress, hPath, hc])
    have hGiven : scheme.givenUp? line = some (mapping.parameter, literalValue value) :=
      givenUp?_eq_some_iff.mpr ⟨path, key, value, topLevel, mapping, hKind, hFind, rfl, rfl⟩
    rw [hLine, hGiven]
    exact marks_reference (blank_indentation line.text) hKey hKeyMarks (hScheme.mapped _ hMember).1
      (hNames.parameter mapping (List.mem_append_left _ hMember))
  · have hGiven : scheme.givenUp? line = none := by
      refine Option.eq_none_iff_forall_ne_some.mpr fun field hField => ?_
      obtain ⟨path, key, value, topLevel, mapping, hKind, hFind, -⟩ :=
        givenUp?_eq_some_iff.mp hField
      rw [hNone path key value topLevel hKind] at hFind
      cases hFind
    rw [hLine, hGiven]
    rfl

theorem marks_added (hScheme : scheme.Orderly) (hNames : scheme.NamesUnbracketed) :
    ∀ added ∈ scheme.addedLines line, marks (scheme.rewritten added).text = [] := by
  intro added hAdded
  obtain ⟨addition, hAddition, hAdded⟩ := List.mem_filterMap.mp hAdded
  obtain ⟨block, key, -, hAddress, hDot, hText, hKind⟩ := addedLine?_eq_some_iff.mp hAdded
  obtain ⟨hParameter, -, hName⟩ := hScheme.added addition hAddition
  obtain ⟨-, hKey, -⟩ := hName block key hAddress hDot
  have hMember : addition ∈ scheme.mappings ++ scheme.additions :=
    List.mem_append_right _ hAddition
  have hKeyMarks : Unbracketed key := fun c hc =>
    hNames.address addition hMember c (by simp [hAddress, hc])
  rcases rewritten_cases scheme added with
    ⟨_, _, _, _, mapping, hAttribute, hFind, hLine⟩ | ⟨hLine, -⟩
  · cases hKind.symm.trans hAttribute
    have hMapping := List.mem_of_find?_eq_some hFind
    rw [hLine]
    exact marks_reference (blank_indentation added.text) hKey hKeyMarks
      (hScheme.mapped mapping hMapping).1
      (hNames.parameter mapping (List.mem_append_left _ hMapping))
  · have hIndent : Blank (indentation line.text ++ "    ".toList) :=
      blank_append.mpr ⟨blank_indentation line.text, by simp [isBlank]⟩
    rw [hLine, hText]
    exact marks_reference hIndent hKey hKeyMarks hParameter (hNames.parameter addition hMember)

/-! ### What is left -/

theorem balanced_clean_iff (scheme : Parameterization) (text : List Char) :
    Balanced (scheme.clean text) ↔
      (allMarks ((parse (stripEscapes text)).filter scheme.keeps)).foldlM nest [] = some [] := by
  rw [balanced_iff, ← allMarks_settle, parse_clean, settle_reread, allMarks_settle]
  rfl

theorem balanced_apply_iff (hScheme : scheme.Orderly) (hNames : scheme.NamesUnbracketed)
    (text : List Char) : Balanced (scheme.apply text).1 ↔
      (allMarks ((parse (stripEscapes text)).filter scheme.spares)).foldlM nest [] = some [] := by
  have hParsed := (parsed_kept scheme text).fits
  have hEach : ∀ line ∈ settle (scheme.kept text),
      allMarks (scheme.rewritten line :: (scheme.addedLines line).map scheme.rewritten) =
        if (scheme.givenUp? line).isNone then marks line.text else [] := by
    intro line hLine
    obtain ⟨origin, hOrigin, rfl⟩ := exists_of_mem_settle hLine
    have hFits : Fits origin.settled := by
      obtain ⟨stack, hFits⟩ := hParsed origin hOrigin
      exact ⟨stack, (congrArg Prod.fst classify_withoutReturns).trans hFits⟩
    have hAdded : allMarks ((scheme.addedLines origin.settled).map scheme.rewritten) = [] := by
      refine List.flatMap_eq_nil_iff.mpr fun added hMem => ?_
      obtain ⟨first, hFirst, rfl⟩ := List.mem_map.mp hMem
      exact marks_added hScheme hNames first hFirst
    rw [allMarks_cons, hAdded, List.append_nil, marks_rewritten hScheme hNames hFits]
  have hMarks : allMarks (parse (scheme.apply text).1) =
      allMarks ((parse (stripEscapes text)).filter scheme.spares) := by
    calc allMarks (parse (scheme.apply text).1)
        = allMarks ((settle (scheme.kept text)).flatMap fun line =>
            scheme.rewritten line :: (scheme.addedLines line).map scheme.rewritten) := by
          rw [← allMarks_settle, settle_parse_apply hScheme]
      _ = (settle (scheme.kept text)).flatMap fun line =>
            if (scheme.givenUp? line).isNone then marks line.text else [] := by
          rw [allMarks, List.flatMap_assoc]
          exact List.flatMap_congr hEach
      _ = (scheme.kept text).flatMap fun line =>
            if (scheme.givenUp? line).isNone then marks line.text else [] := by
          refine flatMap_settle (fun line _ => ?_) fun line hText => ?_
          · rw [givenUp?_congr line.kind_settled, marks_settled]
          · rw [hText, show marks [] = [] from rfl, ite_self]
      _ = allMarks ((parse (stripEscapes text)).filter scheme.spares) := by
          rw [flatMap_filter _ fun line => (scheme.givenUp? line).isNone, kept, List.filter_filter]
          exact congrArg allMarks (List.filter_congr fun line _ => Bool.and_comm _ _)
  rw [balanced_iff, hMarks]

/-- Brackets that are all closed stay so exactly if no value that is taken out or replaced goes on
behind its line. -/
theorem balanced_iff_values_end (hScheme : scheme.Orderly) (hNames : scheme.NamesUnbracketed)
    (hText : Balanced (stripEscapes text)) :
    ((∀ line ∈ scheme.removed text, Contained line.text) →
        (Balanced (scheme.clean text) ↔ ∀ line ∈ scheme.removed text, Neutral line.text)) ∧
      ((∀ line ∈ scheme.touched text, Contained line.text) →
        (Balanced (scheme.apply text).1 ↔ ∀ line ∈ scheme.touched text, Neutral line.text)) := by
  rw [balanced_iff] at hText
  rw [balanced_clean_iff, balanced_apply_iff hScheme hNames]
  exact ⟨balanced_filter_iff hText, balanced_filter_iff hText⟩

/-- An instance whose groups are a parameter and whose subnets are taken out. -/
def groupsScheme : Parameterization where
  mappings := [{ address := "aws_instance.web.security_groups", parameter := "groups" }]
  removals := ["aws_instance.web.subnets"]

def instanceShown (inner : List String) : List Char :=
  joinLines ((["resource \"aws_instance\" \"web\" \x7b"] ++ inner ++ ["\x7d"]).map String.toList)

/-- Both lists end on their lines. -/
def listsShown : List Char :=
  instanceShown ["  subnets = [\"a\", \"b\"]", "  security_groups = [\"c[\"]"]

theorem orderly_groupsScheme : groupsScheme.Orderly where
  mapped := by decide +kernel
  added := by simp [groupsScheme]

theorem namesUnbracketed_groupsScheme : groupsScheme.NamesUnbracketed where
  address := by decide +kernel
  parameter := by decide +kernel

theorem balanced_iff_values_end_lists : Balanced (stripEscapes listsShown) ∧
    Balanced (groupsScheme.clean listsShown) ∧ Balanced (groupsScheme.apply listsShown).1 := by
  have hText : Balanced (stripEscapes listsShown) := by decide +kernel
  obtain ⟨hClean, hApply⟩ :=
    balanced_iff_values_end orderly_groupsScheme namesUnbracketed_groupsScheme hText
  have hRemoved : ∀ line ∈ groupsScheme.removed listsShown, Neutral line.text := by decide +kernel
  have hTouched : ∀ line ∈ groupsScheme.touched listsShown, Neutral line.text := by decide +kernel
  exact ⟨hText, (hClean fun line hLine => (hRemoved line hLine).contained).mpr hRemoved,
    (hApply fun line hLine => (hTouched line hLine).contained).mpr hTouched⟩

def subnetsSpread : List Char :=
  instanceShown ["  subnets = [", "    \"a\",", "  ]"]

def groupsSpread : List Char :=
  instanceShown ["  security_groups = [", "    \"a\",", "  ]"]

/-- The items and the closing bracket of a list over several lines stay behind. -/
theorem closing_bracket_left :
    Balanced (stripEscapes subnetsSpread) ∧
      groupsScheme.clean subnetsSpread = instanceShown ["    \"a\",", "  ]"] ∧
      ¬Balanced (groupsScheme.clean subnetsSpread) ∧
      Balanced (stripEscapes groupsSpread) ∧
      (groupsScheme.apply groupsSpread).1 =
        instanceShown ["  security_groups = var.groups", "    \"a\",", "  ]"] ∧
      ¬Balanced (groupsScheme.apply groupsSpread).1 := by
  decide +kernel

end ServiceBroker.Parameterization
