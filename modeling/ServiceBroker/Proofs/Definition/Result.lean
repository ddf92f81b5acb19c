import ServiceBroker.Proofs.Definition.Rewriting

/-! The definition that all three steps leave, by the lines of the one that they were given. -/

namespace ServiceBroker.Parameterization

open ServiceBroker.Text ServiceBroker.Definition

variable {scheme : Parameterization} {c : Char} {text path key value : List Char} {topLevel : Bool}
  {line : Line}

/-- The lines of the text that stay when it is cleaned. -/
def kept (scheme : Parameterization) (text : List Char) : List Line :=
  (parse (stripEscapes text)).filter scheme.keeps

theorem parsed_kept (scheme : Parameterization) (text : List Char) : Parsed [] (scheme.kept text) :=
  (parsed_parse _).filter fun line _ hDropped => by
    unfold keeps at hDropped
    split at hDropped
    · next h => simp [h, Kind.Passive]
    · next h => simp [h, Kind.Passive]
    · cases hDropped
    · cases hDropped

theorem parse_clean (scheme : Parameterization) (text : List Char) :
    parse (scheme.clean text) = reread (scheme.kept text) := by
  rw [← parse_joinLines (parsed_kept scheme text)]
  · rfl
  · exact fun line hLine =>
      not_mem_of_mem_lines (mem_lines_of_mem_parse (List.mem_filter.mp hLine).1)

/-- The whole result, line by line: each line that is kept, with its reference if it is mapped, and
behind it the lines that are put in, with theirs. -/
theorem settle_parse_apply (hScheme : scheme.Orderly) (text : List Char) :
    settle (parse (scheme.apply text).1) = (settle (scheme.kept text)).flatMap fun line =>
      scheme.rewritten line :: (scheme.addedLines line).map scheme.rewritten := by
  have hClean : Parsed [] (parse (scheme.clean text)) := parsed_parse _
  have hAdd : Parsed [] (parse (scheme.add (scheme.clean text))) := parsed_parse _
  calc settle (parse (scheme.apply text).1)
      = (settle (parse (scheme.add (scheme.clean text)))).map scheme.rewritten := by
        rw [apply, parse_replace hScheme, settle_reread, settle_rewritten hScheme hAdd.fits]
    _ = ((settle (parse (scheme.clean text))).flatMap fun line =>
          line :: scheme.addedLines line).map scheme.rewritten := by
        rw [parse_add hScheme, settle_reread, settle_added hScheme hClean.fits]
    _ = (settle (scheme.kept text)).flatMap fun line =>
          scheme.rewritten line :: (scheme.addedLines line).map scheme.rewritten := by
        rw [parse_clean, settle_reread, List.map_flatMap]
        simp only [List.map_cons]

/-! ### Escape characters -/

theorem not_mem_stripEscapesFrom (skip : Nat) (text : List Char) :
    '\x1b' ∉ stripEscapesFrom skip text := by
  fun_induction stripEscapesFrom skip text with
  | case1 => simp
  | case2 c rest skip ih => exact ih
  | case3 rest ih => exact ih
  | case4 c rest hc ih => simpa [Ne.symm hc] using ih

theorem not_mem_lines_of_text (h : c ∉ text) : ∀ line ∈ parse text, c ∉ line.text :=
  fun _ hLine hc => h (mem_of_mem_lines (mem_lines_of_mem_parse hLine) hc)

theorem not_mem_clean (scheme : Parameterization) (text : List Char) :
    '\x1b' ∉ scheme.clean text := by
  refine not_mem_joinLines (List.forall_mem_map.mpr fun line hLine => ?_) (by decide)
  exact not_mem_lines_of_text (not_mem_stripEscapesFrom 0 text) line (List.mem_filter.mp hLine).1

/-- No step brings an escape character back. -/
theorem not_mem_apply (hScheme : scheme.Orderly) (text : List Char) :
    '\x1b' ∉ (scheme.apply text).1 := by
  have hAdd : '\x1b' ∉ scheme.add (scheme.clean text) := by
    rw [add_eq]
    exact not_mem_joinLines (List.forall_mem_map.mpr
      (not_mem_withAdded hScheme (.inr rfl)
        (not_mem_lines_of_text (not_mem_clean scheme text)))) (by decide)
  rw [apply, replace_eq]
  exact not_mem_joinLines (List.forall_mem_map.mpr (not_mem_map_rewritten hScheme (.inr rfl)
    (parsed_parse _).fits (not_mem_lines_of_text hAdd))) (by decide)

/-! ### The lines of the result -/

/-- A line of the result was kept or put in, before it got its reference. -/
theorem exists_origin (hScheme : scheme.Orderly) (hLine : line ∈ parse (scheme.apply text).1)
    (hKind : line.kind ≠ .other) : ∃ origin : Line, line.kind = (scheme.rewritten origin).kind ∧
      ((∃ first ∈ scheme.kept text, first.kind = origin.kind) ∨
        ∃ opener, origin ∈ scheme.addedLines opener) := by
  have hSettled := mem_settle ((parsed_parse _).fits line hLine) hKind hLine
  rw [settle_parse_apply hScheme] at hSettled
  obtain ⟨opener, hOpener, hLine⟩ := List.mem_flatMap.mp hSettled
  rcases List.mem_cons.mp hLine with hSame | hAdded
  · obtain ⟨first, hFirst, rfl⟩ := exists_of_mem_settle hOpener
    exact ⟨first.settled, by rw [← line.kind_settled, hSame], .inl ⟨first, hFirst, rfl⟩⟩
  · obtain ⟨origin, hOrigin, hSame⟩ := List.mem_map.mp hAdded
    exact ⟨origin, by rw [← line.kind_settled, hSame], .inr ⟨opener, hOrigin⟩⟩

theorem kind_of_added {opener : Line} (h : line ∈ scheme.addedLines opener) :
    ∃ addition ∈ scheme.additions, ∃ key value topLevel,
      line.kind = .attribute addition.address.toList key value topLevel := by
  obtain ⟨addition, hAddition, hLine⟩ := List.mem_filterMap.mp h
  obtain ⟨block, key, -, -, -, -, hKind⟩ := addedLine?_eq_some_iff.mp hLine
  exact ⟨addition, hAddition, key, _, _, hKind⟩

/-- Rewriting changes nothing of a line's kind but a value. -/
theorem kind_rewritten (scheme : Parameterization) (line : Line) :
    (scheme.rewritten line).kind = line.kind ∨ ∃ path key value topLevel mapping,
      line.kind = .attribute path key value topLevel ∧
      scheme.mappings.find? (·.address.toList == path) = some mapping ∧
      (scheme.rewritten line).kind =
        .attribute path key ("var.".toList ++ mapping.parameter.toList) topLevel := by
  rcases rewritten_cases scheme line with
    ⟨path, key, value, topLevel, mapping, hKind, hFind, hLine⟩ | ⟨hLine, -⟩
  · exact .inr ⟨path, key, value, topLevel, mapping, hKind, hFind, by rw [hLine]⟩
  · exact .inl (by rw [hLine])

theorem rewritten_attribute (h : line.kind = .attribute path key value topLevel) :
    ∃ value, (scheme.rewritten line).kind = .attribute path key value topLevel := by
  rcases kind_rewritten scheme line with hSame | ⟨_, _, _, _, _, hAttribute, -, hNew⟩
  · exact ⟨value, hSame.trans h⟩
  · cases h.symm.trans hAttribute
    exact ⟨_, hNew⟩

/-- A comment is not kept, not put in, and nothing becomes one. -/
theorem not_comment (hScheme : scheme.Orderly) (hLine : line ∈ parse (scheme.apply text).1) :
    line.kind ≠ .comment := by
  intro hComment
  obtain ⟨origin, hKind, hOrigin⟩ := exists_origin hScheme hLine (by simp [hComment])
  have hOriginKind : origin.kind = .comment := by
    rcases kind_rewritten scheme origin with
      hSame | ⟨path, key, value, topLevel, mapping, -, -, hRewritten⟩
    · rw [← hSame, ← hKind, hComment]
    · rw [← hKind, hComment] at hRewritten
      cases hRewritten
  rcases hOrigin with ⟨first, hFirst, hSame⟩ | ⟨opener, hAdded⟩
  · have hKeeps := (List.mem_filter.mp hFirst).2
    simp [keeps, hSame, hOriginKind] at hKeeps
  · obtain ⟨addition, -, key, value, topLevel, hAttribute⟩ := kind_of_added hAdded
    rw [hOriginKind] at hAttribute
    cases hAttribute

/-- A mapped attribute has the reference as its value. -/
theorem value_of_mapped (hScheme : scheme.Orderly) (hLine : line ∈ parse (scheme.apply text).1)
    (hKind : line.kind = .attribute path key value topLevel) {mapping : ParameterMapping}
    (hFind : scheme.mappings.find? (·.address.toList == path) = some mapping) :
    value = "var.".toList ++ mapping.parameter.toList := by
  obtain ⟨origin, hRewritten, -⟩ := exists_origin hScheme hLine (by simp [hKind])
  rw [hKind] at hRewritten
  rcases rewritten_cases scheme origin with
    ⟨path', key', value', topLevel', mapping', -, hFind', hOrigin⟩ | ⟨hOrigin, hNone⟩
  · rw [hOrigin] at hRewritten
    cases hRewritten
    rw [hFind] at hFind'
    cases hFind'
    rfl
  · rw [hOrigin] at hRewritten
    rw [hNone path key value topLevel hRewritten.symm] at hFind
    cases hFind

/-- What is taken out is back only if it was put in. -/
theorem added_of_removed (hScheme : scheme.Orderly) (hLine : line ∈ parse (scheme.apply text).1)
    (hKind : line.kind = .attribute path key value topLevel)
    (hRemoved : topLevel = true ∧ key = "id".toList ∨
      ∃ removal ∈ scheme.removals, removal.toList = path) :
    ∃ addition ∈ scheme.additions, addition.address.toList = path := by
  obtain ⟨origin, hRewritten, hOrigin⟩ := exists_origin hScheme hLine (by simp [hKind])
  rw [hKind] at hRewritten
  obtain ⟨value, hAttribute⟩ : ∃ value, origin.kind = .attribute path key value topLevel := by
    rcases kind_rewritten scheme origin with hSame | ⟨_, _, value, _, _, hAttribute, -, hNew⟩
    · exact ⟨_, hSame ▸ hRewritten.symm⟩
    · rw [← hRewritten] at hNew
      cases hNew
      exact ⟨value, hAttribute⟩
  rcases hOrigin with ⟨first, hFirst, hSame⟩ | ⟨opener, hAdded⟩
  · have hKeeps :
        scheme.keeps { text := first.text, kind := .attribute path key value topLevel } = true := by
      rw [← hAttribute, ← hSame]
      exact (List.mem_filter.mp hFirst).2
    rw [keeps_attribute_eq_false_iff.mpr hRemoved] at hKeeps
    cases hKeeps
  · obtain ⟨addition, hAddition, _, _, _, hAdded⟩ := kind_of_added hAdded
    rw [hAttribute] at hAdded
    cases hAdded
    exact ⟨addition, hAddition, rfl⟩

/-- Of items that each bring others with them, one that is not brought is followed by those it
brings. -/
theorem exists_of_flatMap_eq {α β : Type} {head : α → β} {inner : α → List β} {items : List α}
    {before after : List β} {x : β} (hx : ∀ item ∈ items, x ∉ inner item)
    (h : (items.flatMap fun item => head item :: inner item) = before ++ x :: after) :
    ∃ item ∈ items, ∃ later, x = head item ∧ after = inner item ++ later := by
  induction items generalizing before with
  | nil => simp at h
  | cons item items ih =>
      obtain ⟨hItem, hItems⟩ := List.forall_mem_cons.mp hx
      rw [List.flatMap_cons, List.cons_append] at h
      cases before with
      | nil =>
          obtain ⟨rfl, rfl⟩ := List.cons.inj h
          exact ⟨item, by simp, _, rfl, rfl⟩
      | cons first before =>
          obtain ⟨-, hRest⟩ := List.cons.inj h
          have hLater : ∃ before', (items.flatMap fun item => head item :: inner item) =
              before' ++ x :: after := by
            rcases List.append_eq_append_iff.mp hRest with
              ⟨between, -, hBetween⟩ | ⟨between, hInner, hBetween⟩
            · exact ⟨between, hBetween⟩
            · cases between with
              | nil => exact ⟨[], hBetween.symm⟩
              | cons next between =>
                  obtain ⟨rfl, -⟩ := List.cons.inj hBetween
                  exact absurd (by simp [hInner]) hItem
          obtain ⟨before', hLater⟩ := hLater
          obtain ⟨found, hFound, later, hHead, hAfter⟩ := ih hItems hLater
          exact ⟨found, List.mem_cons_of_mem item hFound, later, hHead, hAfter⟩

/-- Behind the opening of a block stand the attributes that are put in, before another block opens
or closes. -/
theorem added_behind_opening (hScheme : scheme.Orderly) {before after : List Line}
    (hLines : parse (scheme.apply text).1 = before ++ line :: after)
    (hKind : line.kind = .opening path)
    {addition : ParameterMapping} (hAddition : addition ∈ scheme.additions)
    (hAddress : addition.address.toList = path ++ '.' :: key) (hKey : '.' ∉ key) :
    ∃ between added later, after = between ++ added :: later ∧
      (∀ line ∈ between, ∃ path key value topLevel,
        line.kind = .attribute path key value topLevel) ∧
      ∃ value topLevel, added.kind = .attribute addition.address.toList key value topLevel := by
  have hFits : Fits line := (parsed_parse _).fits line (by rw [hLines]; simp)
  obtain ⟨later, dropped, hSettle, hAfter⟩ := settle_split hFits (by simp [hKind]) hLines
  have hAttribute (opener : Line) : ∀ added ∈ (scheme.addedLines opener).map scheme.rewritten,
      ∃ path key value topLevel, added.kind = .attribute path key value topLevel :=
    List.forall_mem_map.mpr fun added hAdded => by
      obtain ⟨_, -, _, _, _, hAdded⟩ := kind_of_added hAdded
      obtain ⟨value, hRewritten⟩ := rewritten_attribute hAdded
      exact ⟨_, _, value, _, hRewritten⟩
  rw [settle_parse_apply hScheme] at hSettle
  obtain ⟨opener, -, rest, hOpener, hLater⟩ := exists_of_flatMap_eq
    (fun opener _ hMem => by
      obtain ⟨_, _, _, _, hLine⟩ := hAttribute opener _ hMem
      cases hKind.symm.trans hLine) hSettle
  have hOpening : opener.kind = .opening path := by
    have hSame : line.kind = (scheme.rewritten opener).kind := by rw [← line.kind_settled, hOpener]
    rcases kind_rewritten scheme opener with hStays | ⟨_, _, _, _, _, -, -, hNew⟩
    · rw [← hStays, ← hSame, hKind]
    · rw [← hSame, hKind] at hNew
      cases hNew
  let added : Line := {
    text := reference (indentation opener.text ++ "    ".toList) key addition.parameter.toList
    kind := .attribute addition.address.toList key ("var.".toList ++ addition.parameter.toList)
      (headerAddress? opener.text).isSome }
  have hAdded : added ∈ scheme.addedLines opener :=
    List.mem_filterMap.mpr ⟨addition, hAddition,
      addedLine?_eq_some_iff.mpr ⟨path, key, hOpening, hAddress, hKey, rfl, rfl⟩⟩
  obtain ⟨first, last, hSplit⟩ := List.append_of_mem hAdded
  rw [hLater, hSplit, List.map_append, List.map_cons, List.append_assoc,
    List.append_assoc] at hAfter
  obtain ⟨between, further, rfl, hBetween, hFurther⟩ := List.map_eq_append_iff.mp hAfter
  obtain ⟨found, beyond, rfl, hFound, -⟩ := List.map_eq_cons_iff.mp hFurther
  refine ⟨between, found, beyond, rfl, fun line hLine => ?_, ?_⟩
  · have hMem : line.settled ∈ (scheme.addedLines opener).map scheme.rewritten := by
      rw [hSplit, List.map_append, ← hBetween]
      exact List.mem_append_left _ (List.mem_map_of_mem hLine)
    exact hAttribute opener line.settled hMem
  · have hAttribute : added.kind = .attribute addition.address.toList key _ _ := rfl
    obtain ⟨value, hRewritten⟩ := rewritten_attribute hAttribute
    have hSame : found.kind = (scheme.rewritten added).kind := by rw [← found.kind_settled, hFound]
    exact ⟨value, _, hSame.trans hRewritten⟩

/-- The definition that is left has what the lists say: neither comments nor escape characters, a
reference for each mapped attribute, nothing that is to be removed unless it is to be added, and
what is to be added in each of its blocks. Up to carriage returns at the ends of lines and empty
lines at the end of the text, its lines are the added ones and, in order, the ones that are kept. -/
theorem apply_follows_lists (hScheme : scheme.Orderly) (text : List Char) :
    '\x1b' ∉ (scheme.apply text).1 ∧
      (∀ line ∈ parse (scheme.apply text).1, line.kind ≠ .comment ∧
        ∀ path key value topLevel, line.kind = .attribute path key value topLevel →
          (∀ mapping, scheme.mappings.find? (·.address.toList == path) = some mapping →
            value = "var.".toList ++ mapping.parameter.toList) ∧
          (topLevel = true ∧ key = "id".toList ∨
              (∃ removal ∈ scheme.removals, removal.toList = path) →
            ∃ addition ∈ scheme.additions, addition.address.toList = path)) ∧
      (∀ before line after path, parse (scheme.apply text).1 = before ++ line :: after →
        line.kind = .opening path → ∀ addition ∈ scheme.additions, ∀ key,
          addition.address.toList = path ++ '.' :: key → '.' ∉ key →
            ∃ between added later, after = between ++ added :: later ∧
              (∀ line ∈ between, ∃ path key value topLevel,
                line.kind = .attribute path key value topLevel) ∧
              ∃ value topLevel,
                added.kind = .attribute addition.address.toList key value topLevel) ∧
      settle (parse (scheme.apply text).1) = (settle (scheme.kept text)).flatMap fun line =>
        scheme.rewritten line :: (scheme.addedLines line).map scheme.rewritten :=
  ⟨not_mem_apply hScheme text,
    fun _ hLine => ⟨not_comment hScheme hLine, fun _ _ _ _ hKind =>
      ⟨fun _ hFind => value_of_mapped hScheme hLine hKind hFind,
        added_of_removed hScheme hLine hKind⟩⟩,
    fun _ _ _ _ hLines hKind _ hAddition _ hAddress hKey =>
      added_behind_opening hScheme hLines hKind hAddition hAddress hKey,
    settle_parse_apply hScheme text⟩

/-- A bucket whose name and expiry are parameters, and whose expiry the tool does not show. -/
def bucketScheme : Parameterization where
  mappings := [
    { address := "aws_s3_bucket.b.bucket", parameter := "bucket_name" },
    { address := "aws_s3_bucket.b.rule.days", parameter := "days" }]
  removals := ["aws_s3_bucket.b.arn"]
  additions := [{ address := "aws_s3_bucket.b.rule.days", parameter := "expiry-days" }]

def bucketShown : List Char :=
  joinLines (["# aws_s3_bucket.b:", "resource \"aws_s3_bucket\" \"b\" \x7b",
    "  \x1b[1marn\x1b[0m = \"arn:b\"", "  bucket = \"logs\"\x0d", "  id = \"logs\"",
    "  rule \x7b\x0d", "    id = \"all\"", "  \x7d", "\x7d", ""].map String.toList)

def bucketRecovered : List Char :=
  joinLines (["resource \"aws_s3_bucket\" \"b\" \x7b", "  bucket = var.bucket_name", "  rule \x7b",
    "      days = var.days", "    id = \"all\"", "  \x7d", "\x7d"].map String.toList)

theorem orderly_bucketScheme : bucketScheme.Orderly where
  mapped := by decide +kernel
  added := by
    intro addition hAddition
    obtain rfl := List.mem_singleton.mp hAddition
    refine ⟨by decide +kernel, by decide +kernel, fun block key hAddress hKey => ?_⟩
    have hSplit := splitAddress?_eq_some_iff.mpr ⟨hAddress, hKey⟩
    have hKnown : splitAddress? "aws_s3_bucket.b.rule.days".toList =
        some ("aws_s3_bucket.b.rule".toList, "days".toList) := by decide +kernel
    cases hKnown.symm.trans hSplit
    decide +kernel

theorem apply_follows_lists_bucket :
    bucketScheme.Orderly ∧ (bucketScheme.apply bucketShown).1 = bucketRecovered ∧
      settle (parse bucketRecovered) = (settle (bucketScheme.kept bucketShown)).flatMap fun line =>
        bucketScheme.rewritten line ::
          (bucketScheme.addedLines line).map bucketScheme.rewritten := by
  have hResult : (bucketScheme.apply bucketShown).1 = bucketRecovered := by decide +kernel
  obtain ⟨-, -, -, hLines⟩ := apply_follows_lists orderly_bucketScheme bucketShown
  rw [hResult] at hLines
  exact ⟨orderly_bucketScheme, hResult, hLines⟩

/-- An empty line at the end of the text is kept by no list, and lost. -/
theorem empty_line_lost :
    ({} : Parameterization).Orderly ∧
      (({} : Parameterization).kept "a\n\n".toList).map (·.text) = ["a".toList, []] ∧
      (parse (({} : Parameterization).apply "a\n\n".toList).1).map (·.text) = ["a".toList] :=
  ⟨⟨by simp, by simp⟩, by decide +kernel, by decide +kernel⟩

end ServiceBroker.Parameterization
