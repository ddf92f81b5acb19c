import ServiceBroker.Proofs.Definition.Recovery
import ServiceBroker.Proofs.Document.Decoding

/-! Scalars as they are written in a definition, and what is recovered of them.

A text is written between quotes, with a backslash before whatever cannot stand there as it is. The
quotes are taken off and the backslashes are left, so the texts that are written without any are
recovered as they are, and so are all other scalars. -/

namespace ServiceBroker.Definition

open ServiceBroker.Text

/-! ### Scalars as they are written -/

/-- The number that hexadecimal digits write. -/
def hexNumber? (digits : List Char) : Option Nat :=
  digits.foldlM (fun n digit => (Json.Reader.hexValue? digit).map (n * 16 + ·)) 0

/-- The letters behind a backslash that stand for a control character. -/
def controlLetters : List (Char × Char) :=
  [('n', '\n'), ('r', '\r'), ('t', '\t'), ('b', '\x08'), ('f', '\x0c')]

/-- What stands behind a backslash, and the character that is meant. -/
inductive Escape : List Char → Char → Prop where
  | mark {c : Char} (h : c ∈ ['"', '\\', '/']) : Escape [c] c
  | control {letter c : Char} (h : (letter, c) ∈ controlLetters) : Escape [letter] c
  | short {digits : List Char} {c : Char} (hLength : digits.length = 4)
      (hNumber : hexNumber? digits = some c.toNat) : Escape ('u' :: digits) c
  | long {digits : List Char} {c : Char} (hLength : digits.length = 8)
      (hNumber : hexNumber? digits = some c.toNat) : Escape ('U' :: digits) c
  /-- Two halves, for a character beyond four digits. -/
  | pair {first second : List Char} {high low : Nat} {c : Char} (hFirst : first.length = 4)
      (hSecond : second.length = 4) (hHigh : hexNumber? first = some high)
      (hLow : hexNumber? second = some low)
      (hNumber : c.toNat = 0x10000 + (high - 0xD800) * 0x400 + (low - 0xDC00)) :
      Escape ('u' :: (first ++ '\\' :: 'u' :: second)) c

/-- What stands between the quotes for a text. A character other than a quote, a backslash or a
control may stand for itself. -/
inductive Spells : List Char → List Char → Prop where
  | nil : Spells [] []
  | plain {c : Char} {plain written : List Char} (hQuote : c ≠ '"') (hBackslash : c ≠ '\\')
      (hControl : 32 ≤ c.toNat) (h : Spells plain written) : Spells (c :: plain) (c :: written)
  | escape {code plain written : List Char} {c : Char} (hCode : Escape code c)
      (h : Spells plain written) : Spells (c :: plain) ('\\' :: (code ++ written))

/-- A scalar, and the way in which it is written. -/
inductive Literal : Json → List Char → Prop where
  | null : Literal .null (Json.compact .null)
  | bool (b : Bool) : Literal (.bool b) (Json.compact (.bool b))
  | integer {n : Int} (h : Json.Number.keeps n = true) :
      Literal (.number (.integer n)) (Json.compact (.number (.integer n)))
  | string {s : String} {written : List Char} (h : Spells s.toList written) :
      Literal (.string s) ('"' :: (written ++ ['"']))

variable {c : Char} {plain written literal code line key text : List Char} {value : Json}

theorem Escape.ne_nil (h : Escape code c) : code ≠ [] := by
  cases h <;> simp

theorem Spells.length_le (h : Spells plain written) : plain.length ≤ written.length := by
  induction h with
  | nil => simp
  | plain hQuote hBackslash hControl h ih => simpa using ih
  | escape hCode h ih =>
      rw [List.length_cons, List.length_cons, List.length_append]
      omega

theorem Spells.length_lt (h : Spells plain written) (hMem : '\\' ∈ written) :
    plain.length < written.length := by
  induction h with
  | nil => cases hMem
  | plain hQuote hBackslash hControl h ih =>
      rcases List.mem_cons.mp hMem with hSame | hMem
      · exact absurd hSame.symm hBackslash
      · simpa using ih hMem
  | escape hCode h ih =>
      have hLength := h.length_le
      have hNonempty := List.length_pos_of_ne_nil hCode.ne_nil
      rw [List.length_cons, List.length_cons, List.length_append]
      omega

theorem escapeChar_of_plain (hQuote : c ≠ '"') (hBackslash : c ≠ '\\') (hControl : 32 ≤ c.toNat) :
    Json.escapeChar c = [c] := by
  rw [Json.escapeChar, if_neg hQuote, if_neg hBackslash, if_neg, if_neg, if_neg, if_neg, if_neg,
    if_neg (by omega)]
  all_goals
    rintro rfl
    exact absurd hControl (by decide)

/-- What a printer writes for a character that cannot stand for itself. -/
theorem escape_escapeChar (h : c = '"' ∨ c = '\\' ∨ c.toNat < 32) :
    ∃ code, Escape code c ∧ Json.escapeChar c = '\\' :: code := by
  unfold Json.escapeChar
  split
  · next hc => exact ⟨_, .mark (by simp [hc]), by rw [hc]⟩
  split
  · next hc => exact ⟨_, .mark (by simp [hc]), by rw [hc]⟩
  split
  · next hc => exact ⟨['n'], .control (by simp [hc, controlLetters]), rfl⟩
  split
  · next hc => exact ⟨['r'], .control (by simp [hc, controlLetters]), rfl⟩
  split
  · next hc => exact ⟨['t'], .control (by simp [hc, controlLetters]), rfl⟩
  split
  · next hc => exact ⟨['b'], .control (by simp [hc, controlLetters]), rfl⟩
  split
  · next hc => exact ⟨['f'], .control (by simp [hc, controlLetters]), rfl⟩
  split
  · refine ⟨_, .short (by simp) ?_, rfl⟩
    have hHigh := Json.Reader.hexValue?_hexDigit (show c.toNat / 16 < 16 by omega)
    have hLow := Json.Reader.hexValue?_hexDigit (show c.toNat % 16 < 16 by omega)
    have hZero : Json.Reader.hexValue? '0' = some 0 := by decide
    have hCode : c.toNat / 16 * 16 + c.toNat % 16 = c.toNat := by omega
    simp [hexNumber?, hZero, hHigh, hLow, hCode]
  · next hQuote hBackslash _ _ _ _ _ hControl => simp [hQuote, hBackslash, hControl] at h

/-- A printer spells a text. -/
theorem spells_escapeChar (plain : List Char) : Spells plain (plain.flatMap Json.escapeChar) := by
  induction plain with
  | nil => exact .nil
  | cons c plain ih =>
      rw [List.flatMap_cons]
      by_cases hc : c = '"' ∨ c = '\\' ∨ c.toNat < 32
      · obtain ⟨code, hCode, hEscape⟩ := escape_escapeChar hc
        rw [hEscape]
        exact .escape hCode ih
      · simp only [not_or, Nat.not_lt] at hc
        obtain ⟨hQuote, hBackslash, hControl⟩ := hc
        rw [escapeChar_of_plain hQuote hBackslash hControl]
        exact .plain hQuote hBackslash hControl ih

/-- A text that is written without a backslash stands there as it is, and is printed so. -/
theorem Spells.eq_of_not_mem (h : Spells plain written) (hNot : '\\' ∉ written) :
    written = plain ∧ written.flatMap Json.escapeChar = written := by
  induction h with
  | nil => exact ⟨rfl, rfl⟩
  | plain hQuote hBackslash hControl h ih =>
      obtain ⟨hSame, hPrinted⟩ := ih (List.not_mem_of_not_mem_cons hNot)
      rw [List.flatMap_cons, escapeChar_of_plain hQuote hBackslash hControl, hPrinted]
      exact ⟨congrArg _ hSame, rfl⟩
  | escape hCode h ih => exact absurd List.mem_cons_self hNot

theorem Spells.eq_iff (h : Spells plain written) : written = plain ↔ '\\' ∉ written := by
  refine ⟨fun hSame hMem => ?_, fun hNot => (h.eq_of_not_mem hNot).1⟩
  have hLength := h.length_lt hMem
  rw [hSame] at hLength
  exact absurd hLength (Nat.lt_irrefl _)

theorem Spells.printed_iff (h : Spells plain written) :
    written.flatMap Json.escapeChar = written ↔ '\\' ∉ written := by
  refine ⟨fun hSame hMem => ?_, fun hNot => (h.eq_of_not_mem hNot).2⟩
  have hPrinted : '\\' ∈ written.flatMap Json.escapeChar :=
    List.mem_flatMap.mpr ⟨'\\', hMem, by simp [Json.escapeChar]⟩
  have hLength := (spells_escapeChar written).length_lt hPrinted
  rw [hSame] at hLength
  exact absurd hLength (Nat.lt_irrefl _)

/-! ### What a literal is taken for -/

/-- A scalar other than a text is read as it was printed. -/
theorem literalValue_compact (atom : value.IsAtom) (hIntegral : value.Integral)
    (hHead : value.compact.head? ≠ some '"') :
    Parameterization.literalValue value.compact = value := by
  have hParse : Json.parse value.render = .ok value := by
    rw [Json.parse, Json.decode_render, hIntegral.faithful.reread?_eq]
    change Decoder.value _ value.toDocument = _
    rw [Decoder.value_toDocument (Json.distinct_of_isAtom atom), Json.depth_of_isAtom atom,
      if_pos (Nat.zero_le _)]
  unfold Parameterization.literalValue
  split
  · next inner hLiteral => simp [hLiteral] at hHead
  · rw [Parameterization.literalValue.jsonOr, ← Json.render, hParse]

theorem literalValue_quoted (written : List Char) :
    Parameterization.literalValue ('"' :: (written ++ ['"'])) =
      .string (String.ofList written) := by
  simp [Parameterization.literalValue]

theorem mem_compact_number {n : Json.Number} (hc : c ∈ Json.compact (.number n)) :
    Json.Reader.isNumberChar c = true :=
  (Json.Number.numeric_text n).all c hc

theorem isBlank_eq_false_of_isNumberChar (h : Json.Reader.isNumberChar c = true) :
    isBlank c = false := by
  simp only [Json.Reader.isNumberChar, Bool.or_eq_true, decide_eq_true_eq] at h
  rcases h with ((((hDigit | rfl) | rfl) | rfl) | rfl) | rfl
  · have hRange : 48 ≤ c.toNat ∧ c.toNat ≤ 57 := by
      simpa [Char.isDigit, UInt32.le_iff_toNat_le] using hDigit
    simp only [isBlank, Bool.or_eq_false_iff, Bool.and_eq_false_iff, decide_eq_false_iff_not,
      beq_eq_false_iff_ne]
    omega
  all_goals decide

/-- A scalar is recovered from the way in which it is written, and printed in that way again,
exactly if it is written without a backslash. -/
theorem Literal.recovered_iff (h : Literal value literal) :
    (Parameterization.literalValue literal = value ↔ '\\' ∉ literal) ∧
      ((Parameterization.literalValue literal).compact = literal ↔ '\\' ∉ literal) := by
  have hPrinted (atom : value.IsAtom) (hIntegral : value.Integral)
      (hMarks : ∀ c ∈ value.compact, c ≠ '"' ∧ c ≠ '\\') :
      (Parameterization.literalValue value.compact = value ↔ '\\' ∉ value.compact) ∧
        ((Parameterization.literalValue value.compact).compact = value.compact ↔
          '\\' ∉ value.compact) := by
    have hNot : '\\' ∉ value.compact := fun hc => (hMarks _ hc).2 rfl
    rw [literalValue_compact atom hIntegral fun hHead =>
      (hMarks _ (List.mem_of_head? hHead)).1 rfl]
    exact ⟨iff_of_true rfl hNot, iff_of_true rfl hNot⟩
  cases h with
  | null =>
      exact hPrinted trivial
        ((Json.throughout_iff_of_isAtom (show Json.null.IsAtom from trivial)).mpr trivial)
        (by simp [Json.compact])
  | bool b =>
      refine hPrinted trivial
        ((Json.throughout_iff_of_isAtom (show (Json.bool b).IsAtom from trivial)).mpr trivial) ?_
      cases b <;> simp [Json.compact]
  | integer hKeeps =>
      refine hPrinted trivial (Json.throughout_number_iff.mpr ⟨_, rfl, hKeeps⟩) fun c hc => ?_
      have hNumber := mem_compact_number hc
      constructor <;>
      · rintro rfl
        exact absurd hNumber (by decide)
  | @string s written h =>
      have hMem : '\\' ∉ '"' :: (written ++ ['"']) ↔ '\\' ∉ written := by simp
      rw [literalValue_quoted, hMem]
      constructor
      · rw [Json.string.injEq, ← String.toList_inj, String.toList_ofList, h.eq_iff]
      · rw [Json.compact, Json.stringText, String.toList_ofList, List.cons_append, List.cons.injEq,
          List.append_left_inj, h.printed_iff, and_iff_right rfl]

/-- A literal ends neither with a blank nor with a brace. -/
theorem Literal.exists_last (h : Literal value literal) :
    ∃ first last, literal = first ++ [last] ∧ isBlank last = false ∧ last ≠ '{' := by
  cases h with
  | null => exact ⟨['n', 'u', 'l'], 'l', rfl, by decide, by decide⟩
  | bool b =>
      cases b
      · exact ⟨['f', 'a', 'l', 's'], 'e', rfl, by decide, by decide⟩
      · exact ⟨['t', 'r', 'u'], 'e', rfl, by decide, by decide⟩
  | @integer n hKeeps =>
      obtain ⟨-, c, rest, hText, -⟩ := Json.Number.numeric_text (.integer n)
      have hNonempty : Json.compact (.number (.integer n)) ≠ [] := by
        rw [Json.compact, hText]
        exact List.cons_ne_nil _ _
      have hLast := mem_compact_number (List.getLast_mem hNonempty)
      refine ⟨_, _, (List.dropLast_append_getLast hNonempty).symm, ?_, ?_⟩
      · exact isBlank_eq_false_of_isNumberChar hLast
      · intro same
        rw [same] at hLast
        exact absurd hLast (by decide)
  | string h => exact ⟨_, '"', (List.cons_append ..).symm, by decide, by decide⟩

/-- A line that gives a key a value ends like the value. -/
theorem Assigns.not_endsWithBrace {first : List Char} {last : Char}
    (h : Assigns line key (first ++ [last])) (hBlank : isBlank last = false) (hBrace : last ≠ '{') :
    ¬EndsWithBrace line := by
  obtain ⟨back, gap, written, -, -, hValue, -, -, lead, front, -, -, hLine⟩ := h
  obtain ⟨before, tail, -, hTail, hWritten⟩ := exists_trim written
  have hReverse : Blank tail.reverse := fun c hc => hTail c (List.mem_reverse.mp hc)
  have hEnd : line.reverse = tail.reverse ++ last ::
      (lead ++ (front ++ (key ++ (back ++ (gap ++ '=' :: (before ++ first)))))).reverse := by
    rw [hLine, hWritten, ← hValue]
    simp
  rw [endsWithBrace_iff, hEnd, trimLeft_append hReverse (flush_cons.mpr hBlank)]
  simpa using hBrace

end ServiceBroker.Definition

namespace ServiceBroker.Parameterization

open ServiceBroker.Text ServiceBroker.Definition

variable {scheme : Parameterization} {text line key literal : List Char}
  {before after : List (List Char)} {mapping : ParameterMapping} {value : Json}

/-- What is captured of a line and what is put in its place, if no later line gives up a value for
the parameter. -/
theorem replace_of_mapped_line (hLines : lines text = before ++ line :: after)
    (hLine : Assigns line key literal) (hBrace : ¬EndsWithBrace line)
    (hComment : isComment line = false) (hClosing : isClosing line = false)
    (hStack : stackBehind [] before ≠ [])
    (hMapped : scheme.mappings.find?
      (·.address.toList == joinPath (stackBehind [] before) ++ '.' :: key) = some mapping)
    (hLater : ∀ other ∈ classifyAll (stackBehind [] before) after, ∀ value,
      scheme.givenUp? other ≠ some (mapping.parameter, value)) :
    (scheme.replace text).2.get? mapping.parameter = some (literalValue literal) ∧
      ∃ first last, first.length = before.length ∧ last.length = after.length ∧
        (scheme.replace text).1 = joinLines (first ++
          reference (indentation line) key mapping.parameter.toList :: last) := by
  let read : Line := {
    text := line
    kind := .attribute (joinPath (stackBehind [] before) ++ '.' :: key) key literal
      (decide ((stackBehind [] before).length = 1)) }
  have hParse : parse text =
      classifyAll [] before ++ read :: classifyAll (stackBehind [] before) after := by
    rw [parse, hLines, classifyAll_append, classifyAll_cons,
      classify_of_assigns hLine hBrace hComment hClosing hStack]
  have hReplaced : scheme.replaceLine read =
      (reference (indentation line) key mapping.parameter.toList,
        some (mapping.parameter, literalValue literal)) := by
    simp only [replaceLine, read, hMapped]
  constructor
  · have hNone : (Fields.ofPairs ((classifyAll (stackBehind [] before) after).filterMap
        scheme.givenUp?)).get? mapping.parameter = none := by
      refine Fields.get?_ofPairs_eq_none fun value hMem => ?_
      obtain ⟨other, hOther, hGiven⟩ := List.mem_filterMap.mp hMem
      exact hLater other hOther value hGiven
    have hGiven : scheme.givenUp? read = some (mapping.parameter, literalValue literal) := by
      rw [givenUp?, hReplaced]
    rw [snd_replace, hParse, List.filterMap_append, List.filterMap_cons_some hGiven,
      Fields.get?_ofPairs_append_cons, hNone, Option.none_or]
  · refine ⟨(classifyAll [] before).map fun other => (scheme.replaceLine other).1,
      (classifyAll (stackBehind [] before) after).map fun other => (scheme.replaceLine other).1,
      by simp, by simp, ?_⟩
    simp only [replace, hParse, List.map_append, List.map_cons, List.map_map, hReplaced]
    rfl

/-- A scalar is captured as it was written, and a reference to the parameter is put in its place.
What is captured is the scalar, and is printed as the scalar was written, exactly if no backslash
stands in what was written. -/
theorem captured_as_written_iff (hLines : lines text = before ++ line :: after)
    (hLine : Assigns line key literal) (hComment : isComment line = false)
    (hClosing : isClosing line = false) (hStack : stackBehind [] before ≠ [])
    (hMapped : scheme.mappings.find?
      (·.address.toList == joinPath (stackBehind [] before) ++ '.' :: key) = some mapping)
    (hLater : ∀ other ∈ classifyAll (stackBehind [] before) after, ∀ value,
      scheme.givenUp? other ≠ some (mapping.parameter, value))
    (hLiteral : Literal value literal) :
    (∃ captured, (scheme.replace text).2.get? mapping.parameter = some captured ∧
        (captured = value ↔ '\\' ∉ literal) ∧ (captured.compact = literal ↔ '\\' ∉ literal)) ∧
      ∃ first last, first.length = before.length ∧ last.length = after.length ∧
        (scheme.replace text).1 = joinLines (first ++
          reference (indentation line) key mapping.parameter.toList :: last) := by
  obtain ⟨start, final, rfl, hBlank, hFinal⟩ := hLiteral.exists_last
  obtain ⟨hCaptured, hText⟩ := replace_of_mapped_line hLines hLine
    (hLine.not_endsWithBrace hBlank hFinal) hComment hClosing hStack hMapped hLater
  exact ⟨⟨_, hCaptured, hLiteral.recovered_iff⟩, hText⟩

def bucketHeader : List Char :=
  "resource \"aws_s3_bucket\" \"b\" \x7b".toList

/-- A bucket with a name that is written in some way. -/
def bucketNamed (literal : List Char) : List Char :=
  joinLines [bucketHeader, "  \"bucket\" = ".toList ++ (literal ++ [' ']), "\x7d".toList]

theorem captured_as_written_logs :
    '\\' ∉ "\"logs\"".toList ∧ ∃ captured,
      (bucketScheme.replace (bucketNamed "\"logs\"".toList)).2.get? "bucket_name" = some captured ∧
        captured = .string "logs" ∧ captured.compact = "\"logs\"".toList := by
  have hPlain : '\\' ∉ "\"logs\"".toList := by decide
  have hLines : lines (bucketNamed "\"logs\"".toList) =
      [bucketHeader] ++ "  \"bucket\" = \"logs\" ".toList :: ["\x7d".toList] := by decide +kernel
  have hLine : Assigns "  \"bucket\" = \"logs\" ".toList "bucket".toList "\"logs\"".toList :=
    attribute?_eq_some_iff.mp (by decide +kernel)
  have hMapped : bucketScheme.mappings.find? (·.address.toList ==
      joinPath (stackBehind [] [bucketHeader]) ++ '.' :: "bucket".toList) =
        some { address := "aws_s3_bucket.b.bucket", parameter := "bucket_name" } := by
    decide +kernel
  have hLater : ∀ other ∈ classifyAll (stackBehind [] [bucketHeader]) ["\x7d".toList], ∀ value,
      bucketScheme.givenUp? other ≠ some ("bucket_name", value) := by
    intro other hOther value hGiven
    have hKind : (classifyAll (stackBehind [] [bucketHeader]) ["\x7d".toList]).all
        (·.kind == .other) = true := by decide +kernel
    rw [givenUp?_of_other (beq_iff_eq.mp (List.all_eq_true.mp hKind other hOther))] at hGiven
    cases hGiven
  have hLiteral : Literal (.string "logs") "\"logs\"".toList := by
    have hPrinted : '"' :: ("logs".toList.flatMap Json.escapeChar ++ ['"']) =
        "\"logs\"".toList := by decide +kernel
    exact hPrinted ▸ .string (spells_escapeChar _)
  obtain ⟨⟨captured, hCaptured, hValue, hPrinted⟩, -⟩ := captured_as_written_iff hLines hLine
    (by decide +kernel) (by decide +kernel) (by decide +kernel) hMapped hLater hLiteral
  exact ⟨hPlain, captured, hCaptured, hValue.mpr hPlain, hPrinted.mpr hPlain⟩

/-- The backslash before a quote within a name is recovered as a part of the name. -/
theorem backslash_captured :
    Literal (.string "a\"b") "\"a\\\"b\"".toList ∧
      (bucketScheme.replace (bucketNamed "\"a\\\"b\"".toList)).2.get? "bucket_name" ≠
        some (.string "a\"b") ∧
      ((bucketScheme.replace (bucketNamed "\"a\\\"b\"".toList)).2.get? "bucket_name").map
        Json.compact = some (Json.compact (.string "a\\\"b")) := by
  have hPrinted : '"' :: ("a\"b".toList.flatMap Json.escapeChar ++ ['"']) =
      "\"a\\\"b\"".toList := by decide +kernel
  have hCaptured : ((bucketScheme.replace (bucketNamed "\"a\\\"b\"".toList)).2.get?
      "bucket_name").map Json.compact = some (Json.compact (.string "a\\\"b")) := by decide +kernel
  refine ⟨hPrinted ▸ .string (spells_escapeChar _), fun hSame => ?_, hCaptured⟩
  rw [hSame] at hCaptured
  exact absurd hCaptured (by decide +kernel)

end ServiceBroker.Parameterization
