import ServiceBroker.Text.Lines

/-! The pieces of a text and its lines. Lines that are put together and cut again are the same, but
for a carriage return at the end of each line and an empty last line. -/

namespace ServiceBroker.Text

variable {mark c : Char} {text line piece : List Char} {pieces : List (List Char)}

theorem splitAt_eq_splitOn (mark : Char) (text : List Char) :
    splitAt mark text = text.splitOn mark := by
  induction text with
  | nil => simp [splitAt]
  | cons c rest ih =>
      rw [splitAt, ih, List.splitOn_cons_eq_if_modifyHead]
      by_cases h : c = mark
      · simp [h]
      · obtain ⟨piece, later, hRest⟩ := List.exists_cons_of_ne_nil (List.splitOn_ne_nil mark rest)
        simp [h, hRest]

theorem splitAt_append_cons (first rest : List Char) :
    splitAt mark (first ++ mark :: rest) = splitAt mark first ++ splitAt mark rest := by
  simp only [splitAt_eq_splitOn, List.splitOn]
  exact List.splitOnP_append_cons _ _ (by simp)

theorem splitAt_of_not_mem (h : mark ∉ text) : splitAt mark text = [text] := by
  rw [splitAt_eq_splitOn, List.splitOn]
  exact List.splitOnP_eq_singleton fun c hc => by
    simpa using fun same : c = mark => h (same ▸ hc)

/-- A text is one piece, or begins with one. -/
theorem splitAt_cases (mark : Char) (text : List Char) :
    (mark ∉ text ∧ splitAt mark text = [text]) ∨
      ∃ first rest, text = first ++ mark :: rest ∧ mark ∉ first ∧
        splitAt mark text = first :: splitAt mark rest := by
  by_cases h : mark ∈ text
  · obtain ⟨first, rest, rfl, hFirst⟩ := List.eq_append_cons_of_mem h
    refine .inr ⟨first, rest, rfl, hFirst, ?_⟩
    rw [splitAt_append_cons, splitAt_of_not_mem hFirst]
    rfl
  · exact .inl ⟨h, splitAt_of_not_mem h⟩

/-- A character in front of a text belongs to its first piece, unless it ends one. -/
theorem exists_splitAt_cons (h : c ≠ mark) (text : List Char) : ∃ piece pieces rest,
    splitAt mark text = piece :: pieces ∧ splitAt mark (c :: text) = (c :: piece) :: pieces ∧
      text = piece ++ rest ∧ (rest = [] ∨ ∃ later, rest = mark :: later) := by
  have hCons {piece : List Char} {pieces : List (List Char)}
      (hText : splitAt mark text = piece :: pieces) :
      splitAt mark (c :: text) = (c :: piece) :: pieces := by
    rw [splitAt, if_neg h, hText]
  rcases splitAt_cases mark text with ⟨-, hOne⟩ | ⟨first, rest, hText, -, hPieces⟩
  · exact ⟨text, [], [], hOne, hCons hOne, by simp, .inl rfl⟩
  · exact ⟨first, splitAt mark rest, mark :: rest, hPieces, hCons hPieces, hText, .inr ⟨rest, rfl⟩⟩

theorem not_mem_of_mem_splitAt (h : piece ∈ splitAt mark text) : mark ∉ piece := by
  induction hLength : text.length using Nat.strongRecOn generalizing text with
  | ind n ih =>
      rcases splitAt_cases mark text with ⟨hNone, hOne⟩ | ⟨first, rest, rfl, hFirst, hPieces⟩
      · rw [hOne] at h
        exact List.mem_singleton.mp h ▸ hNone
      · rw [hPieces] at h
        rcases List.mem_cons.mp h with rfl | hLater
        · exact hFirst
        · exact ih rest.length (by simp at hLength; omega) hLater rfl

theorem infix_of_mem_splitAt (h : piece ∈ splitAt mark text) : piece <:+: text := by
  induction hLength : text.length using Nat.strongRecOn generalizing text with
  | ind n ih =>
      rcases splitAt_cases mark text with ⟨-, hOne⟩ | ⟨first, rest, rfl, -, hPieces⟩
      · rw [hOne] at h
        exact List.mem_singleton.mp h ▸ List.infix_refl _
      · rw [hPieces] at h
        rcases List.mem_cons.mp h with rfl | hLater
        · exact (List.prefix_append piece _).isInfix
        · have hRest := ih rest.length (by simp at hLength; omega) hLater rfl
          have hSuffix : rest <:+ first ++ mark :: rest :=
            (List.suffix_cons mark rest).trans (List.suffix_append first _)
          exact hRest.trans hSuffix.isInfix

theorem dropReturn_prefix (line : List Char) : dropReturn line <+: line := by
  unfold dropReturn
  split
  · exact List.dropLast_prefix line
  · exact List.prefix_refl line

/-- A line ends with the carriage return that is dropped, or it is kept. -/
theorem eq_of_dropReturn (line : List Char) :
    dropReturn line = line ∨ line = dropReturn line ++ ['\r'] := by
  unfold dropReturn
  split
  · next h =>
      obtain ⟨before, rfl⟩ := List.getLast?_eq_some_iff.mp h
      exact .inr (by simp)
  · exact .inl rfl

/-- Every line but the last one loses a carriage return, and the last one counts if it is not
empty. -/
theorem endLines_concat (pieces : List (List Char)) (last : List Char) :
    endLines (pieces ++ [last]) =
      pieces.map dropReturn ++ if last.isEmpty then [] else [last] := by
  induction pieces with
  | nil => rfl
  | cons piece pieces ih =>
      obtain ⟨next, later, hRest⟩ : ∃ next later, pieces ++ [last] = next :: later :=
        List.exists_cons_of_ne_nil (by simp)
      rw [List.cons_append, hRest, endLines, ← hRest, ih]
      · rfl
      · simp

theorem lines_joinLines (h : ∀ line ∈ pieces, '\n' ∉ line) :
    lines (joinLines pieces) = endLines pieces := by
  cases pieces with
  | nil => rfl
  | cons piece pieces =>
      rw [lines, splitAt_eq_splitOn, joinLines, List.splitOn_intercalate _ h (by simp)]

/-- A line is a piece, perhaps without its carriage return. -/
theorem exists_prefix_of_mem_lines (h : line ∈ lines text) :
    ∃ piece ∈ splitAt '\n' text, line <+: piece := by
  rw [lines] at h
  rcases List.eq_nil_or_concat (splitAt '\n' text) with hNone | ⟨pieces, last, hSplit⟩
  · rw [hNone] at h
    cases h
  · rw [List.concat_eq_append] at hSplit
    rw [hSplit, endLines_concat] at h
    rw [hSplit]
    rcases List.mem_append.mp h with hEarlier | hLast
    · obtain ⟨piece, member, rfl⟩ := List.mem_map.mp hEarlier
      exact ⟨piece, by simp [member], dropReturn_prefix piece⟩
    · split at hLast
      · cases hLast
      · obtain rfl := List.mem_singleton.mp hLast
        exact ⟨line, by simp, List.prefix_refl line⟩

theorem not_mem_of_mem_lines (h : line ∈ lines text) : '\n' ∉ line := by
  obtain ⟨piece, member, hLine⟩ := exists_prefix_of_mem_lines h
  exact fun hMem => not_mem_of_mem_splitAt member (hLine.subset hMem)

/-- A line has no character that the text has not. -/
theorem mem_of_mem_lines (h : line ∈ lines text) (hc : c ∈ line) : c ∈ text := by
  obtain ⟨piece, member, hLine⟩ := exists_prefix_of_mem_lines h
  exact (infix_of_mem_splitAt member).subset (hLine.subset hc)

/-- A character that is in no line and does not end lines is not in the lines put together. -/
theorem not_mem_joinLines (h : ∀ line ∈ pieces, c ∉ line) (other : c ≠ '\n') :
    c ∉ joinLines pieces := by
  rw [joinLines]
  induction pieces with
  | nil => simp
  | cons piece pieces ih =>
      have hPiece : c ∉ piece := h piece (by simp)
      have hLater : c ∉ List.intercalate ['\n'] pieces :=
        ih fun line member => h line (by simp [member])
      cases pieces with
      | nil => simpa using hPiece
      | cons next later =>
          rw [List.intercalate_cons_cons]
          simp [hPiece, other, hLater]

end ServiceBroker.Text
