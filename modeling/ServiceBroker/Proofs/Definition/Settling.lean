import Mathlib.Data.List.DropRight
import ServiceBroker.Proofs.Definition.Parse

/-! Lines put together and read again. They are what they were, but for carriage returns at their
ends and empty lines at the end of the text, which get lost. `settle` takes off both at once. -/

namespace ServiceBroker.Definition

open ServiceBroker.Text

variable {c : Char} {text : List Char} {stack : List (List Char)} {line : Line} {read : List Line}

/-- The lines as they are read when they have been put together. -/
def reread : List Line → List Line
  | [] => []
  | [last] => if last.text.isEmpty then [] else [last]
  | line :: next :: read => { line with text := dropReturn line.text } :: reread (next :: read)

theorem map_text_reread (read : List Line) :
    (reread read).map (·.text) = endLines (read.map (·.text)) := by
  fun_induction reread read with
  | case1 => rfl
  | case2 last hEmpty => simp [endLines, hEmpty]
  | case3 last hEmpty => simp [endLines, hEmpty]
  | case4 line next read ih => simp only [List.map_cons, endLines, ih]

theorem classify_dropReturn : classify stack (dropReturn text) = classify stack text := by
  rcases eq_of_dropReturn text with h | h
  · rw [h]
  · conv_rhs => rw [h, classify_append (by simp [isBlank])]

theorem Parsed.reread (h : Parsed stack read) : Parsed stack (reread read) := by
  fun_induction Definition.reread read generalizing stack with
  | case1 => exact h
  | case2 last hEmpty => exact parsed_nil
  | case3 last hEmpty => exact h
  | case4 line next read ih =>
      obtain ⟨hKind, hRead⟩ := parsed_cons.mp h
      refine parsed_cons.mpr ?_
      rw [classify_dropReturn]
      exact ⟨hKind, ih hRead⟩

/-- Lines that are put together are read again as what they are. -/
theorem parse_joinLines (h : Parsed [] read) (hLine : ∀ line ∈ read, '\n' ∉ line.text) :
    parse (joinLines (read.map (·.text))) = reread read := by
  rw [parse, lines_joinLines (by simpa using hLine), ← map_text_reread]
  exact h.reread

/-- The text without the carriage returns at its end. -/
def withoutReturns (text : List Char) : List Char :=
  text.rdropWhile (· == '\r')

/-- The line without the carriage returns at its end. -/
def Line.settled (line : Line) : Line :=
  { line with text := withoutReturns line.text }

theorem Line.kind_settled (line : Line) : line.settled.kind = line.kind := rfl

/-- The lines without carriage returns at their ends, and without empty lines at the end. -/
def settle (read : List Line) : List Line :=
  read.foldr (fun line rest =>
    if line.settled.text.isEmpty && rest.isEmpty then [] else line.settled :: rest) []

theorem settle_cons (line : Line) (read : List Line) : settle (line :: read) =
    if line.settled.text.isEmpty && (settle read).isEmpty then []
    else line.settled :: settle read :=
  rfl

theorem withoutReturns_dropReturn (text : List Char) :
    withoutReturns (dropReturn text) = withoutReturns text := by
  rcases eq_of_dropReturn text with h | h
  · rw [h]
  · conv_rhs => rw [h]
    exact (List.rdropWhile_concat_pos _ _ _ rfl).symm

@[simp]
theorem settle_reread (read : List Line) : settle (reread read) = settle read := by
  fun_induction reread read with
  | case1 => rfl
  | case2 last hEmpty =>
      have hText : last.settled.text = [] := by
        rw [Line.settled, List.isEmpty_iff.mp hEmpty]
        rfl
      rw [settle_cons, hText]
      rfl
  | case3 last hEmpty => rfl
  | case4 line next read ih =>
      rw [settle_cons, ih, settle_cons line, Line.settled, Line.settled]
      simp only [withoutReturns_dropReturn]

/-- Only empty lines are dropped. -/
theorem exists_dropped (read : List Line) : ∃ dropped,
    read.map Line.settled = settle read ++ dropped ∧ ∀ line ∈ dropped, line.text = [] := by
  induction read with
  | nil => exact ⟨[], rfl, by simp⟩
  | cons line read ih =>
      obtain ⟨dropped, hRead, hDropped⟩ := ih
      rw [List.map_cons, settle_cons, hRead]
      split
      · next h =>
          obtain ⟨hLine, hNone⟩ : line.settled.text = [] ∧ settle read = [] := by simpa using h
          refine ⟨line.settled :: dropped, by simp [hNone], ?_⟩
          exact List.forall_mem_cons.mpr ⟨hLine, hDropped⟩
      · exact ⟨dropped, rfl, hDropped⟩

theorem settle_map {change : Line → Line}
    (hSettled : ∀ line ∈ read, (change line).settled = change line.settled)
    (hEmpty : ∀ line ∈ read, (change line).settled.text.isEmpty = line.settled.text.isEmpty) :
    settle (read.map change) = (settle read).map change := by
  induction read with
  | nil => rfl
  | cons line read ih =>
      obtain ⟨hLine, hSettled⟩ := List.forall_mem_cons.mp hSettled
      obtain ⟨hLineEmpty, hEmpty⟩ := List.forall_mem_cons.mp hEmpty
      rw [List.map_cons, settle_cons, settle_cons, ih hSettled hEmpty, hLineEmpty, hLine,
        List.isEmpty_map]
      split
      · rfl
      · rfl

/-- Lines that are full and end without a carriage return are kept in front of others. -/
theorem settle_append {inner : List Line}
    (hInner : ∀ line ∈ inner, line.settled = line ∧ line.text ≠ []) :
    settle (inner ++ read) = inner ++ settle read := by
  induction inner with
  | nil => rfl
  | cons line inner ih =>
      obtain ⟨⟨hSettled, hText⟩, hInner⟩ := List.forall_mem_cons.mp hInner
      have hFull : (line.text.isEmpty && (inner ++ settle read).isEmpty) = false := by simp [hText]
      rw [List.cons_append, settle_cons, ih hInner, hSettled, hFull]
      rfl

theorem settle_flatMap {inner : Line → List Line}
    (hSettled : ∀ line ∈ read, inner line.settled = inner line)
    (hInner : ∀ line ∈ read, ∀ added ∈ inner line, added.settled = added ∧ added.text ≠ [])
    (hEmpty : ∀ line ∈ read, line.settled.text = [] → inner line = []) :
    settle (read.flatMap fun line => line :: inner line) =
      (settle read).flatMap fun line => line :: inner line := by
  induction read with
  | nil => rfl
  | cons line read ih =>
      obtain ⟨hLine, hSettled⟩ := List.forall_mem_cons.mp hSettled
      obtain ⟨hLineInner, hInner⟩ := List.forall_mem_cons.mp hInner
      obtain ⟨hLineEmpty, hEmpty⟩ := List.forall_mem_cons.mp hEmpty
      rw [List.flatMap_cons, List.cons_append, settle_cons, settle_append hLineInner,
        ih hSettled hInner hEmpty, settle_cons]
      by_cases hText : line.settled.text = []
      · rw [hLineEmpty hText]
        cases hRead : settle read with
        | nil => simp [hText]
        | cons next later => simp [hText, hLine, hLineEmpty hText]
      · simp [hText, hLine]

theorem exists_withoutReturns (text : List Char) :
    ∃ returns, Blank returns ∧ text = withoutReturns text ++ returns := by
  refine ⟨text.rtakeWhile (· == '\r'), fun c hc => ?_, List.rdropWhile_append_rtakeWhile.symm⟩
  obtain rfl : c = '\r' := by simpa using List.mem_rtakeWhile_imp hc
  decide

theorem classify_withoutReturns : classify stack (withoutReturns text) = classify stack text := by
  obtain ⟨returns, hReturns, hText⟩ := exists_withoutReturns text
  conv_rhs => rw [hText, classify_append hReturns]

theorem classify_of_blank (h : Blank text) : classify stack text = (.other, stack) := by
  rw [← List.nil_append text, classify_append h]
  cases stack <;> rfl

/-- A line of carriage returns is neither an attribute nor anything else. -/
theorem Fits.kind_of_settled (h : Fits line) (hEmpty : line.settled.text = []) :
    line.kind = .other := by
  obtain ⟨stack, hKind⟩ := h
  rw [← hKind, ← classify_withoutReturns]
  change (classify stack line.settled.text).1 = _
  rw [hEmpty, classify_of_blank blank_nil]

theorem Fits.not_blank (h : Fits line) (hKind : line.kind ≠ .other) : ¬Blank line.text := by
  obtain ⟨stack, hLine⟩ := h
  intro hBlank
  rw [classify_of_blank hBlank] at hLine
  exact hKind hLine.symm

/-- No carriage return is taken off what ends with other characters. -/
theorem withoutReturns_append {first last : List Char} (hLast : last ≠ []) (h : '\r' ∉ last) :
    withoutReturns (first ++ last) = first ++ last := by
  refine List.rdropWhile_eq_self_iff.mpr fun _ hReturn => h ?_
  rw [List.getLast_append_of_ne_nil _ hLast] at hReturn
  have : last.getLast hLast = '\r' := by simpa using hReturn
  exact this ▸ List.getLast_mem hLast

/-- What is more than carriage returns is not dropped. -/
theorem mem_settle (hFits : Fits line) (hKind : line.kind ≠ .other) (h : line ∈ read) :
    line.settled ∈ settle read := by
  obtain ⟨dropped, hRead, hDropped⟩ := exists_dropped read
  have hMem : line.settled ∈ settle read ++ dropped := hRead ▸ List.mem_map_of_mem h
  rcases List.mem_append.mp hMem with hKept | hGone
  · exact hKept
  · exact absurd (hFits.kind_of_settled (hDropped _ hGone)) hKind

theorem exists_of_mem_settle (h : line ∈ settle read) : ∃ origin ∈ read, line = origin.settled := by
  obtain ⟨dropped, hRead, -⟩ := exists_dropped read
  have hMem : line ∈ read.map Line.settled := by
    rw [hRead]
    exact List.mem_append_left _ h
  obtain ⟨origin, hOrigin, rfl⟩ := List.mem_map.mp hMem
  exact ⟨origin, hOrigin, rfl⟩

/-- What stands behind a line that is not dropped, and what of it is dropped. -/
theorem settle_split {before after : List Line} (hFits : Fits line) (hKind : line.kind ≠ .other)
    (h : read = before ++ line :: after) : ∃ later dropped,
      settle read = before.map Line.settled ++ line.settled :: later ∧
      after.map Line.settled = later ++ dropped := by
  obtain ⟨dropped, hRead, hDropped⟩ := exists_dropped read
  rw [h, List.map_append, List.map_cons, ← h] at hRead
  rcases List.append_eq_append_iff.mp hRead with ⟨inner, hSettle, hLater⟩ | ⟨inner, -, hGone⟩
  · cases inner with
    | nil =>
        have hGone : line.settled ∈ dropped := by
          rw [List.nil_append] at hLater
          simp [← hLater]
        exact absurd (hFits.kind_of_settled (hDropped _ hGone)) hKind
    | cons next later =>
        obtain ⟨rfl, hAfter⟩ : line.settled = next ∧ after.map Line.settled = later ++ dropped := by
          simpa using hLater
        exact ⟨later, dropped, hSettle, hAfter⟩
  · have hGone : line.settled ∈ dropped := by simp [hGone]
    exact absurd (hFits.kind_of_settled (hDropped _ hGone)) hKind

end ServiceBroker.Definition
