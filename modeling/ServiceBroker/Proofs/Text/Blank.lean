import ServiceBroker.Definition.Line
import ServiceBroker.Proofs.Text.Digits
import ServiceBroker.Proofs.Text.Lines

/-! Blanks in a text: what is left when those at its beginning are taken off, and the words between
them. The words do not depend on how a text is cut into lines. -/

namespace ServiceBroker.Text

variable {c : Char} {text rest lead gap tail word first second : List Char}

/-- Nothing but blanks. -/
def Blank (text : List Char) : Prop :=
  ∀ c ∈ text, isBlank c = true

/-- The text begins without a blank. -/
def Flush (text : List Char) : Prop :=
  ∀ c, text.head? = some c → isBlank c = false

@[simp]
theorem blank_nil : Blank [] := by simp [Blank]

@[simp]
theorem blank_cons : Blank (c :: text) ↔ isBlank c = true ∧ Blank text := by simp [Blank]

@[simp]
theorem blank_append : Blank (first ++ second) ↔ Blank first ∧ Blank second :=
  List.forall_mem_append

@[simp]
theorem flush_nil : Flush [] := by simp [Flush]

@[simp]
theorem flush_cons : Flush (c :: text) ↔ isBlank c = false := by simp [Flush]

theorem isAllBlank_iff : Definition.isAllBlank text = true ↔ Blank text := by
  simp [Definition.isAllBlank, Blank]

theorem trimLeft_append (hLead : Blank lead) (hRest : Flush rest) :
    trimLeft (lead ++ rest) = rest :=
  (takeWhile_append_stop hLead hRest).2

theorem trimLeft_of_flush (h : Flush text) : trimLeft text = text :=
  trimLeft_append blank_nil h

theorem flush_trimLeft (text : List Char) : Flush (trimLeft text) := by
  intro c hHead
  have := List.head?_dropWhile_not isBlank text
  rw [trimLeft] at hHead
  rw [hHead] at this
  simpa using this

theorem exists_trimLeft (text : List Char) : ∃ lead, Blank lead ∧ text = lead ++ trimLeft text :=
  ⟨text.takeWhile isBlank, List.all_eq_true.mp List.all_takeWhile,
    List.takeWhile_append_dropWhile.symm⟩

theorem trimLeft_eq_iff :
    trimLeft text = rest ↔ Flush rest ∧ ∃ lead, Blank lead ∧ text = lead ++ rest := by
  constructor
  · rintro rfl
    exact ⟨flush_trimLeft text, exists_trimLeft text⟩
  · rintro ⟨hRest, lead, hLead, rfl⟩
    exact trimLeft_append hLead hRest

theorem trimLeft_of_blank (h : Blank text) : trimLeft text = [] := by
  have := trimLeft_append h flush_nil
  rwa [List.append_nil] at this

/-- A character that is no blank stands in front of the blanks at the end. -/
theorem exists_of_append_blank (hc : isBlank c = false) (hTail : Blank tail)
    (h : text ++ tail = first ++ c :: rest) :
    ∃ inner, rest = inner ++ tail ∧ text = first ++ c :: inner := by
  rcases List.append_eq_append_iff.mp h with ⟨inner, -, hInner⟩ | ⟨inner, hText, hInner⟩
  · have := hTail c (by simp [hInner])
    simp [hc] at this
  · cases inner with
    | nil =>
        have := hTail c (by rw [List.nil_append] at hInner; simp [← hInner])
        simp [hc] at this
    | cons d inner =>
        obtain ⟨rfl, rfl⟩ : c = d ∧ rest = inner ++ tail := by simpa using hInner
        exact ⟨inner, rfl, hText⟩

theorem trimLeft_lead (hLead : Blank lead) (text : List Char) :
    trimLeft (lead ++ text) = trimLeft text := by
  obtain ⟨gap, hGap, hText⟩ := exists_trimLeft text
  have hFlush := flush_trimLeft text
  rw [hText, ← List.append_assoc, trimLeft_append (blank_append.mpr ⟨hLead, hGap⟩) hFlush,
    trimLeft_append hGap hFlush]

/-- A text is blank, or the blanks at its end stay when those at its beginning are taken off. -/
theorem trimLeft_append_blank (hTail : Blank tail) (text : List Char) :
    (trimLeft text ≠ [] ∧ trimLeft (text ++ tail) = trimLeft text ++ tail) ∨
      trimLeft text = [] ∧ trimLeft (text ++ tail) = [] := by
  obtain ⟨lead, hLead, hText⟩ := exists_trimLeft text
  cases hRest : trimLeft text with
  | nil =>
      rw [hRest, List.append_nil] at hText
      rw [hText]
      exact .inr ⟨rfl, trimLeft_of_blank (blank_append.mpr ⟨hLead, hTail⟩)⟩
  | cons c rest =>
      have hc : isBlank c = false := by
        have := flush_trimLeft text
        rwa [hRest, flush_cons] at this
      rw [hRest] at hText
      rw [hText, List.append_assoc]
      exact .inl ⟨by simp, trimLeft_append hLead (flush_cons.mpr hc)⟩

theorem head?_trimLeft_append (hTail : Blank tail) (text : List Char) :
    (trimLeft (text ++ tail)).head? = (trimLeft text).head? := by
  rcases trimLeft_append_blank hTail text with ⟨hSome, h⟩ | ⟨hNone, h⟩
  · rw [h, List.head?_append, Option.or_of_isSome (by simpa using hSome)]
  · rw [h, hNone]

theorem trim_append (hTail : Blank tail) (text : List Char) : trim (text ++ tail) = trim text := by
  rcases trimLeft_append_blank hTail text with ⟨-, h⟩ | ⟨hNone, h⟩
  · have hReverse : Blank tail.reverse := fun c hc => hTail c (List.mem_reverse.mp hc)
    have := trimLeft_lead hReverse (trimLeft text).reverse
    rw [trim, trim, h, trimRight, trimRight, List.reverse_append]
    exact congrArg List.reverse this
  · rw [trim, trim, h, hNone]

theorem trim_lead (hLead : Blank lead) (text : List Char) : trim (lead ++ text) = trim text := by
  rw [trim, trim, trimLeft_lead hLead]

theorem exists_trim (text : List Char) :
    ∃ lead tail, Blank lead ∧ Blank tail ∧ text = lead ++ (trim text ++ tail) := by
  obtain ⟨lead, hLead, hText⟩ := exists_trimLeft text
  obtain ⟨tail, hTail, hReverse⟩ := exists_trimLeft (trimLeft text).reverse
  refine ⟨lead, tail.reverse, hLead, fun c hc => hTail c (List.mem_reverse.mp hc), ?_⟩
  have hRest : trimLeft text = trim text ++ tail.reverse := by
    rw [← List.reverse_reverse (trimLeft text), hReverse, List.reverse_append]
    rfl
  rw [← hRest]
  exact hText

theorem trim_eq_self (h : ∀ c ∈ text, isBlank c = false) : trim text = text := by
  have hFlush {text : List Char} (h : ∀ c ∈ text, isBlank c = false) : trimLeft text = text :=
    trimLeft_of_flush fun c hHead => h c (List.mem_of_head? hHead)
  rw [trim, hFlush h, trimRight]
  change (trimLeft text.reverse).reverse = text
  rw [hFlush (by simpa using h), List.reverse_reverse]

theorem afterBlanks?_eq_some_iff : Definition.afterBlanks? text = some rest ↔
    Flush rest ∧ ∃ gap, gap ≠ [] ∧ Blank gap ∧ text = gap ++ rest := by
  have hAny : text.head?.any isBlank = true ↔ ∃ c text', text = c :: text' ∧ isBlank c = true := by
    cases text <;> simp
  rw [Definition.afterBlanks?]
  split
  · next h =>
      obtain ⟨c, text, rfl, hc⟩ := hAny.mp h
      rw [Option.some_inj, trimLeft_eq_iff]
      refine and_congr_right fun hRest => exists_congr fun gap => ?_
      constructor
      · rintro ⟨hGap, hText⟩
        refine ⟨?_, hGap, hText⟩
        rintro rfl
        obtain rfl : c :: text = rest := hText
        simp [hc] at hRest
      · exact And.right
  · next h =>
      refine iff_of_false (by simp) ?_
      rintro ⟨-, gap, hNonempty, hGap, rfl⟩
      obtain ⟨c, gap, rfl⟩ := List.exists_cons_of_ne_nil hNonempty
      exact h (hAny.mpr ⟨c, gap ++ rest, rfl, hGap c (by simp)⟩)

/-- The parts of a text between blanks. -/
def words (text : List Char) : List (List Char) :=
  (text.splitOnP isBlank).filter (!·.isEmpty)

theorem words_append_cons (h : isBlank c = true) :
    words (first ++ c :: second) = words first ++ words second := by
  rw [words, List.splitOnP_append_cons _ _ h, List.filter_append, words, words]

@[simp]
theorem words_nil : words [] = [] := by
  simp [words]

theorem words_word (hNonempty : word ≠ []) (h : ∀ c ∈ word, isBlank c = false) :
    words word = [word] := by
  rw [words, List.splitOnP_eq_singleton (by simpa using h)]
  simp [hNonempty]

theorem words_lead (h : Blank lead) : words (lead ++ text) = words text := by
  induction lead with
  | nil => rfl
  | cons c lead ih =>
      obtain ⟨hc, hLead⟩ := blank_cons.mp h
      rw [List.cons_append, ← List.nil_append (c :: _), words_append_cons hc, words_nil, ih hLead]
      rfl

/-- Blanks between two texts keep their words apart. -/
theorem words_gap (hNonempty : gap ≠ []) (hGap : Blank gap) :
    words (first ++ (gap ++ second)) = words first ++ words second := by
  obtain ⟨c, gap, rfl⟩ := List.exists_cons_of_ne_nil hNonempty
  obtain ⟨hc, hGap⟩ := blank_cons.mp hGap
  rw [List.cons_append, words_append_cons hc, words_lead hGap]

theorem words_tail (h : Blank tail) : words (text ++ tail) = words text := by
  by_cases hTail : tail = []
  · rw [hTail, List.append_nil]
  · have hWords : words (text ++ (tail ++ [])) = words text ++ words [] := words_gap hTail h
    rwa [List.append_nil, words_nil, List.append_nil] at hWords

/-- The words of a text are those of its lines. -/
theorem words_eq_flatMap (text : List Char) : words text = (splitAt '\n' text).flatMap words := by
  induction hLength : text.length using Nat.strongRecOn generalizing text with
  | ind n ih =>
      rcases splitAt_cases '\n' text with ⟨-, hOne⟩ | ⟨first, rest, rfl, -, hPieces⟩
      · simp [hOne]
      · rw [words_append_cons (by decide), hPieces, List.flatMap_cons,
          ih rest.length (by simp at hLength; omega) rest rfl]

end ServiceBroker.Text
