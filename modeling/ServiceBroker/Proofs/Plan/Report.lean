import Mathlib.Data.List.Forall2
import ServiceBroker.Plan
import ServiceBroker.Proofs.Definition.Line
import ServiceBroker.Proofs.Text.Finding

/-! The deletions that a plan reports by address. A report takes a line of its own, and may be
spread over several lines if these end within its blanks. What is found from left to right holds the
address of every line that reports one. -/

namespace ServiceBroker.DeletionGuard

open ServiceBroker.Text ServiceBroker.Definition

variable {plan text report address after : List Char}

/-- The report that what stands at an address is deleted or replaced, with blanks around. -/
def Report (report address : List Char) : Prop :=
  ∃ lead gap between phrase tail, Blank lead ∧ Blank gap ∧ gap ≠ [] ∧ Blank between ∧
    between ≠ [] ∧ Blank tail ∧ address ≠ [] ∧ (∀ c ∈ address, isBlank c = false) ∧
    phrase ∈ phrases ∧
    report = lead ++ ('#' :: (gap ++ (address ++ (between ++ (phrase ++ tail)))))

/-- The text is at the end of a line. -/
def AtLineEnd (text : List Char) : Prop :=
  text = [] ∨ ∃ rest, text = '\n' :: rest

/-- A report has five words, and the second one is the address. -/
theorem Report.exists_words (reports : Report report address) :
    ∃ phrase, words report = ['#'] :: address :: phrase ∧ phrase.length = 3 := by
  obtain ⟨lead, gap, between, phrase, tail, hLead, hGap, gapped, hBetween, parted, hTail, hNonempty,
    hAddress, hPhrase, rfl⟩ := reports
  have hWords : words (['#'] ++ (gap ++ (address ++ (between ++ (phrase ++ tail))))) =
      ['#'] :: address :: words phrase := by
    rw [words_gap gapped hGap, words_gap parted hBetween, words_tail hTail,
      words_word (by simp) (List.forall_mem_singleton.mpr (by decide)),
      words_word hNonempty hAddress]
    rfl
  refine ⟨words phrase, ?_, ?_⟩
  · rw [words_lead hLead]
    exact hWords
  · simp only [phrases, List.mem_cons, List.not_mem_nil, or_false] at hPhrase
    rcases hPhrase with rfl | rfl
    · decide
    · decide

theorem Report.ne_nil (reports : Report report address) : report ≠ [] := by
  rintro rfl
  obtain ⟨phrase, hWords, -⟩ := reports.exists_words
  rw [words_nil] at hWords
  cases hWords

/-- Up to the end of a line there are blanks only if the text is blank up to the last line end among
them. -/
theorem exists_fromLastLineEnd (h : endsLine text = true) :
    ∃ tail, Blank tail ∧ text = tail ++ fromLastLineEnd text ∧
      AtLineEnd (fromLastLineEnd text) := by
  have hBlank : Blank (text.takeWhile isBlank) := List.all_eq_true.mp List.all_takeWhile
  have hText : text.takeWhile isBlank ++ text.dropWhile isBlank = text :=
    List.takeWhile_append_dropWhile
  by_cases hWhole : (text.takeWhile isBlank).length = text.length
  · have hNone : fromLastLineEnd text = [] := if_pos hWhole
    have hAll : text.takeWhile isBlank = text :=
      (List.takeWhile_prefix isBlank).eq_of_length hWhole
    exact ⟨text, hAll ▸ hBlank, by simp [hNone], .inl hNone⟩
  · have hMember : '\n' ∈ (text.takeWhile isBlank).reverse := by
      simpa [endsLine, hWhole] using h
    obtain ⟨last, first, hReverse, hLast⟩ := List.eq_append_cons_of_mem hMember
    have hBlanks : text.takeWhile isBlank = first.reverse ++ '\n' :: last.reverse := by
      rw [← List.reverse_reverse (text.takeWhile isBlank), hReverse]
      simp
    have hTake : (text.takeWhile isBlank).reverse.takeWhile (· != '\n') = last := by
      rw [hReverse]
      exact (takeWhile_append_stop
        (fun c hc => by simpa using fun same : c = '\n' => hLast (same ▸ hc)) (by simp)).1
    have hSplit : text = first.reverse ++ '\n' :: (last.reverse ++ text.dropWhile isBlank) := by
      rw [hBlanks] at hText
      simpa using hText.symm
    have hLength : (text.takeWhile isBlank).length - 1 - last.length = first.reverse.length := by
      rw [hBlanks]
      simp
    have hRest : fromLastLineEnd text = '\n' :: (last.reverse ++ text.dropWhile isBlank) := by
      simp only [fromLastLineEnd, if_neg hWhole, hTake, hLength]
      exact (congrArg _ hSplit).trans List.drop_left
    refine ⟨first.reverse, fun c hc => hBlank c ?_, hRest ▸ hSplit, .inr ⟨_, hRest⟩⟩
    rw [hBlanks]
    exact List.mem_append_left _ hc

theorem endsLine_append {tail : List Char} (hTail : Blank tail) (hAfter : AtLineEnd after) :
    endsLine (tail ++ after) = true := by
  rcases hAfter with rfl | ⟨rest, rfl⟩
  · have hTake : (tail ++ []).takeWhile isBlank = tail := by
      rw [List.takeWhile_append_of_pos hTail, List.takeWhile_nil, List.append_nil]
    rw [List.append_nil] at hTake ⊢
    simp [endsLine, hTake]
  · have hTake : (tail ++ '\n' :: rest).takeWhile isBlank =
        tail ++ '\n' :: rest.takeWhile isBlank := by
      rw [List.takeWhile_append_of_pos hTail, List.takeWhile_cons_of_pos (by decide)]
    simp [endsLine, hTake]

theorem report?_eq_some_iff : report? text = some (address, after) ↔
    ∃ behind addressed worded phrased, trimLeft text = '#' :: behind ∧
      afterBlanks? behind = some addressed ∧
      address = addressed.takeWhile (fun c => !isBlank c) ∧ address ≠ [] ∧
      afterBlanks? (addressed.drop address.length) = some worded ∧
      phrases.findSome? (after? · worded) = some phrased ∧ endsLine phrased = true ∧
      after = fromLastLineEnd phrased := by
  constructor
  · intro h
    unfold report? at h
    split at h
    · next behind hMark =>
        simp only [Option.bind_eq_bind, Option.bind_eq_some_iff] at h
        obtain ⟨addressed, hAddressed, h⟩ := h
        split at h
        · cases h
        · next hAddress =>
            obtain ⟨worded, hWorded, h⟩ := Option.bind_eq_some_iff.mp h
            obtain ⟨phrased, hPhrased, h⟩ := Option.bind_eq_some_iff.mp h
            split at h
            · next hEnds =>
                cases h
                exact ⟨behind, addressed, worded, phrased, hMark, hAddressed, rfl,
                  by simpa using hAddress, hWorded, hPhrased, hEnds, rfl⟩
            · cases h
    · cases h
  · rintro ⟨behind, addressed, worded, phrased, hMark, hAddressed, rfl, hAddress, hWorded, hPhrased,
      hEnds, rfl⟩
    simpa [report?, hMark, hAddressed, hWorded, hPhrased, hEnds] using hAddress

/-- What is read at the beginning of a text is a report, up to the end of a line. -/
theorem exists_of_report? (h : report? text = some (address, after)) :
    ∃ report, Report report address ∧ AtLineEnd after ∧ text = report ++ after := by
  obtain ⟨behind, addressed, worded, phrased, hMark, hAddressed, hAddress, hNonempty, hWorded,
    hPhrased, hEnds, hAfter⟩ := report?_eq_some_iff.mp h
  obtain ⟨lead, hLead, hText⟩ := exists_trimLeft text
  obtain ⟨-, gap, gapped, hGap, rfl⟩ := afterBlanks?_eq_some_iff.mp hAddressed
  obtain ⟨-, between, parted, hBetween, hDrop⟩ := afterBlanks?_eq_some_iff.mp hWorded
  obtain ⟨phrase, hKnown, hPhrase⟩ := List.exists_of_findSome?_eq_some hPhrased
  obtain ⟨tail, hTail, hBehind, hEnd⟩ := exists_fromLastLineEnd hEnds
  rw [← hAfter] at hBehind hEnd
  have hBare (c : Char) (hc : c ∈ address) : isBlank c = false := by
    have := List.all_eq_true.mp List.all_takeWhile c (hAddress ▸ hc)
    simpa using this
  have hSplit : addressed = address ++ addressed.drop address.length := by
    obtain ⟨rest, hRest⟩ := List.takeWhile_prefix (l := addressed) fun c => !isBlank c
    rw [← hAddress] at hRest
    rw [← hRest, List.drop_left]
  refine ⟨_, ⟨lead, gap, between, phrase, tail, hLead, hGap, gapped, hBetween, parted, hTail,
    hNonempty, hBare, hKnown, rfl⟩, hEnd, ?_⟩
  calc text = lead ++ '#' :: (gap ++ addressed) := by rw [hText, hMark]
    _ = lead ++ '#' :: (gap ++ (address ++ (between ++ (phrase ++ (tail ++ after))))) := by
        rw [hSplit, hDrop, after?_eq_some_iff.mp hPhrase, hBehind]
    _ = _ := by simp only [List.append_assoc, List.cons_append]

/-- Every report up to the end of a line is read. -/
theorem exists_report? (reports : Report report address) (hAfter : AtLineEnd after) :
    ∃ rest, report? (report ++ after) = some (address, rest) := by
  obtain ⟨lead, gap, between, phrase, tail, hLead, hGap, gapped, hBetween, parted, hTail, hNonempty,
    hAddress, hPhrase, rfl⟩ := reports
  have hTake : (address ++ (between ++ (phrase ++ (tail ++ after)))).takeWhile (!isBlank ·) =
      address := by
    refine (takeWhile_append_stop (fun c hc => by simp [hAddress c hc]) ?_).1
    obtain ⟨c, between, rfl⟩ := List.exists_cons_of_ne_nil parted
    simpa using hBetween c (by simp)
  have hFlush : Flush (address ++ (between ++ (phrase ++ (tail ++ after)))) := by
    obtain ⟨c, address, rfl⟩ := List.exists_cons_of_ne_nil hNonempty
    exact flush_cons.mpr (hAddress c (by simp))
  have hWord : Flush (phrase ++ (tail ++ after)) ∧
      phrases.findSome? (after? · (phrase ++ (tail ++ after))) = some (tail ++ after) := by
    simp only [phrases, List.mem_cons, List.not_mem_nil, or_false] at hPhrase
    rcases hPhrase with rfl | rfl
    · exact ⟨flush_cons.mpr (by decide), rfl⟩
    · exact ⟨flush_cons.mpr (by decide), rfl⟩
  refine ⟨_, report?_eq_some_iff.mpr ⟨_, _, _, _, ?_, afterBlanks?_eq_some_iff.mpr
    ⟨hFlush, gap, gapped, hGap, rfl⟩, hTake.symm, hNonempty, ?_, hWord.2,
    endsLine_append hTail hAfter, rfl⟩⟩
  · simp only [List.append_assoc, List.cons_append]
    exact trimLeft_append hLead (flush_cons.mpr (by decide))
  · rw [List.drop_left]
    exact afterBlanks?_eq_some_iff.mpr ⟨hWord.1, between, parted, hBetween, rfl⟩

theorem report?_consumes : Consumes report? := by
  intro text address after h
  obtain ⟨report, reports, -, rfl⟩ := exists_of_report? h
  exact ⟨report, reports.ne_nil, rfl⟩

theorem reportedFrom_cons (fresh : Bool) (c : Char) (text : List Char) :
    reportedFrom 0 fresh (c :: text) =
      match if fresh then report? (c :: text) else none with
      | some (address, after) =>
        address :: reportedFrom (text.length - after.length) (c == '\n') text
      | none => reportedFrom 0 (c == '\n') text := by
  cases fresh <;> rfl

theorem reportedFrom_eq_findFrom (skip : Nat) (fresh : Bool) (text : List Char) :
    reportedFrom skip fresh text = findFrom report? skip fresh text := by
  refine eq_findFrom (fun _ _ => rfl) (fun _ _ _ _ => rfl) (fun fresh c rest => ?_) skip fresh text
  rw [reportedFrom_cons]
  cases (if fresh then report? (c :: rest) else none) <;> rfl

/-- Nothing is reported exactly if no report begins at the beginning of a line and goes up to the
end of one. -/
theorem reported_eq_nil_iff : reported plan = [] ↔
    ∀ before report address after, plan = before ++ (report ++ after) →
      beginsLine true before = true → AtLineEnd after → ¬Report report address := by
  have hFinds :
      Finds (fun consumed value after => report? (consumed ++ after) = some (value, after)) true
        plan (findFrom report? 0 true plan) :=
    finds_findFrom report?_consumes (fun _ _ _ => Iff.rfl) plan
  rw [reported, reportedFrom_eq_findFrom]
  constructor
  · intro hNone before report address after hPlan hBegins hAfter reports
    rw [hNone] at hFinds
    cases hFinds with
    | nothing clear =>
        obtain ⟨rest, hRead⟩ := exists_report? reports hAfter
        obtain ⟨consumed, hConsumed, hText⟩ := report?_consumes hRead
        refine clear hPlan ?_ hBegins ((List.append_nil _).trans hText) (hText ▸ hRead)
        rw [hText]
        exact List.append_ne_nil_of_left_ne_nil hConsumed rest
  · intro hNone
    generalize findFrom report? 0 true plan = found at hFinds
    cases hFinds with
    | nothing clear => rfl
    | next clear begins fits later =>
        obtain ⟨report, reports, hAfter, hText⟩ := exists_of_report? fits
        exact (hNone _ _ _ _ (congrArg _ hText) begins hAfter reports).elim

/-- The address that a line reports. -/
def lineAddress? (line : List Char) : Option (List Char) :=
  (report? line).map Prod.fst

theorem lineAddress?_eq_some_iff {line : List Char} (single : '\n' ∉ line) :
    lineAddress? line = some address ↔ Report line address := by
  constructor
  · intro h
    obtain ⟨⟨found, after⟩, hRead, rfl⟩ := Option.map_eq_some_iff.mp h
    obtain ⟨report, reports, hAfter, rfl⟩ := exists_of_report? hRead
    rcases hAfter with rfl | ⟨rest, rfl⟩
    · simpa using reports
    · simp at single
  · intro reports
    obtain ⟨rest, hRead⟩ := exists_report? reports (.inl rfl)
    rw [List.append_nil] at hRead
    simp [lineAddress?, hRead]

/-- Lines with no more words together than a report has cannot report more than one address, and if
they report one, that is all they say. -/
theorem filterMap_lineAddress? {lines : List (List Char)} (single : ∀ line ∈ lines, '\n' ∉ line)
    (few : (lines.flatMap words).length ≤ 5) :
    lines.filterMap lineAddress? = [] ∨ ∃ line address, lines.filterMap lineAddress? = [address] ∧
      Report line address ∧ lines.flatMap words = words line := by
  induction lines with
  | nil => exact .inl rfl
  | cons line lines ih =>
      obtain ⟨hSingle, hLater⟩ := List.forall_mem_cons.mp single
      rw [List.flatMap_cons, List.length_append] at few
      cases hLine : lineAddress? line with
      | none =>
          rw [List.filterMap_cons_none hLine]
          rcases ih hLater (by omega) with hNone | ⟨other, address, hOne, reports, hWords⟩
          · exact .inl hNone
          · obtain ⟨phrase, hOther, hPhrase⟩ := reports.exists_words
            have hEmpty : words line = [] := by
              rw [hWords, hOther] at few
              simp only [List.length_cons, hPhrase] at few
              exact List.length_eq_zero_iff.mp (by omega)
            refine .inr ⟨other, address, hOne, reports, ?_⟩
            rw [List.flatMap_cons, hEmpty, hWords]
            rfl
      | some address =>
          rw [List.filterMap_cons_some hLine]
          have reports := (lineAddress?_eq_some_iff hSingle).mp hLine
          obtain ⟨phrase, hFirst, hPhrase⟩ := reports.exists_words
          rw [hFirst] at few
          simp only [List.length_cons, hPhrase] at few
          have hNone : lines.flatMap words = [] := List.length_eq_zero_iff.mp (by omega)
          refine .inr ⟨line, address, ?_, reports, ?_⟩
          on_goal 2 => rw [List.flatMap_cons, hNone, List.append_nil]
          rcases ih hLater (by omega) with hLast | ⟨other, found, -, reports, hWords⟩
          · rw [hLast]
          · obtain ⟨phrase, hOther, -⟩ := reports.exists_words
            rw [hNone, hOther] at hWords
            cases hWords

/-- The lines of which a text holds all. If it begins within a line, that one is left out. -/
def linesFrom (fresh : Bool) (text : List Char) : List (List Char) :=
  if fresh then splitAt '\n' text else (splitAt '\n' text).tail

theorem lineAddress?_nil : lineAddress? [] = none :=
  rfl

/-- Of the lines that a report takes none reports anything else. -/
theorem Report.filterMap_sublist (reports : Report report address) :
    ((splitAt '\n' report).filterMap lineAddress?).Sublist [address] := by
  obtain ⟨phrase, hWords, hPhrase⟩ := reports.exists_words
  have few : ((splitAt '\n' report).flatMap words).length ≤ 5 := by
    rw [← words_eq_flatMap, hWords]
    simp [hPhrase]
  rcases filterMap_lineAddress? (fun _ => not_mem_of_mem_splitAt) few with
    hNone | ⟨line, found, hOne, hLine, hSame⟩
  · rw [hNone]
    exact List.nil_sublist _
  · obtain ⟨other, hFound, -⟩ := hLine.exists_words
    rw [← words_eq_flatMap, hWords, hFound] at hSame
    cases hSame
    rw [hOne]

/-- A character where no report begins takes nothing from what the lines report. -/
theorem filterMap_linesFrom_cons {fresh : Bool} {c : Char} {text : List Char}
    (hNone : fresh = true → report? (c :: text) = none) :
    (linesFrom fresh (c :: text)).filterMap lineAddress? =
      (linesFrom (c == '\n') text).filterMap lineAddress? := by
  by_cases hEnd : c = '\n'
  · subst hEnd
    have hPieces : splitAt '\n' ('\n' :: text) = [] :: splitAt '\n' text := by
      rw [splitAt, if_pos rfl]
    cases fresh with
    | false => simp [linesFrom, hPieces]
    | true =>
        rw [linesFrom, if_pos rfl, hPieces, List.filterMap_cons_none lineAddress?_nil]
        rfl
  · obtain ⟨piece, pieces, rest, hText, hPieces, rfl, hRest⟩ := exists_splitAt_cons hEnd text
    have hOther : (c == '\n') = false := by simpa using hEnd
    cases fresh with
    | false => simp [linesFrom, hText, hPieces, hOther]
    | true =>
        have hSingle : '\n' ∉ c :: piece :=
          not_mem_of_mem_splitAt (by rw [hPieces]; exact List.mem_cons_self)
        have hLine : lineAddress? (c :: piece) = none := by
          refine Option.eq_none_iff_forall_ne_some.mpr fun address h => ?_
          obtain ⟨after, hRead⟩ :=
            exists_report? ((lineAddress?_eq_some_iff hSingle).mp h) hRest
          rw [List.cons_append, hNone rfl] at hRead
          cases hRead
        simp [linesFrom, hText, hPieces, hOther, hLine]

/-- What lines report is found, in order. A report that is read may take several lines, but only one
of them can be a report by itself. -/
theorem sublist_findFrom (fresh : Bool) (text : List Char) :
    ((linesFrom fresh text).filterMap lineAddress?).Sublist (findFrom report? 0 fresh text) := by
  -- the reading goes on behind a report, so the induction is on the length
  induction hLength : text.length using Nat.strongRecOn generalizing fresh text with
  | ind n ih =>
      cases text with
      | nil => cases fresh <;> exact List.Sublist.slnil
      | cons c text =>
          have hShorter : text.length < n := by simp at hLength; omega
          by_cases hHere : fresh = true ∧ ∃ found, report? (c :: text) = some found
          · obtain ⟨rfl, ⟨address, after⟩, hRead⟩ := hHere
            obtain ⟨report, reports, hAfter, hText⟩ := exists_of_report? hRead
            have hReport : report ≠ [] := reports.ne_nil
            have hRest : after.length < n := by
              have := congrArg List.length hText
              have := List.length_pos_iff.mpr hReport
              simp only [List.length_append] at *
              omega
            rw [hText] at hRead ⊢
            rw [findFrom_of_match hReport hRead]
            have hLater := ih after.length hRest (beginsLine true report) after rfl
            rcases hAfter with rfl | ⟨rest, rfl⟩
            · rw [List.append_nil]
              exact reports.filterMap_sublist.trans (List.singleton_sublist.mpr List.mem_cons_self)
            · have hLines : linesFrom true (report ++ '\n' :: rest) =
                  splitAt '\n' report ++ splitAt '\n' rest := splitAt_append_cons report rest
              have hKept : (splitAt '\n' rest).Sublist
                  (linesFrom (beginsLine true report) ('\n' :: rest)) := by
                rw [linesFrom, splitAt, if_pos rfl]
                split
                · exact List.sublist_cons_self _ _
                · exact List.Sublist.refl _
              rw [hLines, List.filterMap_append]
              exact reports.filterMap_sublist.append ((hKept.filterMap _).trans hLater)
          · have hNone : fresh = true → report? (c :: text) = none := fun hFresh =>
              Option.eq_none_iff_forall_ne_some.mpr fun found hRead => hHere ⟨hFresh, found, hRead⟩
            rw [findFrom_cons hNone, filterMap_linesFrom_cons hNone]
            exact ih text.length hShorter (c == '\n') text rfl

/-- The addresses that any of the lines report are reported, in order. -/
theorem sublist_reported {picked found : List (List Char)}
    (hPicked : picked.Sublist (splitAt '\n' plan))
    (hFound : List.Forall₂ Report picked found) : found.Sublist (reported plan) := by
  have hAll : picked.filterMap lineAddress? = found := by
    induction hFound with
    | nil => rfl
    | @cons line address picked found reports later ih =>
        have hSingle : '\n' ∉ line := not_mem_of_mem_splitAt (hPicked.subset List.mem_cons_self)
        rw [List.filterMap_cons_some ((lineAddress?_eq_some_iff hSingle).mpr reports),
          ih ((List.sublist_cons_self _ _).trans hPicked)]
  have hLines := sublist_findFrom true plan
  rw [← hAll, reported, reportedFrom_eq_findFrom]
  exact (hPicked.filterMap lineAddress?).trans hLines

end ServiceBroker.DeletionGuard
