import Mathlib.Data.List.Induction
import ServiceBroker.Proofs.Plan.Report

/-! The number of deletions that a plan sums up, and what the guard makes of it. Only the first line
counts that sums up deletions, and there only the first count. -/

namespace ServiceBroker.DeletionGuard

open ServiceBroker.Text ServiceBroker.Definition

variable {plan text line before ds tail : List Char}

/-- Behind `before` the text says how many resources are deleted, in digits of some script. -/
def Counts (text before ds : List Char) : Prop :=
  ds ≠ [] ∧ (∀ c ∈ ds, isDecimal c = true) ∧
    ∃ after, text = before ++ (ds ++ (" to destroy".toList ++ after))

/-- The line sums up the plan, and behind `before` it says how many resources are deleted. -/
def Sums (line before ds : List Char) : Prop :=
  Counts line before ds ∧ ∃ lead between, Blank lead ∧ before = lead ++ ("Plan:".toList ++ between)

theorem not_isDecimal_blank : isDecimal ' ' = false ∧ isDecimal '\n' = false := by
  decide +kernel

theorem takeWhile_decimal (h : ∀ c ∈ ds, isDecimal c = true) (after : List Char) :
    (ds ++ (" to destroy".toList ++ after)).takeWhile isDecimal = ds :=
  (takeWhile_append_stop h (by simpa using not_isDecimal_blank.1)).1

/-- What is counted at the beginning of a text. -/
theorem counts_nil_iff : Counts text [] ds ↔
    ds = text.takeWhile isDecimal ∧ ds ≠ [] ∧
      (after? " to destroy".toList (text.drop ds.length)).isSome = true := by
  constructor
  · rintro ⟨hNonempty, hDigits, after, rfl⟩
    rw [List.nil_append]
    refine ⟨(takeWhile_decimal hDigits after).symm, hNonempty, ?_⟩
    rw [List.drop_left, after?_append]
    rfl
  · rintro ⟨hTake, hNonempty, hAfter⟩
    obtain ⟨after, hAfter⟩ := Option.isSome_iff_exists.mp hAfter
    refine ⟨hNonempty, List.all_eq_true.mp (hTake ▸ List.all_takeWhile), after, ?_⟩
    obtain ⟨rest, hRest⟩ := List.takeWhile_prefix (l := text) isDecimal
    rw [← hTake] at hRest
    rw [← hRest, List.drop_left] at hAfter
    rw [← hRest, after?_eq_some_iff.mp hAfter]
    rfl

theorem counts_cons_iff {c d : Char} :
    Counts (c :: text) (d :: before) ds ↔ c = d ∧ Counts text before ds := by
  simp only [Counts, List.cons_append, List.cons.injEq]
  constructor
  · rintro ⟨hNonempty, hDigits, after, rfl, hText⟩
    exact ⟨rfl, hNonempty, hDigits, after, hText⟩
  · rintro ⟨rfl, hNonempty, hDigits, after, hText⟩
    exact ⟨hNonempty, hDigits, after, rfl, hText⟩

theorem Counts.unique {other : List Char} (left : Counts text before ds)
    (right : Counts text before other) : ds = other := by
  obtain ⟨-, hDigits, after, rfl⟩ := left
  obtain ⟨-, hOther, later, hText⟩ := right
  rw [List.append_cancel_left_eq] at hText
  rw [← takeWhile_decimal hDigits after, hText, takeWhile_decimal hOther later]

/-- The first count on a line is read, if there is one. -/
theorem countOnLine?_cases (single : '\n' ∉ text) :
    (countOnLine? text = none ∧ ∀ before ds, ¬Counts text before ds) ∨
      ∃ before ds, countOnLine? text = some ds ∧ Counts text before ds ∧
        ∀ other digits, Counts text other digits → before.length ≤ other.length := by
  induction text with
  | nil =>
      refine .inl ⟨rfl, ?_⟩
      rintro before ds ⟨hNonempty, -, after, hText⟩
      simp [hNonempty] at hText
  | cons c rest ih =>
      obtain ⟨hEnd, hRest⟩ : c ≠ '\n' ∧ '\n' ∉ rest := by
        simpa [eq_comm] using single
      rw [countOnLine?, if_neg hEnd]
      dsimp only
      by_cases hHere : ∃ ds, Counts (c :: rest) [] ds
      · obtain ⟨ds, counts⟩ := hHere
        obtain ⟨hTake, hNonempty, hAfter⟩ := counts_nil_iff.mp counts
        have hSome : (!ds.isEmpty) = true := by simpa using hNonempty
        rw [← hTake, hSome, hAfter]
        exact .inr ⟨[], ds, rfl, counts, by simp⟩
      · have hNot : ¬(!((c :: rest).takeWhile isDecimal).isEmpty && (after? " to destroy".toList
            ((c :: rest).drop ((c :: rest).takeWhile isDecimal).length)).isSome) = true := by
          intro h
          obtain ⟨hNonempty, hAfter⟩ := Bool.and_eq_true_iff.mp h
          exact hHere ⟨_, counts_nil_iff.mpr ⟨rfl, by simpa using hNonempty, hAfter⟩⟩
        rw [if_neg hNot]
        rcases ih hRest with ⟨hNone, never⟩ | ⟨before, ds, hSome, counts, least⟩
        · refine .inl ⟨hNone, ?_⟩
          rintro (_ | ⟨d, before⟩) ds counts
          · exact hHere ⟨ds, counts⟩
          · exact never before ds (counts_cons_iff.mp counts).2
        · refine .inr ⟨c :: before, ds, hSome, counts_cons_iff.mpr ⟨rfl, counts⟩, ?_⟩
          rintro (_ | ⟨d, other⟩) digits found
          · exact (hHere ⟨digits, found⟩).elim
          · exact Nat.succ_le_succ (least other digits (counts_cons_iff.mp found).2)

/-- The end of a line does not change what is read at the beginning of it. -/
theorem after?_append_lineEnd {start : List Char} (single : '\n' ∉ start) (hTail : AtLineEnd tail) :
    after? start (text ++ tail) = (after? start text).map (· ++ tail) := by
  induction start generalizing text with
  | nil => rfl
  | cons c start ih =>
      obtain ⟨hEnd, hStart⟩ : c ≠ '\n' ∧ '\n' ∉ start := by
        simpa [eq_comm] using single
      cases text with
      | nil =>
          rcases hTail with rfl | ⟨rest, rfl⟩
          · rfl
          · simp [after?, hEnd]
      | cons d text =>
          by_cases hSame : c = d
          · simp [after?, hSame, ih hStart]
          · simp [after?, hSame]

theorem countOnLine?_append (single : '\n' ∉ text) (hTail : AtLineEnd tail) :
    countOnLine? (text ++ tail) = countOnLine? text := by
  induction text with
  | nil => rcases hTail with rfl | ⟨rest, rfl⟩ <;> rfl
  | cons c text ih =>
      obtain ⟨-, hText⟩ : c ≠ '\n' ∧ '\n' ∉ text := by
        simpa [eq_comm] using single
      have hStop : tail.takeWhile isDecimal = [] := by
        rcases hTail with rfl | ⟨rest, rfl⟩
        · rfl
        · rw [List.takeWhile_cons_of_neg (by simp [not_isDecimal_blank.2])]
      have hTake : (c :: text ++ tail).takeWhile isDecimal = (c :: text).takeWhile isDecimal := by
        rw [List.takeWhile_append, hStop]
        split
        · next hWhole =>
            rw [List.append_nil]
            exact ((List.takeWhile_prefix isDecimal).eq_of_length hWhole).symm
        · rfl
      have hDrop : (c :: text ++ tail).drop ((c :: text).takeWhile isDecimal).length =
          (c :: text).drop ((c :: text).takeWhile isDecimal).length ++ tail :=
        List.drop_append_of_le_length (List.takeWhile_prefix isDecimal).length_le
      rw [List.cons_append] at hTake hDrop ⊢
      rw [countOnLine?, countOnLine?, ih hText]
      have hPhrase (text : List Char) : after? " to destroy".toList (text ++ tail) =
          (after? " to destroy".toList text).map (· ++ tail) :=
        after?_append_lineEnd (by decide) hTail
      simp only [hTake, hDrop, hPhrase, Option.isSome_map]

/-- The count that a text begins with, once the blanks in front are passed over. -/
def headCount? (text : List Char) : Option (List Char) :=
  (after? "Plan:".toList (trimLeft text)).bind countOnLine?

theorem headCount?_append (single : '\n' ∉ line) (hTail : AtLineEnd tail) (inked : ¬Blank line) :
    headCount? (line ++ tail) = headCount? line := by
  obtain ⟨lead, hLead, hLine⟩ := exists_trimLeft line
  have hNonempty : trimLeft line ≠ [] := by
    intro hNone
    rw [hNone, List.append_nil] at hLine
    exact inked (hLine ▸ hLead)
  have hTrim : trimLeft (line ++ tail) = trimLeft line ++ tail := by
    refine trimLeft_eq_iff.mpr ⟨?_, lead, hLead, by rw [← List.append_assoc, ← hLine]⟩
    obtain ⟨c, rest, hRest⟩ := List.exists_cons_of_ne_nil hNonempty
    have hFlush := flush_trimLeft line
    rw [hRest] at hFlush ⊢
    exact hFlush
  rw [headCount?, headCount?, hTrim, after?_append_lineEnd (by decide) hTail]
  cases hAfter : after? "Plan:".toList (trimLeft line) with
  | none => rfl
  | some rest =>
      have hRest : '\n' ∉ rest := by
        intro member
        rw [after?_eq_some_iff.mp hAfter] at hLine
        exact single (hLine ▸ List.mem_append_right _ (List.mem_append_right _ member))
      exact countOnLine?_append hRest hTail

theorem headCount?_cons {c : Char} (h : isBlank c = true) :
    headCount? (c :: text) = headCount? text := by
  rw [headCount?, headCount?, trimLeft, List.dropWhile_cons_of_pos h, trimLeft]

theorem headCount?_of_blank (h : Blank line) : headCount? line = none := by
  have hTrim : trimLeft line = [] := by
    rw [← List.append_nil line]
    exact trimLeft_append h flush_nil
  rw [headCount?, hTrim]
  rfl

theorem headCount?_or (text : List Char) :
    (headCount? text).or (summaryFrom? true text) = summaryFrom? true text := by
  cases h : headCount? text with
  | none => rfl
  | some ds =>
      cases text with
      | nil => cases h
      | cons c rest =>
          rw [headCount?] at h
          simp only [summaryFrom?, if_true, h]
          rfl

theorem summaryFrom?_cons (fresh : Bool) (c : Char) (text : List Char) :
    summaryFrom? fresh (c :: text) =
      (if fresh then headCount? (c :: text) else none).or (summaryFrom? (c == '\n') text) := by
  cases fresh with
  | false => rfl
  | true =>
      simp only [summaryFrom?, if_true, headCount?]
      cases (after? "Plan:".toList (trimLeft (c :: text))).bind countOnLine? <;> rfl

/-- The lines of a plan are read one by one, although the reading may begin among the blanks before
a line. -/
theorem summaryFrom?_eq (fresh : Bool) (text : List Char) :
    summaryFrom? fresh text = (linesFrom fresh text).findSome? headCount? := by
  induction text generalizing fresh with
  | nil => cases fresh <;> rfl
  | cons c text ih =>
      rw [summaryFrom?_cons]
      by_cases hEnd : c = '\n'
      · subst hEnd
        have hPieces : splitAt '\n' ('\n' :: text) = [] :: splitAt '\n' text := by
          rw [splitAt, if_pos rfl]
        have hLines : summaryFrom? true text = (splitAt '\n' text).findSome? headCount? := ih true
        cases fresh with
        | false => simpa [linesFrom, hPieces] using hLines
        | true =>
            rw [if_pos rfl, headCount?_cons (by decide), beq_self_eq_true, headCount?_or, hLines,
              linesFrom, if_pos rfl, hPieces]
            rfl
      · obtain ⟨piece, pieces, tail, hText, hPieces, rfl, hTail⟩ := exists_splitAt_cons hEnd text
        have hOther : (c == '\n') = false := by simpa using hEnd
        have hLater : summaryFrom? false (piece ++ tail) = pieces.findSome? headCount? := by
          rw [ih, linesFrom, if_neg (by simp), hText, List.tail_cons]
        rw [hOther, hLater]
        cases fresh with
        | false => simp [linesFrom, hPieces]
        | true =>
            rw [if_pos rfl, linesFrom, if_pos rfl, hPieces, List.findSome?_cons]
            by_cases hBlank : Blank (c :: piece)
            · obtain ⟨hc, hPiece⟩ := blank_cons.mp hBlank
              have hLines : summaryFrom? true (piece ++ tail) = pieces.findSome? headCount? := by
                rw [ih, linesFrom, if_pos rfl, hText, List.findSome?_cons,
                  headCount?_of_blank hPiece]
              rw [headCount?_of_blank hBlank, headCount?_cons hc, ← hLines, headCount?_or]
            · have hSingle : '\n' ∉ c :: piece :=
                not_mem_of_mem_splitAt (by rw [hPieces]; exact List.mem_cons_self)
              rw [← List.cons_append, headCount?_append hSingle hTail hBlank]
              cases headCount? (c :: piece) <;> rfl

theorem trimLeft_plan {lead rest : List Char} (h : Blank lead) :
    trimLeft (lead ++ ("Plan:".toList ++ rest)) = "Plan:".toList ++ rest :=
  trimLeft_append h (flush_cons.mpr (by decide))

/-- Where a line sums up the plan, it counts behind the keyword. -/
theorem sums_append_iff {lead rest : List Char} (hLead : Blank lead) :
    Sums (lead ++ ("Plan:".toList ++ rest)) before ds ↔
      ∃ between, before = lead ++ ("Plan:".toList ++ between) ∧ Counts rest between ds := by
  constructor
  · rintro ⟨⟨hNonempty, hDigits, after, hText⟩, other, between, hOther, rfl⟩
    rw [List.append_assoc, List.append_assoc] at hText
    have hRest := congrArg trimLeft hText
    rw [trimLeft_plan hLead, trimLeft_plan hOther, List.append_cancel_left_eq] at hRest
    rw [hRest, List.append_cancel_right_eq] at hText
    exact ⟨between, by rw [hText], hNonempty, hDigits, after, hRest⟩
  · rintro ⟨between, rfl, hNonempty, hDigits, after, rfl⟩
    exact ⟨⟨hNonempty, hDigits, after, by simp only [List.append_assoc]⟩, lead, between, hLead, rfl⟩

/-- The count on a line that sums up the plan is read, if there is one. -/
theorem headCount?_cases (single : '\n' ∉ line) :
    (headCount? line = none ∧ ∀ before ds, ¬Sums line before ds) ∨
      ∃ before ds, headCount? line = some ds ∧ Sums line before ds ∧
        ∀ other digits, Sums line other digits → before.length ≤ other.length := by
  cases hAfter : after? "Plan:".toList (trimLeft line) with
  | none =>
      refine .inl ⟨by rw [headCount?, hAfter]; rfl, ?_⟩
      rintro before ds ⟨⟨-, -, after, rfl⟩, lead, between, hLead, rfl⟩
      rw [List.append_assoc, List.append_assoc, trimLeft_plan hLead, after?_append] at hAfter
      cases hAfter
  | some rest =>
      obtain ⟨lead, hLead, hLine⟩ := exists_trimLeft line
      rw [after?_eq_some_iff.mp hAfter] at hLine
      subst hLine
      have hRest : '\n' ∉ rest := fun member =>
        single (List.mem_append_right _ (List.mem_append_right _ member))
      rw [headCount?, hAfter, Option.bind_some]
      rcases countOnLine?_cases hRest with ⟨hNone, never⟩ | ⟨between, ds, hSome, counts, least⟩
      · refine .inl ⟨hNone, fun before ds sums => ?_⟩
        obtain ⟨between, -, counts⟩ := (sums_append_iff hLead).mp sums
        exact never between ds counts
      · refine .inr ⟨_, ds, hSome, (sums_append_iff hLead).mpr ⟨between, rfl, counts⟩,
          fun other digits sums => ?_⟩
        obtain ⟨found, rfl, counts⟩ := (sums_append_iff hLead).mp sums
        have := least found digits counts
        simp only [List.length_append]
        omega

/-- The first line that sums up the plan says first that resources are deleted, in the digits
`ds`. -/
def FirstSum (plan ds : List Char) : Prop :=
  ∃ earlier line later before, splitAt '\n' plan = earlier ++ line :: later ∧
    (∀ other ∈ earlier, ∀ before ds, ¬Sums other before ds) ∧ Sums line before ds ∧
    ∀ other digits, Sums line other digits → before.length ≤ other.length

theorem headCount?_eq_none_iff (single : '\n' ∉ line) :
    headCount? line = none ↔ ∀ before ds, ¬Sums line before ds := by
  rcases headCount?_cases single with ⟨hNone, never⟩ | ⟨before, ds, hSome, sums, -⟩
  · exact iff_of_true hNone never
  · exact iff_of_false (by simp [hSome]) fun never => never before ds sums

theorem headCount?_eq_some_iff (single : '\n' ∉ line) :
    headCount? line = some ds ↔ ∃ before, Sums line before ds ∧
      ∀ other digits, Sums line other digits → before.length ≤ other.length := by
  rcases headCount?_cases single with ⟨hNone, never⟩ | ⟨before, found, hSome, sums, least⟩
  · refine iff_of_false (by simp [hNone]) ?_
    rintro ⟨before, sums, -⟩
    exact never before ds sums
  · rw [hSome, Option.some_inj]
    constructor
    · rintro rfl
      exact ⟨before, sums, least⟩
    · rintro ⟨other, hOther, hLeast⟩
      have hLength := Nat.le_antisymm (least other ds hOther) (hLeast before found sums)
      obtain ⟨-, -, after, hText⟩ := sums.1
      obtain ⟨-, -, later, hLater⟩ := hOther.1
      obtain ⟨rfl, -⟩ := List.append_inj (hText.symm.trans hLater) hLength
      exact sums.1.unique hOther.1

/-- The digits that are read are those of the first sum. -/
theorem summaryFrom?_eq_some_iff : summaryFrom? true plan = some ds ↔ FirstSum plan ds := by
  have hSingle (line : List Char) (member : line ∈ splitAt '\n' plan) : '\n' ∉ line :=
    not_mem_of_mem_splitAt member
  have hLines : summaryFrom? true plan = (splitAt '\n' plan).findSome? headCount? :=
    summaryFrom?_eq true plan
  rw [hLines, List.findSome?_eq_some_iff]
  constructor
  · rintro ⟨earlier, line, later, hPlan, hLine, hEarlier⟩
    rw [hPlan] at hSingle
    obtain ⟨before, sums, least⟩ := (headCount?_eq_some_iff (hSingle line (by simp))).mp hLine
    exact ⟨earlier, line, later, before, hPlan, fun other member =>
      (headCount?_eq_none_iff (hSingle other (by simp [member]))).mp (hEarlier other member), sums,
      least⟩
  · rintro ⟨earlier, line, later, before, hPlan, hEarlier, sums, least⟩
    rw [hPlan] at hSingle
    exact ⟨earlier, line, later, hPlan,
      (headCount?_eq_some_iff (hSingle line (by simp))).mpr ⟨before, sums, least⟩,
      fun other member =>
        (headCount?_eq_none_iff (hSingle other (by simp [member]))).mpr (hEarlier other member)⟩

theorem destroyCount?_eq_some_iff {n : Nat} : destroyCount? plan = some n ↔
    ∃ ds, FirstSum plan ds ∧ (∀ c ∈ ds, c.isDigit = true) ∧ natOfDigits ds = n ∧
      n < UInt64.size := by
  simp only [destroyCount?, Option.bind_eq_bind, Option.bind_eq_some_iff, summaryFrom?_eq_some_iff]
  refine exists_congr fun ds => and_congr_right fun _ => ?_
  simp only [Option.ite_none_right_eq_some, Option.some_inj, Bool.and_eq_true, List.all_eq_true,
    decide_eq_true_eq]
  constructor
  · rintro ⟨⟨hDigits, hSmall⟩, rfl⟩
    exact ⟨hDigits, rfl, hSmall⟩
  · rintro ⟨hDigits, rfl, hSmall⟩
    exact ⟨⟨hDigits, hSmall⟩, rfl⟩

/-- Zeros stand for nothing. -/
theorem natOfDigits_zeros (h : ∀ c ∈ ds, c = '0') : natOfDigits ds = 0 := by
  induction ds using List.reverseRecOn with
  | nil => rfl
  | append_singleton ds c ih =>
      rw [natOfDigits_concat, ih fun d hd => h d (by simp [hd]), h c (by simp)]
      rfl

theorem blocked_eq_nil_iff :
    blocked plan = [] ↔ reported plan = [] ∧ ∀ n, 0 < n → destroyCount? plan ≠ some n := by
  unfold blocked
  cases hReported : reported plan with
  | cons address addresses => simp
  | nil =>
      cases hCount : destroyCount? plan with
      | none => simp
      | some n =>
          cases n with
          | zero =>
              refine iff_of_true rfl ⟨rfl, fun n positive same => ?_⟩
              cases same
              exact Nat.lt_irrefl 0 positive
          | succ n => simp

theorem check_eq (plan : String) :
    check plan = if blocked plan.toList = [] then .ok ()
      else .error (.deletionBlocked (blocked plan.toList)) := by
  unfold check
  split
  · next h =>
      rw [if_pos h]
      rfl
  · next h =>
      rw [if_neg h]
      rfl

/-- Some deletion is reported: a report begins at the beginning of a line and goes up to the end of
one. -/
def Reports (plan : List Char) : Prop :=
  ∃ before report address after, plan = before ++ (report ++ after) ∧
    beginsLine true before = true ∧ AtLineEnd after ∧ Report report address

/-- The first sum is a number of deletions that fits 64 bits, in ASCII digits. -/
def SumsUp (plan : List Char) : Prop :=
  ∃ ds, FirstSum plan ds ∧ (∀ c ∈ ds, c.isDigit = true) ∧ 0 < natOfDigits ds ∧
    natOfDigits ds < UInt64.size

theorem check_eq_ok_iff {plan : String} :
    check plan = .ok () ↔ ¬Reports plan.toList ∧ ¬SumsUp plan.toList := by
  have hReported : reported plan.toList = [] ↔ ¬Reports plan.toList := by
    rw [reported_eq_nil_iff]
    constructor
    · rintro hNone ⟨before, report, address, after, hPlan, hBegins, hAfter, reports⟩
      exact hNone before report address after hPlan hBegins hAfter reports
    · intro hNone before report address after hPlan hBegins hAfter reports
      exact hNone ⟨before, report, address, after, hPlan, hBegins, hAfter, reports⟩
  have hCounted : (∀ n, 0 < n → destroyCount? plan.toList ≠ some n) ↔ ¬SumsUp plan.toList := by
    simp only [ne_eq, destroyCount?_eq_some_iff]
    constructor
    · rintro hNone ⟨ds, first, hDigits, positive, hSmall⟩
      exact hNone _ positive ⟨ds, first, hDigits, rfl, hSmall⟩
    · rintro hNone n positive ⟨ds, first, hDigits, rfl, hSmall⟩
      exact hNone ⟨ds, first, hDigits, positive, hSmall⟩
  rw [← hReported, ← hCounted, ← blocked_eq_nil_iff, check_eq]
  split
  · next h => simp [h]
  · next h => simp [h]

/-- What the guard makes of any plan. Every line that reports a deletion blocks it, and the error
names the addresses of all such lines in order. It passes exactly if no deletion is reported, on a
line or across lines, and the first sum that it gives is not a positive number of 64 bits in ASCII
digits. It passes in particular if nothing in it says that something is destroyed or replaced, and
all digits before the words of a sum are zeros. A plan that does not pass is blocked with at least
one entry. -/
theorem check_blocks_reported (plan : String) :
    (∀ picked found, picked.Sublist (splitAt '\n' plan.toList) → List.Forall₂ Report picked found →
      found ≠ [] → ∃ addresses, check plan = .error (.deletionBlocked addresses) ∧
        addresses ≠ [] ∧ (found.map String.ofList).Sublist addresses) ∧
      (check plan = .ok () ↔ ¬Reports plan.toList ∧ ¬SumsUp plan.toList) ∧
      (check plan ≠ .ok () →
        ∃ addresses, check plan = .error (.deletionBlocked addresses) ∧ addresses ≠ []) ∧
      ((∀ phrase ∈ phrases, ¬phrase <:+: plan.toList) →
        (∀ ds, (∀ c ∈ ds, c.isDigit = true) → ds ++ " to destroy".toList <:+: plan.toList →
          ∀ c ∈ ds, c = '0') →
        check plan = .ok ()) := by
  have hBlocked (h : blocked plan.toList ≠ []) :
      check plan = .error (.deletionBlocked (blocked plan.toList)) := by
    rw [check_eq, if_neg h]
  refine ⟨fun picked found hPicked hFound hSome => ?_, check_eq_ok_iff, fun h => ?_,
    fun hPhrases hZeros => check_eq_ok_iff.mpr ⟨?_, ?_⟩⟩
  · have hReported := sublist_reported hPicked hFound
    have hNonempty : reported plan.toList ≠ [] := fun hNone =>
      hSome (List.sublist_nil.mp (hNone ▸ hReported))
    have hAddresses : blocked plan.toList = (reported plan.toList).map String.ofList := by
      unfold blocked
      split
      · next hNone => exact (hNonempty hNone).elim
      · rfl
    have hAny : blocked plan.toList ≠ [] := by
      rw [hAddresses]
      simpa using hNonempty
    exact ⟨_, hBlocked hAny, hAny, hAddresses ▸ hReported.map _⟩
  · have hAny : blocked plan.toList ≠ [] := fun hNone => h (by rw [check_eq, if_pos hNone])
    exact ⟨_, hBlocked hAny, hAny⟩
  · rintro ⟨before, report, address, after, hPlan, -, -, lead, gap, between, phrase, tail,
      -, -, -, -, -, -, -, -, hPhrase, rfl⟩
    refine hPhrases phrase hPhrase ⟨before ++ (lead ++ ('#' :: (gap ++ (address ++ between)))),
      tail ++ after, ?_⟩
    rw [hPlan]
    simp
  · rintro ⟨ds, ⟨earlier, line, later, before, hPlan, -, ⟨⟨-, -, after, rfl⟩, -⟩, -⟩, hDigits,
      positive, -⟩
    have hLine : before ++ (ds ++ (" to destroy".toList ++ after)) <:+: plan.toList := by
      apply infix_of_mem_splitAt
      rw [hPlan]
      simp
    have hInfix : ds ++ " to destroy".toList <:+: plan.toList :=
      List.IsInfix.trans ⟨before, after, by simp only [List.append_assoc]⟩ hLine
    rw [natOfDigits_zeros (hZeros ds hDigits hInfix)] at positive
    exact Nat.lt_irrefl 0 positive

/-- A plan that reports two deletions, and sums up one. -/
theorem check_blocks_reported_two :
    let plan := "  # a.b will be destroyed\nPlan: 1 to destroy.\n#  c.d must be replaced "
    ∃ addresses, check plan = .error (.deletionBlocked addresses) ∧
      ["a.b", "c.d"].Sublist addresses := by
  intro plan
  have hFirst : Report "  # a.b will be destroyed".toList "a.b".toList :=
    (lineAddress?_eq_some_iff (by decide)).mp (by decide)
  have hSecond : Report "#  c.d must be replaced ".toList "c.d".toList :=
    (lineAddress?_eq_some_iff (by decide)).mp (by decide)
  obtain ⟨addresses, hCheck, -, hNames⟩ := (check_blocks_reported plan).1
    ["  # a.b will be destroyed".toList, "#  c.d must be replaced ".toList] _ (by decide)
    (.cons hFirst (.cons hSecond .nil)) (by simp)
  exact ⟨addresses, hCheck, hNames⟩

/-- A line of the plan sums up deletions, and yet the plan passes. -/
def Overlooked (plan : String) : Prop :=
  (∃ line ∈ splitAt '\n' plan.toList, ∃ before ds, Sums line before ds ∧
    (∀ c ∈ ds, c.isDigit = true) ∧ ∃ c ∈ ds, c ≠ '0') ∧ check plan = .ok ()

/-- Deletions are overlooked if their number needs more than 64 bits, or if a line before says that
there are none. -/
theorem sums_overlooked :
    Overlooked "Plan: 0 to add, 0 to change, 18446744073709551616 to destroy." ∧
      Overlooked
        "Plan: 0 to add, 0 to change, 0 to destroy.\nPlan: 0 to add, 0 to change, 2 to destroy." := by
  have hSums (ds : List Char) (hNonempty : ds ≠ []) (hDigits : ∀ c ∈ ds, c.isDigit = true) :
      Sums ("Plan: 0 to add, 0 to change, ".toList ++ (ds ++ (" to destroy".toList ++ ['.'])))
        "Plan: 0 to add, 0 to change, ".toList ds :=
    ⟨⟨hNonempty, fun c hc => by rw [isDecimal, hDigits c hc]; rfl, ['.'], rfl⟩, [],
      " 0 to add, 0 to change, ".toList, blank_nil, rfl⟩
  have hPasses (plan : String) (h : blocked plan.toList = []) : check plan = .ok () := by
    rw [check_eq, if_pos h]
  constructor
  · have hDigits : ∀ c ∈ "18446744073709551616".toList, c.isDigit = true :=
      List.all_eq_true.mp (by decide)
    exact ⟨⟨_, by decide, _, _, hSums _ (by decide) hDigits, hDigits, '1', by decide, by decide⟩,
      hPasses _ (by decide +kernel)⟩
  · have hDigits : ∀ c ∈ "2".toList, c.isDigit = true := List.all_eq_true.mp (by decide)
    exact ⟨⟨_, by decide, _, _, hSums _ (by decide) hDigits, hDigits, '2', by decide, by decide⟩,
      hPasses _ (by decide +kernel)⟩

end ServiceBroker.DeletionGuard
