import ServiceBroker.Files.Path
import ServiceBroker.Proofs.Text.Lines
import Mathlib.Data.List.Infix
import Mathlib.Data.List.TakeWhile

/-! The parts that a path names. Whatever the text of a path looks like, leaving out its last part
again and again goes through the beginnings of these parts, the longest first. -/

namespace ServiceBroker.Path

open Text

variable {path before parent text : List Char} {c : Char}

/-- A part that leads somewhere else. -/
def counts (part : List Char) : Bool :=
  part != [] && part != ['.']

/-- The parts of a path that count. -/
def parts (path : List Char) : List (List Char) :=
  (splitAt '/' path).filter counts

/-- The path begins at the topmost folder. -/
def isRooted (path : List Char) : Bool :=
  path.head? == some '/'

theorem counts_reverse (part : List Char) : counts part.reverse = counts part := by
  rw [Bool.eq_iff_iff]
  simp [counts, List.reverse_eq_iff]

theorem isRooted_eq_false (h : ∀ rest, path ≠ '/' :: rest) : isRooted path = false := by
  cases path with
  | nil => rfl
  | cons c rest =>
      have hSlash : c ≠ '/' := fun same => h rest (by rw [same])
      simpa [isRooted] using hSlash

@[simp]
theorem parts_nil : parts [] = [] :=
  rfl

theorem parts_append_slash (first rest : List Char) :
    parts (first ++ '/' :: rest) = parts first ++ parts rest := by
  rw [parts, splitAt_append_cons, List.filter_append]
  rfl

theorem parts_slash (rest : List Char) : parts ('/' :: rest) = parts rest :=
  parts_append_slash [] rest

theorem parts_of_counts {part : List Char} (single : '/' ∉ part) (h : counts part = true) :
    parts part = [part] := by
  rw [parts, splitAt_of_not_mem single, List.filter_cons_of_pos h, List.filter_nil]

/-! ### Leaving out the last part -/

theorem dropEmptyParts_suffix (text : List Char) : dropEmptyParts text <:+ text := by
  fun_induction dropEmptyParts text with
  | case1 before ih => exact ih.trans (List.suffix_cons _ _)
  | case2 before ih => exact ih.trans ((List.suffix_cons _ _).trans (List.suffix_cons _ _))
  | case3 => exact List.nil_suffix
  | case4 => exact List.suffix_rfl

theorem parts_dropEmptyParts (text : List Char) :
    parts (dropEmptyParts text).reverse = parts text.reverse := by
  fun_induction dropEmptyParts text with
  | case1 before ih => rw [ih, List.reverse_cons, parts_append_slash, parts_nil, List.append_nil]
  | case2 before ih =>
      have hDot : parts ['.'] = [] := rfl
      rw [ih, List.reverse_cons, List.reverse_cons, List.append_assoc]
      exact (List.append_nil _).symm.trans (hDot ▸ (parts_append_slash before.reverse ['.']).symm)
  | case3 => rfl
  | case4 => rfl

/-- What is left when the parts that do not count are dropped ends with one that does. -/
theorem counts_last (h : dropEmptyParts text = c :: before) :
    counts ((c :: before).takeWhile (· != '/')) = true := by
  fun_induction dropEmptyParts text with
  | case1 before ih => exact ih h
  | case2 before ih => exact ih h
  | case3 => cases h
  | case4 text notSlash notDotSlash notDot =>
      subst h
      have hSlash : c ≠ '/' := fun same => notSlash before (by rw [same])
      rw [List.takeWhile_cons_of_pos (by simpa using hSlash)]
      by_cases hDot : c = '.'
      · cases before with
        | nil => exact (notDot (by rw [hDot])).elim
        | cons d before =>
            have hNext : d ≠ '/' := fun same => notDotSlash before (by rw [hDot, same])
            rw [List.takeWhile_cons_of_pos (by simpa using hNext)]
            simp [counts]
      · simp [counts, hDot]

/-- The last part, and those before it. -/
theorem exists_last (h : dropEmptyParts text = c :: before) : ∃ last,
    parts text.reverse =
      parts ((c :: before).dropWhile (· != '/')).tail.reverse ++ [last] := by
  have hCounts := (counts_reverse _).trans (counts_last h)
  have hSingle : '/' ∉ ((c :: before).takeWhile (· != '/')).reverse := by
    intro hMember
    simpa using List.mem_takeWhile_imp (List.mem_reverse.mp hMember)
  refine ⟨((c :: before).takeWhile (· != '/')).reverse, ?_⟩
  rw [← parts_of_counts hSingle hCounts, ← parts_dropEmptyParts, h]
  have hSplit := List.takeWhile_append_dropWhile (p := (· != '/')) (l := c :: before)
  cases hRest : (c :: before).dropWhile (· != '/') with
  | nil =>
      rw [hRest, List.append_nil] at hSplit
      rw [hSplit]
      rfl
  | cons mark more =>
      have hMark : mark = '/' := by
        have hSome : (c :: before).dropWhile (· != '/') ≠ [] := by simp [hRest]
        simpa [hRest] using List.head_dropWhile_not (· != '/') hSome
      subst hMark
      rw [hRest] at hSplit
      conv_lhs => rw [← hSplit]
      rw [List.reverse_append, List.reverse_cons, List.append_assoc]
      exact parts_append_slash _ _

/-- What stands before the parts, followed by as many of them as there may be, names just these. -/
theorem parts_lead_append {rest : List Char} (h : rest <+: path.drop (lead path).length) :
    parts (lead path ++ rest) = parts rest := by
  unfold lead at *
  split at h
  · exact parts_slash rest
  · rw [List.prefix_nil.mp h]
    rfl
  · next after =>
      cases rest with
      | nil => rfl
      | cons mark rest =>
          obtain ⟨rfl, -⟩ := List.cons_prefix_cons.mp h
          exact (parts_append_slash ['.'] rest).trans (parts_slash rest).symm
  · rfl

theorem lead_append_drop (path : List Char) : lead path ++ path.drop (lead path).length = path := by
  unfold lead
  split <;> simp

theorem isRooted_lead_append {rest : List Char} (h : rest <+: path.drop (lead path).length) :
    isRooted (lead path ++ rest) = isRooted path := by
  unfold lead at *
  split at h
  · rfl
  · rfl
  · rfl
  · next notSlash _ _ =>
      have hPath : isRooted path = false := isRooted_eq_false notSlash
      rw [hPath]
      cases rest with
      | nil => rfl
      | cons c rest =>
          obtain ⟨more, hMore⟩ := h
          have hText : c :: (rest ++ more) = path := hMore
          rw [← hText] at hPath
          exact hPath

/-- Without its last part a path names the parts before it, from the same folder on. A path that
names no part has no parent, or the empty path if it is a dot. -/
theorem parentChars?_cases (path : List Char) :
    (parts path = [] ∧ (parentChars? path = none ∨ parentChars? path = some [] ∧
        isRooted path = false)) ∨
      ∃ parent last, parentChars? path = some parent ∧ parts path = parts parent ++ [last] ∧
        isRooted parent = isRooted path := by
  have hParts := parts_lead_append (List.prefix_refl (path.drop (lead path).length))
  rw [lead_append_drop] at hParts
  cases hText : dropEmptyParts (path.drop (lead path).length).reverse with
  | nil =>
      refine .inl ⟨?_, ?_⟩
      · have hNone := parts_dropEmptyParts (path.drop (lead path).length).reverse
        rw [hText, List.reverse_reverse] at hNone
        rw [hParts, ← hNone]
        rfl
      · rw [parentChars?]
        simp only [hText]
        by_cases hDot : lead path = ['.']
        · refine .inr ⟨if_pos hDot, ?_⟩
          rw [← lead_append_drop path, hDot]
          rfl
        · exact .inl (if_neg hDot)
  | cons c before =>
      refine .inr ?_
      obtain ⟨last, hLast⟩ := exists_last hText
      rw [List.reverse_reverse, ← hParts] at hLast
      have hKept : (dropEmptyParts ((c :: before).dropWhile (· != '/')).tail).reverse <+:
          path.drop (lead path).length := by
        refine List.reverse_suffix.mp ?_
        rw [List.reverse_reverse]
        refine (dropEmptyParts_suffix _).trans ((List.tail_suffix _).trans ?_)
        exact (List.dropWhile_suffix _).trans (hText ▸ dropEmptyParts_suffix _)
      refine ⟨_, last, ?_, ?_, isRooted_lead_append hKept⟩
      · rw [parentChars?]
        simp only [hText]
      · rw [parts_lead_append hKept, parts_dropEmptyParts]
        exact hLast

/-- Path by path, a search upward goes through the beginnings of the parts. At its end it may come
to where it began once more. -/
theorem map_parts_selfAndParents (path : List Char) : ∃ again,
    (selfAndParents path).map parts = (parts path).inits.reverse ++ List.replicate again [] := by
  induction hLength : path.length using Nat.strongRecOn generalizing path with
  | ind n ih =>
      rcases parentChars?_cases path with
        ⟨hNone, hEnd | ⟨hEnd, -⟩⟩ | ⟨parent, last, hParent, hParts, -⟩
      · refine ⟨0, ?_⟩
        rw [selfAndParents]
        split
        · simp [hNone]
        · next hSome => cases hEnd.symm.trans hSome
      · refine ⟨1, ?_⟩
        have hEmpty : selfAndParents [] = [[]] := by
          rw [selfAndParents]
          rfl
        rw [selfAndParents]
        split
        · next hStop => cases hEnd.symm.trans hStop
        · next found hSome =>
            obtain rfl := Option.some.inj (hEnd.symm.trans hSome)
            simp [hNone, hEmpty]
      · obtain ⟨again, hAgain⟩ :=
          ih parent.length (hLength ▸ length_lt_of_parentChars? hParent) parent rfl
        refine ⟨again, ?_⟩
        rw [selfAndParents]
        split
        · next hStop => cases hParent.symm.trans hStop
        · next found hSome =>
            obtain rfl := Option.some.inj (hParent.symm.trans hSome)
            rw [List.map_cons, hAgain, hParts, List.inits_append]
            simp

/-- All paths of a search upward begin at the same folder. -/
theorem isRooted_of_mem_selfAndParents {other : List Char} (h : other ∈ selfAndParents path) :
    isRooted other = isRooted path := by
  induction hLength : path.length using Nat.strongRecOn generalizing path with
  | ind n ih =>
      rw [selfAndParents] at h
      split at h
      · rw [List.mem_singleton.mp h]
      · next parent hSome =>
          rcases List.mem_cons.mp h with rfl | hAbove
          · rfl
          · rw [ih parent.length (hLength ▸ length_lt_of_parentChars? hSome) hAbove rfl]
            rcases parentChars?_cases path with ⟨-, hEnd | ⟨hEnd, hRooted⟩⟩ |
              ⟨found, last, hFound, -, hRooted⟩
            · cases hEnd.symm.trans hSome
            · obtain rfl := Option.some.inj (hEnd.symm.trans hSome)
              exact hRooted.symm
            · obtain rfl := Option.some.inj (hFound.symm.trans hSome)
              exact hRooted

/-- A name joined to a path stands behind a slash, and before that what the path names. -/
theorem join_cases {folder name : String} (single : '/' ∉ name.toList) :
    (folder = "" ∧ join folder name = name) ∨
      ∃ front, (join folder name).toList = front ++ '/' :: name.toList ∧
        parts front = parts folder.toList ∧
        isRooted (join folder name).toList = isRooted folder.toList := by
  unfold join
  split
  · next rest hName => exact (single (by simp [hName])).elim
  · split
    · next hNil =>
        exact .inl ⟨String.toList_eq_nil_iff.mp (List.getLast?_eq_none_iff.mp hNil), rfl⟩
    · next hSlash =>
        obtain ⟨front, hFront⟩ := List.getLast?_eq_some_iff.mp hSlash
        refine .inr ⟨front, by simp [hFront], ?_, ?_⟩
        · rw [hFront, parts_append_slash, parts_nil, List.append_nil]
        · rw [String.toList_append, hFront]
          cases front <;> rfl
    · next c _ hLast =>
        refine .inr ⟨folder.toList, by simp, rfl, ?_⟩
        obtain ⟨front, hFront⟩ := List.getLast?_eq_some_iff.mp hLast
        rw [String.toList_append, String.toList_append, hFront]
        cases front <;> rfl

end ServiceBroker.Path
