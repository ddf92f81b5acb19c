import ServiceBroker.Text.Lines

/-!
What is found in a text that is read from left to right.

An occurrence begins where a line begins and fits a pattern. The first one counts, and the reading
goes on behind it. `Finds` says so without an algorithm; `findFrom` is the algorithm, for any reader
of one occurrence, and both agree.
-/

namespace ServiceBroker.Text

/-- Whether a line begins behind `before`, in a text that begins a line if `fresh` holds. -/
def beginsLine (fresh : Bool) (before : List Char) : Bool :=
  before.getLast?.elim fresh (· == '\n')

@[simp]
theorem beginsLine_nil (fresh : Bool) : beginsLine fresh [] = fresh :=
  rfl

theorem beginsLine_cons (fresh : Bool) (c : Char) (before : List Char) :
    beginsLine fresh (c :: before) = beginsLine (c == '\n') before := by
  cases before with
  | nil => rfl
  | cons d before => simp [beginsLine, List.getLast?_cons]

theorem beginsLine_append (fresh : Bool) (before between : List Char) :
    beginsLine fresh (before ++ between) = beginsLine (beginsLine fresh before) between := by
  induction before generalizing fresh with
  | nil => rfl
  | cons c before ih => rw [List.cons_append, beginsLine_cons, ih, beginsLine_cons]

section Finding

variable {α : Type} (match? : List Char → Option (α × List Char))

/-- What a reader of one occurrence finds in a text of which `skip` characters were read already. -/
def findFrom (skip : Nat) (fresh : Bool) : List Char → List α
  | [] => []
  | c :: rest =>
    match skip with
    | skip + 1 => findFrom skip (c == '\n') rest
    | 0 =>
      if fresh then
        match match? (c :: rest) with
        | some (value, after) => value :: findFrom (rest.length - after.length) (c == '\n') rest
        | none => findFrom 0 (c == '\n') rest
      else findFrom 0 (c == '\n') rest

/-- An occurrence is not empty, and what is left is what follows it. -/
def Consumes : Prop :=
  ∀ ⦃text value after⦄, match? text = some (value, after) →
    ∃ consumed, consumed ≠ [] ∧ text = consumed ++ after

variable (pattern : List Char → α → List Char → Prop)

/-- No occurrence begins in `before`, with `rest` behind it. -/
def Clear (fresh : Bool) (before rest : List Char) : Prop :=
  ∀ ⦃earlier later⦄, before = earlier ++ later → later ≠ [] → beginsLine fresh earlier = true →
    ∀ ⦃consumed value after⦄, later ++ rest = consumed ++ after → ¬pattern consumed value after

/-- The values of the occurrences in a text, each the first one behind the one before. -/
inductive Finds : Bool → List Char → List α → Prop
  | nothing {fresh : Bool} {text : List Char} (clear : Clear pattern fresh text []) :
      Finds fresh text []
  | next {fresh : Bool} {before consumed after : List Char} {value : α} {values : List α}
      (clear : Clear pattern fresh before (consumed ++ after))
      (begins : beginsLine fresh before = true) (fits : pattern consumed value after)
      (later : Finds (beginsLine fresh (before ++ consumed)) after values) :
      Finds fresh (before ++ (consumed ++ after)) (value :: values)

end Finding

variable {α : Type} {match? : List Char → Option (α × List Char)}
  {pattern : List Char → α → List Char → Prop} {fresh : Bool} {before rest : List Char}
  {value : α} {values : List α}

/-- A function that reads as `findFrom` does finds the same. -/
theorem eq_findFrom {find : Nat → Bool → List Char → List α}
    (hNil : ∀ skip fresh, find skip fresh [] = [])
    (hSkip : ∀ skip fresh c rest, find (skip + 1) fresh (c :: rest) = find skip (c == '\n') rest)
    (hRead : ∀ fresh c rest, find 0 fresh (c :: rest) =
      match if fresh then match? (c :: rest) else none with
      | some (value, after) => value :: find (rest.length - after.length) (c == '\n') rest
      | none => find 0 (c == '\n') rest) (skip : Nat) (fresh : Bool) (text : List Char) :
    find skip fresh text = findFrom match? skip fresh text := by
  induction text generalizing skip fresh with
  | nil => exact hNil skip fresh
  | cons c rest ih =>
      cases skip with
      | zero =>
          rw [hRead, findFrom]
          cases fresh with
          | false => exact ih 0 _
          | true =>
              cases match? (c :: rest) with
              | none => exact ih 0 _
              | some found => exact congrArg (found.1 :: ·) (ih _ _)
      | succ skip => exact (hSkip skip fresh c rest).trans (ih skip _)

theorem Clear.cons {c : Char}
    (hHere : fresh = true → ∀ consumed value after, c :: (before ++ rest) = consumed ++ after →
      ¬pattern consumed value after)
    (clear : Clear pattern (c == '\n') before rest) : Clear pattern fresh (c :: before) rest := by
  intro earlier later hSplit hLater hBegins consumed value after hText
  cases earlier with
  | nil =>
      obtain rfl : c :: before = later := by simpa using hSplit
      exact hHere hBegins consumed value after hText
  | cons d earlier =>
      obtain ⟨rfl, rfl⟩ : c = d ∧ before = earlier ++ later := by simpa using hSplit
      rw [beginsLine_cons] at hBegins
      exact clear rfl hLater hBegins hText

theorem Clear.tail {c : Char} (clear : Clear pattern fresh (c :: before) rest) :
    Clear pattern (c == '\n') before rest := by
  intro earlier later hSplit hLater hBegins
  have hFront : c :: before = (c :: earlier) ++ later := congrArg (c :: ·) hSplit
  exact clear hFront hLater (by rwa [beginsLine_cons])

/-- What is found behind a character where no occurrence begins is found with the character in
front. -/
theorem Finds.cons {c : Char}
    (hHere : fresh = true → ∀ consumed value after, c :: rest = consumed ++ after →
      ¬pattern consumed value after)
    (found : Finds pattern (c == '\n') rest values) : Finds pattern fresh (c :: rest) values := by
  cases found with
  | nothing clear => exact .nothing (clear.cons (by simpa using hHere))
  | @next _ before consumed after value values clear begins fits later =>
      have hClear : Clear pattern fresh (c :: before) (consumed ++ after) := clear.cons hHere
      refine .next hClear (by rwa [beginsLine_cons]) fits ?_
      rwa [List.cons_append, beginsLine_cons]

/-- The characters to be passed over are passed over. -/
theorem findFrom_length (consumed after : List Char) :
    findFrom match? consumed.length fresh (consumed ++ after) =
      findFrom match? 0 (beginsLine fresh consumed) after := by
  induction consumed generalizing fresh with
  | nil => rfl
  | cons c consumed ih =>
      rw [List.length_cons, List.cons_append, findFrom, ih, beginsLine_cons]

/-- An occurrence at the beginning of a line is found, and the reading goes on behind it. -/
theorem findFrom_of_match {consumed after : List Char} (hConsumed : consumed ≠ [])
    (h : match? (consumed ++ after) = some (value, after)) :
    findFrom match? 0 true (consumed ++ after) =
      value :: findFrom match? 0 (beginsLine true consumed) after := by
  obtain ⟨c, consumed, rfl⟩ := List.exists_cons_of_ne_nil hConsumed
  rw [List.cons_append] at h
  have hSkip : (consumed ++ after).length - after.length = consumed.length := by simp
  rw [List.cons_append, findFrom, if_pos rfl, h]
  dsimp only
  rw [hSkip, findFrom_length, beginsLine_cons]

theorem findFrom_cons {c : Char} (h : fresh = true → match? (c :: rest) = none) :
    findFrom match? 0 fresh (c :: rest) = findFrom match? 0 (c == '\n') rest := by
  cases fresh with
  | false => rw [findFrom, if_neg (by simp)]
  | true => rw [findFrom, if_pos rfl, h rfl]

section Agreement

variable (hReader : Consumes match?)
  (hPattern : ∀ consumed value after,
    pattern consumed value after ↔ match? (consumed ++ after) = some (value, after))

include hReader hPattern

theorem finds_findFrom (text : List Char) :
    Finds pattern fresh text (findFrom match? 0 fresh text) := by
  -- the reading goes on behind an occurrence, so the induction is on the length
  induction hLength : text.length using Nat.strongRecOn generalizing fresh text with
  | ind n ih =>
      cases text with
      | nil =>
          refine .nothing fun earlier later hSplit hLater => absurd ?_ hLater
          exact (List.append_eq_nil_iff.mp hSplit.symm).2
      | cons c rest =>
          by_cases hHere : fresh = true ∧ ∃ value after, match? (c :: rest) = some (value, after)
          · obtain ⟨rfl, value, after, hMatch⟩ := hHere
            obtain ⟨consumed, hConsumed, hText⟩ := hReader hMatch
            have hShorter : after.length < n := by
              have := congrArg List.length hText
              have := List.length_pos_iff.mpr hConsumed
              simp only [List.length_append] at *
              omega
            rw [hText] at hMatch ⊢
            rw [findFrom_of_match hConsumed hMatch]
            have hClear : Clear pattern true [] (consumed ++ after) :=
              fun earlier later hSplit hLater =>
                absurd (List.append_eq_nil_iff.mp hSplit.symm).2 hLater
            exact .next hClear rfl ((hPattern _ _ _).mpr hMatch) (ih _ hShorter _ rfl)
          · have hNone : fresh = true → match? (c :: rest) = none := fun hFresh =>
              Option.eq_none_iff_forall_ne_some.mpr fun found hMatch =>
                hHere ⟨hFresh, found.1, found.2, hMatch⟩
            rw [findFrom_cons hNone]
            refine .cons (fun hFresh consumed value after hText fits => ?_)
              (ih rest.length (by simp at hLength; omega) _ rfl)
            rw [hPattern, ← hText, hNone hFresh] at fits
            cases fits

theorem findFrom_of_clear (clear : Clear pattern fresh before rest) :
    findFrom match? 0 fresh (before ++ rest) =
      findFrom match? 0 (beginsLine fresh before) rest := by
  induction before generalizing fresh with
  | nil => rfl
  | cons c before ih =>
      have hNone : fresh = true → match? (c :: (before ++ rest)) = none := by
        refine fun hFresh => Option.eq_none_iff_forall_ne_some.mpr fun found hMatch => ?_
        obtain ⟨consumed, -, hText⟩ := hReader hMatch
        have hFront : c :: before = [] ++ c :: before := rfl
        refine clear hFront (by simp) hFresh hText ((hPattern _ found.1 found.2).mpr ?_)
        rw [← hText]
        exact hMatch
      rw [List.cons_append, findFrom_cons hNone, ih clear.tail, beginsLine_cons]

/-- What is found in a text is determined, and it is what the reader finds. -/
theorem finds_iff {text : List Char} :
    Finds pattern fresh text values ↔ findFrom match? 0 fresh text = values := by
  constructor
  · intro found
    induction found with
    | nothing clear =>
        have := findFrom_of_clear hReader hPattern clear
        rw [List.append_nil] at this
        rw [this, findFrom]
    | @next fresh before consumed after value values clear begins fits later ih =>
        have hMatch := (hPattern _ _ _).mp fits
        have hConsumed : consumed ≠ [] := by
          obtain ⟨same, hSame, hText⟩ := hReader hMatch
          exact List.append_cancel_right hText ▸ hSame
        rw [findFrom_of_clear hReader hPattern clear, begins, findFrom_of_match hConsumed hMatch,
          ← begins, ← beginsLine_append, ih]
  · rintro rfl
    exact finds_findFrom hReader hPattern text

end Agreement

end ServiceBroker.Text
