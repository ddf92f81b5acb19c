import ServiceBroker.Proofs.Text.Blank

/-! The forms of lines: the header of a resource, the opening of a block within it, and a value for
an attribute. Each is stated as the text of the line, and each reader reads exactly its form. -/

namespace ServiceBroker.Definition

open ServiceBroker.Text

variable {c : Char} {start text rest label line key value address : List Char}

theorem after?_eq_some_iff : after? start text = some rest ↔ text = start ++ rest := by
  induction start generalizing text with
  | nil => simp [after?]
  | cons c start ih =>
      cases text with
      | nil => simp [after?]
      | cons d text =>
          by_cases hSame : c = d
          · simp [after?, hSame, ih]
          · simp [after?, hSame, Ne.symm hSame]

@[simp]
theorem after?_append (start rest : List Char) : after? start (start ++ rest) = some rest :=
  after?_eq_some_iff.mpr rfl

theorem label?_eq_some_iff : label? text = some (label, rest) ↔
    text = '"' :: (label ++ '"' :: rest) ∧ label ≠ [] ∧ '"' ∉ label := by
  constructor
  · intro h
    unfold label? at h
    split at h
    · next inner =>
        split at h
        · next c label rest hLabel hRest =>
            obtain ⟨rfl, rfl⟩ : c :: label = _ ∧ rest = _ := by simpa using h
            refine ⟨?_, by simp, fun member => ?_⟩
            · rw [← hLabel, ← hRest, List.takeWhile_append_dropWhile]
            · have := List.all_eq_true.mp (List.all_takeWhile (p := (· != '"')) (l := inner))
              simpa using this '"' (hLabel ▸ member)
        · cases h
    · cases h
  · rintro ⟨rfl, hNonempty, hLabel⟩
    have hStop : (label ++ '"' :: rest).takeWhile (· != '"') = label ∧
        (label ++ '"' :: rest).dropWhile (· != '"') = '"' :: rest :=
      takeWhile_append_stop (fun c hc => by simpa using fun same : c = '"' => hLabel (same ▸ hc))
        (by simp)
    obtain ⟨hTake, hDrop⟩ := hStop
    obtain ⟨c, label, rfl⟩ := List.exists_cons_of_ne_nil hNonempty
    simp only [label?, hTake, hDrop]

theorem isOpeningBrace_iff :
    isOpeningBrace text = true ↔ ∃ tail, Blank tail ∧ text = '{' :: tail := by
  unfold isOpeningBrace
  split
  · next rest => simp [isAllBlank_iff]
  · next h =>
      refine iff_of_false (by simp) ?_
      rintro ⟨tail, -, rfl⟩
      exact h tail rfl

/-- A line that opens ends with a brace, up to blanks. -/
def EndsWithBrace (line : List Char) : Prop :=
  ∃ before tail, Blank tail ∧ line = before ++ '{' :: tail

/-- A brace between blanks. -/
def Braced (text : List Char) : Prop :=
  ∃ behind tail, Blank behind ∧ Blank tail ∧ text = behind ++ '{' :: tail

/-- A label in quotes behind at least one blank, and what follows it. -/
def Labelled (text label rest : List Char) : Prop :=
  ∃ gap, gap ≠ [] ∧ Blank gap ∧ label ≠ [] ∧ '"' ∉ label ∧
    text = gap ++ '"' :: (label ++ '"' :: rest)

/-- The two labels of a header behind its keyword, and its brace. -/
def Labels (text labels : List Char) : Prop :=
  ∃ type named name braced, Labelled text type named ∧ Labelled named name braced ∧ Braced braced ∧
    labels = type ++ '.' :: name

/-- The header of a resource or a data source with its address, in any spacing. -/
def Header (line address : List Char) : Prop :=
  ∃ lead keyword labels text, Blank lead ∧ Labels text labels ∧
    (keyword = "resource".toList ∧ address = labels ∨
      keyword = "data".toList ∧ address = "data.".toList ++ labels) ∧
    line = lead ++ (keyword ++ text)

theorem braced_iff : isOpeningBrace (trimLeft text) = true ↔ Braced text := by
  rw [isOpeningBrace_iff]
  constructor
  · rintro ⟨tail, hTail, hBrace⟩
    obtain ⟨behind, hBehind, hText⟩ := exists_trimLeft text
    exact ⟨behind, tail, hBehind, hTail, hBrace ▸ hText⟩
  · rintro ⟨behind, tail, hBehind, hTail, rfl⟩
    exact ⟨tail, hTail, trimLeft_append hBehind (flush_cons.mpr (by decide))⟩

theorem labelled_iff : Labelled text label rest ↔
    ∃ behind, afterBlanks? text = some behind ∧ label? behind = some (label, rest) := by
  constructor
  · rintro ⟨gap, gapped, hGap, hLabel, hQuote, rfl⟩
    exact ⟨_, afterBlanks?_eq_some_iff.mpr ⟨flush_cons.mpr (by decide), gap, gapped, hGap, rfl⟩,
      label?_eq_some_iff.mpr ⟨rfl, hLabel, hQuote⟩⟩
  · rintro ⟨behind, hBehind, hLabel⟩
    obtain ⟨-, gap, gapped, hGap, rfl⟩ := afterBlanks?_eq_some_iff.mp hBehind
    obtain ⟨rfl, hNonempty, hQuote⟩ := label?_eq_some_iff.mp hLabel
    exact ⟨gap, gapped, hGap, hNonempty, hQuote, rfl⟩

theorem headerLabels?_eq_some_iff : headerLabels? text = some address ↔ Labels text address := by
  constructor
  · intro h
    simp only [headerLabels?, Option.bind_eq_bind, Option.bind_eq_some_iff] at h
    obtain ⟨typed, hTyped, ⟨type, named⟩, hType, behind, hNamed, ⟨name, braced⟩, hName, h⟩ := h
    split at h
    · next hBrace =>
        cases h
        exact ⟨type, named, name, braced, labelled_iff.mpr ⟨typed, hTyped, hType⟩,
          labelled_iff.mpr ⟨behind, hNamed, hName⟩, braced_iff.mp hBrace, rfl⟩
    · cases h
  · rintro ⟨type, named, name, braced, hType, hName, hBraced, rfl⟩
    obtain ⟨typed, hTyped, hType⟩ := labelled_iff.mp hType
    obtain ⟨behind, hBehind, hName⟩ := labelled_iff.mp hName
    simp only [headerLabels?, hTyped, Option.bind_eq_bind, Option.bind_some, hType, hBehind, hName,
      braced_iff.mpr hBraced, if_true]

/-- The two keywords begin differently. -/
theorem after?_data_eq_none (rest : List Char) :
    after? "data".toList ("resource".toList ++ rest) = none := by
  simp [after?]

theorem after?_resource_eq_none (rest : List Char) :
    after? "resource".toList ("data".toList ++ rest) = none := by
  simp [after?]

theorem flush_keyword {keyword : List Char}
    (h : keyword = "resource".toList ∨ keyword = "data".toList) (rest : List Char) :
    Flush (keyword ++ rest) := by
  rcases h with rfl | rfl
  · exact fun c hHead => by cases hHead; decide
  · exact fun c hHead => by cases hHead; decide

theorem headerAddress?_eq_some_iff : headerAddress? line = some address ↔ Header line address := by
  constructor
  · intro h
    obtain ⟨lead, hLead, hLine⟩ := exists_trimLeft line
    simp only [headerAddress?] at h
    split at h
    · next rest hKeyword =>
        refine ⟨lead, _, address, rest, hLead, headerLabels?_eq_some_iff.mp h, .inl ⟨rfl, rfl⟩, ?_⟩
        rwa [← after?_eq_some_iff.mp hKeyword]
    · next rest _ hKeyword =>
        obtain ⟨labels, hLabels, rfl⟩ := Option.map_eq_some_iff.mp h
        refine ⟨lead, _, labels, rest, hLead, headerLabels?_eq_some_iff.mp hLabels,
          .inr ⟨rfl, rfl⟩, ?_⟩
        rwa [← after?_eq_some_iff.mp hKeyword]
    · cases h
  · rintro ⟨lead, keyword, labels, text, hLead, hLabels, ⟨rfl, rfl⟩ | ⟨rfl, rfl⟩, rfl⟩
    · rw [headerAddress?, trimLeft_append hLead (flush_keyword (.inl rfl) _)]
      simp only [after?_append, after?_data_eq_none, headerLabels?_eq_some_iff.mpr hLabels]
    · rw [headerAddress?, trimLeft_append hLead (flush_keyword (.inr rfl) _)]
      simp only [after?_append, after?_resource_eq_none, headerLabels?_eq_some_iff.mpr hLabels,
        Option.map_some]

/-- A character that may be left out. -/
def Perhaps (c : Char) (text : List Char) : Prop :=
  text = [] ∨ text = [c]

/-- The line begins with a key, perhaps in quotes, and `rest` stands behind the key. -/
def BeginsWithKey (line key rest : List Char) : Prop :=
  key ≠ [] ∧ (∀ c ∈ key, isKeyChar c = true) ∧ ∃ lead front, Blank lead ∧ Perhaps '"' front ∧
    line = lead ++ (front ++ (key ++ rest))

/-- The line opens a block or a map under a key. -/
def Opens (line key : List Char) : Prop :=
  ∃ back gap mark braced, Perhaps '"' back ∧ Blank gap ∧ Perhaps '=' mark ∧ Braced braced ∧
    BeginsWithKey line key (back ++ (gap ++ (mark ++ braced)))

/-- The line gives a key a value. -/
def Assigns (line key value : List Char) : Prop :=
  ∃ back gap written, Perhaps '"' back ∧ Blank gap ∧ value = trim written ∧
    BeginsWithKey line key (back ++ (gap ++ '=' :: written))

theorem Assigns.exists_rest (h : Assigns line key value) : ∃ rest, BeginsWithKey line key rest := by
  obtain ⟨back, gap, written, -, -, -, h⟩ := h
  exact ⟨_, h⟩

theorem BeginsWithKey.subset (h : BeginsWithKey line key rest) : ∀ c ∈ key, c ∈ line := by
  obtain ⟨-, -, lead, front, -, -, rfl⟩ := h
  exact fun c hc => by simp [hc]

theorem exists_dropQuote (text : List Char) :
    ∃ back, Perhaps '"' back ∧ text = back ++ dropQuote text := by
  unfold dropQuote
  split
  · exact ⟨['"'], .inr rfl, rfl⟩
  · exact ⟨[], .inl rfl, rfl⟩

theorem exists_dropEquals (text : List Char) :
    ∃ mark, Perhaps '=' mark ∧ text = mark ++ dropEquals text := by
  unfold dropEquals
  split
  · exact ⟨['='], .inr rfl, rfl⟩
  · exact ⟨[], .inl rfl, rfl⟩

theorem dropQuote_append {back : List Char} (hBack : Perhaps '"' back)
    (hRest : rest.head? ≠ some '"') : dropQuote (back ++ rest) = rest := by
  rcases hBack with rfl | rfl
  · unfold dropQuote
    split
    · next h => exact absurd (congrArg List.head? h) hRest
    · rfl
  · rfl

theorem dropQuote_eq_self (h : text.head? ≠ some '"') : dropQuote text = text :=
  dropQuote_append (.inl rfl) h

theorem isKeyChar_eq_false_of_isBlank (h : isBlank c = true) : isKeyChar c = false := by
  simp [isKeyChar, h]

/-- The key and its rest are where the line says. -/
theorem beginsWithKey_keyAndRest (h : (keyAndRest line).1 ≠ []) :
    BeginsWithKey line (keyAndRest line).1 (keyAndRest line).2 := by
  obtain ⟨lead, hLead, hLine⟩ := exists_trimLeft line
  obtain ⟨front, hFront, hText⟩ := exists_dropQuote (trimLeft line)
  refine ⟨h, List.all_eq_true.mp List.all_takeWhile, lead, front, hLead, hFront, ?_⟩
  rw [keyAndRest, List.takeWhile_append_dropWhile, ← hText]
  exact hLine

/-- A key ends where a character stands that belongs to none. -/
theorem keyAndRest_eq (h : BeginsWithKey line key rest)
    (hStop : ∀ c, rest.head? = some c → isKeyChar c = false) : keyAndRest line = (key, rest) := by
  obtain ⟨hNonempty, hKey, lead, front, hLead, hFront, rfl⟩ := h
  obtain ⟨hTake, hDrop⟩ := takeWhile_append_stop hKey hStop
  obtain ⟨c, key, rfl⟩ := List.exists_cons_of_ne_nil hNonempty
  have hc : isKeyChar c = true := hKey c (by simp)
  have hFlush : Flush (front ++ (c :: key ++ rest)) := by
    rcases hFront with rfl | rfl
    · exact flush_cons.mpr (by simpa [isKeyChar] using (by simpa [isKeyChar] using hc : _ ∧ _).2)
    · exact flush_cons.mpr (by decide)
  have hQuote : dropQuote (front ++ (c :: key ++ rest)) = c :: key ++ rest :=
    dropQuote_append hFront (by rintro ⟨⟩; simp [isKeyChar] at hc)
  rw [keyAndRest, trimLeft_append hLead hFlush, hQuote, hTake, hDrop]

/-- Behind blanks stands one of them or what follows. -/
theorem head?_gap_ne {gap : List Char} (hGap : Blank gap) (hc : isBlank c = false)
    (hRest : rest.head? ≠ some c) : (gap ++ rest).head? ≠ some c := by
  cases gap with
  | nil => exact hRest
  | cons d gap =>
      rintro ⟨⟩
      simp [hc] at hGap

theorem not_isKeyChar_of_perhaps_quote {back : List Char} (h : Perhaps '"' back) :
    ∀ c ∈ back, isKeyChar c = false := by
  rcases h with rfl | rfl <;> simp [isKeyChar]

theorem not_isKeyChar_of_perhaps_equals {mark : List Char} (h : Perhaps '=' mark) :
    ∀ c ∈ mark, isKeyChar c = false := by
  rcases h with rfl | rfl <;> simp [isKeyChar]

theorem not_isKeyChar_of_blank {gap : List Char} (h : Blank gap) :
    ∀ c ∈ gap, isKeyChar c = false :=
  fun c hc => isKeyChar_eq_false_of_isBlank (h c hc)

/-- What stands between a key and the rest of its line ends the key. -/
theorem head?_filler {filler : List Char} (hNonempty : filler ≠ [])
    (h : ∀ c ∈ filler, isKeyChar c = false) :
    ∀ c, (filler ++ rest).head? = some c → isKeyChar c = false := by
  obtain ⟨d, filler, rfl⟩ := List.exists_cons_of_ne_nil hNonempty
  rintro c ⟨⟩
  exact h d (by simp)

theorem attribute?_eq_some_iff : attribute? line = some (key, value) ↔ Assigns line key value := by
  constructor
  · intro h
    rw [attribute?] at h
    dsimp only at h
    split at h
    · cases h
    · next hKey =>
        split at h
        · next written hWritten =>
            cases h
            obtain ⟨back, hBack, hQuote⟩ := exists_dropQuote (keyAndRest line).2
            obtain ⟨gap, hGap, hRest⟩ := exists_trimLeft (dropQuote (keyAndRest line).2)
            refine ⟨back, gap, written, hBack, hGap, rfl, ?_⟩
            rw [← hWritten, ← hRest, ← hQuote]
            exact beginsWithKey_keyAndRest (by simpa using hKey)
        · cases h
  · rintro ⟨back, gap, written, hBack, hGap, rfl, h⟩
    have hFiller : ∀ c ∈ back ++ gap ++ ['='], isKeyChar c = false := by
      simp only [List.forall_mem_append]
      exact ⟨⟨not_isKeyChar_of_perhaps_quote hBack, not_isKeyChar_of_blank hGap⟩,
        by simp [isKeyChar]⟩
    have hStop : ∀ c, (back ++ (gap ++ '=' :: written)).head? = some c → isKeyChar c = false := by
      have : ∀ c, (back ++ gap ++ ['='] ++ written).head? = some c → isKeyChar c = false :=
        head?_filler (by simp) hFiller
      simpa using this
    have hQuote : dropQuote (back ++ (gap ++ '=' :: written)) = gap ++ '=' :: written :=
      dropQuote_append hBack (head?_gap_ne hGap (by decide) (by simp))
    rw [attribute?, keyAndRest_eq h hStop]
    dsimp only
    rw [hQuote, trimLeft_append hGap (flush_cons.mpr (by decide)), if_neg (by simpa using h.1)]
    rfl

/-- A key character in front of the rest may as well belong to the key. -/
theorem BeginsWithKey.concat_iff (hc : isKeyChar c = true) (hKey : key ≠ []) :
    BeginsWithKey line (key ++ [c]) rest ↔ BeginsWithKey line key (c :: rest) := by
  simp [BeginsWithKey, hKey, hc, or_imp, forall_and]

/-- What is left of a line when the signs behind its key are taken off. -/
theorem exists_signs (text : List Char) :
    ∃ back gap mark, Perhaps '"' back ∧ Blank gap ∧ Perhaps '=' mark ∧
      text = back ++ (gap ++ (mark ++ dropEquals (trimLeft (dropQuote text)))) := by
  obtain ⟨back, hBack, hQuote⟩ := exists_dropQuote text
  obtain ⟨gap, hGap, hMarked⟩ := exists_trimLeft (dropQuote text)
  obtain ⟨mark, hMark, hEquals⟩ := exists_dropEquals (trimLeft (dropQuote text))
  exact ⟨back, gap, mark, hBack, hGap, hMark, by rw [← hEquals, ← hMarked, ← hQuote]⟩

/-- The brace behind a key and the signs between them. -/
theorem isOpeningBrace_behind_key {back gap mark braced : List Char} (hBack : Perhaps '"' back)
    (hGap : Blank gap) (hMark : Perhaps '=' mark) (hBraced : Braced braced) :
    isOpeningBrace (trimLeft (dropEquals (trimLeft (dropQuote
      (back ++ (gap ++ (mark ++ braced))))))) = true := by
  have hOpening := braced_iff.mpr hBraced
  obtain ⟨behind, tail, hBehind, -, rfl⟩ := hBraced
  have hBrace : Flush ('{' :: tail) := flush_cons.mpr (by decide)
  rcases hMark with rfl | rfl
  · have hQuote : (gap ++ (behind ++ '{' :: tail)).head? ≠ some '"' :=
      head?_gap_ne hGap (by decide) (head?_gap_ne hBehind (by decide) (by simp))
    have hTrim : trimLeft (gap ++ (behind ++ '{' :: tail)) = '{' :: tail := by
      rw [trimLeft_lead hGap, trimLeft_append hBehind hBrace]
    have hEquals : dropEquals ('{' :: tail) = '{' :: tail := by simp [dropEquals]
    rw [trimLeft_append hBehind hBrace] at hOpening
    rwa [List.nil_append, dropQuote_append hBack hQuote, hTrim, hEquals, trimLeft_of_flush hBrace]
  · have hQuote : (gap ++ '=' :: (behind ++ '{' :: tail)).head? ≠ some '"' :=
      head?_gap_ne hGap (by decide) (by simp)
    rwa [List.singleton_append, dropQuote_append hBack hQuote,
      trimLeft_append hGap (flush_cons.mpr (by decide)), dropEquals]

theorem nestedKey?_eq_some_iff : nestedKey? line = some key ↔ Opens line key := by
  constructor
  · intro h
    simp only [nestedKey?] at h
    split at h
    · cases h
    next hKey =>
      have hBegins : BeginsWithKey line (keyAndRest line).1 (keyAndRest line).2 :=
        beginsWithKey_keyAndRest (by simpa using hKey)
      split at h
      · next hBrace =>
          cases h
          obtain ⟨back, gap, mark, hBack, hGap, hMark, hRest⟩ := exists_signs (keyAndRest line).2
          exact ⟨back, gap, mark, _, hBack, hGap, hMark, braced_iff.mp hBrace, hRest ▸ hBegins⟩
      · split at h
        · next hBrace =>
            cases h
            obtain ⟨⟨hLast, hRest⟩, hLong⟩ := by simpa using hBrace
            obtain ⟨before, hBefore⟩ := List.getLast?_eq_some_iff.mp hLast
            rw [hBefore] at hBegins ⊢
            have hNonempty : before ≠ [] := by
              rintro rfl
              simp [hBefore] at hLong
            rw [List.dropLast_concat]
            exact ⟨[], [], [], _, .inl rfl, blank_nil, .inl rfl,
              ⟨[], _, blank_nil, isAllBlank_iff.mp hRest, rfl⟩,
              (BeginsWithKey.concat_iff (by decide) hNonempty).mp hBegins⟩
        · cases h
  · rintro ⟨back, gap, mark, braced, hBack, hGap, hMark, hBraced, h⟩
    have hKey : key ≠ [] := h.1
    have hOpening := isOpeningBrace_behind_key hBack hGap hMark hBraced
    obtain ⟨behind, tail, hBehind, hTail, rfl⟩ := hBraced
    by_cases hFiller : back ++ gap ++ mark ++ behind = []
    · -- The brace follows the key at once, so the reader takes it for the key's last character.
      obtain ⟨rfl, rfl, rfl, rfl⟩ : back = [] ∧ gap = [] ∧ mark = [] ∧ behind = [] := by
        simpa using hFiller
      have hRead : keyAndRest line = (key ++ ['{'], tail) :=
        keyAndRest_eq ((BeginsWithKey.concat_iff (by decide) hKey).mpr h)
          fun c hHead => isKeyChar_eq_false_of_isBlank (hTail c (List.mem_of_head? hHead))
      have hQuote : dropQuote tail = tail := dropQuote_eq_self fun hHead =>
        absurd (hTail '"' (List.mem_of_head? hHead)) (by decide)
      have hNoBrace :
          isOpeningBrace (trimLeft (dropEquals (trimLeft (dropQuote tail)))) = false := by
        rw [hQuote, trimLeft_of_blank hTail]
        rfl
      rw [nestedKey?, hRead]
      dsimp only
      rw [if_neg (by simp), hNoBrace, if_neg (by simp), if_pos, List.dropLast_concat]
      simpa [isAllBlank_iff] using ⟨hTail, List.length_pos_iff.mpr hKey⟩
    · have hStop : ∀ c, (back ++ gap ++ mark ++ behind ++ '{' :: tail).head? = some c →
          isKeyChar c = false := by
        refine head?_filler hFiller ?_
        simp only [List.forall_mem_append]
        exact ⟨⟨⟨not_isKeyChar_of_perhaps_quote hBack, not_isKeyChar_of_blank hGap⟩,
          not_isKeyChar_of_perhaps_equals hMark⟩, not_isKeyChar_of_blank hBehind⟩
      simp only [List.append_assoc] at hStop
      rw [nestedKey?, keyAndRest_eq h hStop]
      dsimp only
      rw [if_neg (by simpa using hKey), if_pos hOpening]

/-! ### The end and the beginning of a line -/

theorem Braced.append {tail : List Char} (h : Braced text) (hTail : Blank tail) :
    Braced (text ++ tail) := by
  obtain ⟨behind, inner, hBehind, hInner, rfl⟩ := h
  exact ⟨behind, inner ++ tail, hBehind, blank_append.mpr ⟨hInner, hTail⟩, by simp⟩

/-- The brace of a header may stand between any blanks. -/
theorem Header.exists_front (h : Header line address) : ∃ front braced, Braced braced ∧
    line = front ++ braced ∧ ∀ other, Braced other → Header (front ++ other) address := by
  obtain ⟨lead, keyword, labels, text, hLead, ⟨type, named, name, braced,
    ⟨gap, gapped, hGap, hType, typeQuote, rfl⟩, ⟨between, parted, hBetween, hName, nameQuote, rfl⟩,
    hBraced, rfl⟩, hKeyword, rfl⟩ := h
  refine ⟨lead ++ (keyword ++ (gap ++ '"' :: (type ++ '"' :: (between ++ '"' :: (name ++ ['"']))))),
    braced, hBraced, by simp, fun other hOther => ⟨lead, keyword, _, _, hLead,
      ⟨type, _, name, other, ⟨gap, gapped, hGap, hType, typeQuote, rfl⟩,
        ⟨between, parted, hBetween, hName, nameQuote, rfl⟩, hOther, rfl⟩, hKeyword, by simp⟩⟩

/-- The brace behind a key may stand between any blanks. -/
theorem Opens.exists_front (h : Opens line key) : ∃ front braced, Braced braced ∧
    line = front ++ braced ∧ ∀ other, Braced other → Opens (front ++ other) key := by
  obtain ⟨back, gap, mark, braced, hBack, hGap, hMark, hBraced, hKey, hChars, lead, front, hLead,
    hFront, rfl⟩ := h
  exact ⟨lead ++ (front ++ (key ++ (back ++ (gap ++ mark)))), braced, hBraced, by simp,
    fun other hOther => ⟨back, gap, mark, other, hBack, hGap, hMark, hOther, hKey, hChars, lead,
      front, hLead, hFront, by simp⟩⟩

theorem Braced.endsWithBrace {front : List Char} (h : Braced text) :
    EndsWithBrace (front ++ text) := by
  obtain ⟨behind, tail, -, hTail, rfl⟩ := h
  exact ⟨front ++ behind, tail, hTail, by simp⟩

theorem Header.endsWithBrace (h : Header line address) : EndsWithBrace line := by
  obtain ⟨front, braced, hBraced, rfl, -⟩ := h.exists_front
  exact hBraced.endsWithBrace

theorem Opens.endsWithBrace (h : Opens line key) : EndsWithBrace line := by
  obtain ⟨front, braced, hBraced, rfl, -⟩ := h.exists_front
  exact hBraced.endsWithBrace

/-- A header begins with its keyword, and a label in quotes follows. -/
theorem Header.exists_keyword (h : Header line address) : ∃ lead keyword gap rest, Blank lead ∧
    (keyword = "resource".toList ∨ keyword = "data".toList) ∧ Blank gap ∧ gap ≠ [] ∧
    line = lead ++ (keyword ++ (gap ++ '"' :: rest)) := by
  obtain ⟨lead, keyword, labels, text, hLead, ⟨type, named, name, braced,
    ⟨gap, gapped, hGap, -, -, rfl⟩, -, -, -⟩, hKeyword, rfl⟩ := h
  exact ⟨lead, keyword, gap, _, hLead, hKeyword.imp And.left And.left, hGap, gapped, rfl⟩

theorem Header.isComment_eq_false (h : Header line address) : isComment line = false := by
  obtain ⟨lead, keyword, gap, rest, hLead, hKeyword, -, -, rfl⟩ := h.exists_keyword
  rw [isComment, trimLeft_append hLead (flush_keyword hKeyword _)]
  rcases hKeyword with rfl | rfl <;> rfl

/-- A header opens no block under a key: behind its keyword stands a label. -/
theorem Header.nestedKey?_eq_none (h : Header line address) : nestedKey? line = none := by
  obtain ⟨lead, keyword, gap, rest, hLead, hKeyword, hGap, gapped, rfl⟩ := h.exists_keyword
  have hBegins : BeginsWithKey (lead ++ (keyword ++ (gap ++ '"' :: rest))) keyword
      (gap ++ '"' :: rest) := by
    refine ⟨?_, ?_, lead, [], hLead, .inl rfl, rfl⟩
    · rcases hKeyword with rfl | rfl <;> simp
    · rcases hKeyword with rfl | rfl <;> exact List.all_eq_true.mp (by decide)
  have hQuote : dropQuote (gap ++ '"' :: rest) = gap ++ '"' :: rest := by
    obtain ⟨d, gap, rfl⟩ := List.exists_cons_of_ne_nil gapped
    refine dropQuote_eq_self ?_
    rintro ⟨⟩
    exact absurd (blank_cons.mp hGap).1 (by decide)
  have hLast : keyword.getLast? ≠ some '{' := by
    rcases hKeyword with rfl | rfl <;> decide
  have hNoBrace : isOpeningBrace (trimLeft (dropEquals (trimLeft (dropQuote
      (gap ++ '"' :: rest))))) = false := by
    rw [hQuote, trimLeft_append hGap (flush_cons.mpr (by decide))]
    rfl
  rw [nestedKey?, keyAndRest_eq hBegins (head?_filler gapped (not_isKeyChar_of_blank hGap))]
  dsimp only
  rw [if_neg (by simpa using hBegins.1), hNoBrace, if_neg (by simp), if_neg (by simp [hLast])]

theorem endsWithBrace_iff : EndsWithBrace line ↔ (trimLeft line.reverse).head? = some '{' := by
  rw [List.head?_eq_some_iff]
  constructor
  · rintro ⟨before, tail, hTail, rfl⟩
    refine ⟨before.reverse, ?_⟩
    rw [List.reverse_append, List.reverse_cons, List.append_assoc]
    exact trimLeft_append (fun c hc => hTail c (List.mem_reverse.mp hc))
      (flush_cons.mpr (by decide))
  · rintro ⟨before, hBrace⟩
    obtain ⟨tail, hTail, hLine⟩ := exists_trimLeft line.reverse
    refine ⟨before.reverse, tail.reverse, fun c hc => hTail c (List.mem_reverse.mp hc), ?_⟩
    rw [← List.reverse_reverse line, hLine, hBrace]
    simp

instance (line : List Char) : Decidable (EndsWithBrace line) :=
  decidable_of_iff _ endsWithBrace_iff.symm

instance (line : List Char) : Decidable (∃ address, Header line address) :=
  decidable_of_iff ((headerAddress? line).isSome = true)
    (Option.isSome_iff_exists.trans (exists_congr fun _ => headerAddress?_eq_some_iff))

instance (line : List Char) : Decidable (∃ key, Opens line key) :=
  decidable_of_iff ((nestedKey? line).isSome = true)
    (Option.isSome_iff_exists.trans (exists_congr fun _ => nestedKey?_eq_some_iff))

end ServiceBroker.Definition
