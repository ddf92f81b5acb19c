import ServiceBroker.Version.Parser
import ServiceBroker.Proofs.Text.Digits

/-! The written form of a version reads back as the version. -/

namespace ServiceBroker

namespace Version

open Text

theorem numberChars_ne_leading_zero (n : UInt64) (c : Char) (cs : List Char) :
    numberChars n ≠ '0' :: c :: cs :=
  toDigits_ne_leading_zero n.toNat c cs

theorem parseNumber_append (part : Part) {ds rest : List Char} (nonempty : ds ≠ [])
    (isDigit : ∀ c ∈ ds, c.isDigit = true) (no_zero : ∀ c cs, ds ≠ '0' :: c :: cs)
    (small : natOfDigits ds < UInt64.size)
    (stop : ∀ c, rest.head? = some c → c.isDigit = false) :
    parseNumber part (ds ++ rest) = .ok (UInt64.ofNat (natOfDigits ds), rest) := by
  obtain ⟨hTake, hDrop⟩ := takeWhile_append_stop isDigit stop
  rw [parseNumber, hTake, hDrop]
  split
  · exact (nonempty rfl).elim
  · exact (nonempty rfl).elim
  · exact (no_zero _ _ rfl).elim
  · rw [if_pos small]
    rfl

/-- A number reads back if no digit follows. -/
theorem parseNumber_numberChars (part : Part) (n : UInt64) {rest : List Char}
    (stop : ∀ c, rest.head? = some c → c.isDigit = false) :
    parseNumber part (numberChars n ++ rest) = .ok (n, rest) := by
  have hValue : natOfDigits (numberChars n) = n.toNat := natOfDigits_toDigits n.toNat
  have hSmall : natOfDigits (numberChars n) < UInt64.size := by
    rw [hValue]
    exact n.toNat_lt
  have hNonempty : numberChars n ≠ [] := Nat.toDigits_ne_nil
  have hDigits : ∀ c ∈ numberChars n, c.isDigit = true := fun c h => isDigit_of_mem_toDigits h
  rw [parseNumber_append part hNonempty hDigits (numberChars_ne_leading_zero n) hSmall stop, hValue,
    UInt64.ofNat_toNat]

theorem isWordChar_dot : isWordChar '.' = false := by
  decide

theorem not_mem_dot (i : Identifier) : '.' ∉ i.chars := by
  intro h
  have hWord := List.all_eq_true.mp i.all_word '.' h
  rw [isWordChar_dot] at hWord
  cases hWord

theorem segments_of_not_mem {cs : List Char} (h : '.' ∉ cs) : segments cs = [cs] := by
  induction cs with
  | nil => rfl
  | cons c cs ih =>
      simp only [List.mem_cons, not_or] at h
      rw [segments, if_neg (Ne.symm h.1), ih h.2]

theorem segments_append {cs : List Char} (h : '.' ∉ cs) (rest : List Char) :
    segments (cs ++ '.' :: rest) = cs :: segments rest := by
  induction cs with
  | nil => simp [segments]
  | cons c cs ih =>
      simp only [List.mem_cons, not_or] at h
      rw [List.cons_append, segments, if_neg (Ne.symm h.1), ih h.2]

theorem segments_joinIdentifiers {is : List Identifier} (h : is ≠ []) :
    segments (joinIdentifiers is) = is.map Identifier.chars := by
  induction is with
  | nil => exact (h rfl).elim
  | cons i is ih =>
      cases is with
      | nil => exact segments_of_not_mem (not_mem_dot i)
      | cons j js =>
          rw [joinIdentifiers, segments_append (not_mem_dot i), ih (by simp)]
          · rfl
          · simp

theorem ofChars?_chars (i : Identifier) : Identifier.ofChars? i.chars = some i :=
  dif_pos ⟨i.ne_nil, i.all_word⟩

/-- Identifiers read back; among those of a pre-release none may have a zero in front. -/
theorem identifiers_map_chars {part : Part} {is : List Identifier}
    (canonical : part = .pre → is.all (fun i => !i.hasLeadingZero) = true) :
    identifiers part (is.map Identifier.chars) = .ok is := by
  induction is with
  | nil => rfl
  | cons i is ih =>
      have hFirst : ¬(part = .pre ∧ i.hasLeadingZero = true) := by
        rintro ⟨hPart, hZero⟩
        have hAll := canonical hPart
        simp [hZero] at hAll
      have hRest := ih fun hPart => by
        have hAll := canonical hPart
        simp only [List.all_cons, Bool.and_eq_true] at hAll
        exact hAll.2
      simp only [List.map_cons, identifiers, ofChars?_chars, hFirst, if_false, hRest]
      rfl

theorem all_joinIdentifiers (is : List Identifier) :
    ∀ c ∈ joinIdentifiers is, (isWordChar c || c == '.') = true := by
  have hWord (i : Identifier) : ∀ c ∈ i.chars, (isWordChar c || c == '.') = true := by
    intro c h
    simp [List.all_eq_true.mp i.all_word c h]
  induction is with
  | nil => simp [joinIdentifiers]
  | cons i is ih =>
      cases is with
      | nil => exact hWord i
      | cons j js =>
          intro c h
          rw [joinIdentifiers] at h
          · rcases List.mem_append.mp h with hFirst | hRest
            · exact hWord i c hFirst
            · rcases List.mem_cons.mp hRest with rfl | hLater
              · rfl
              · exact ih c hLater
          · simp

/-- What a mark announces reads back if nothing follows that could belong to it. -/
theorem parseMarked_marked {mark : Char} {part : Part} {is : List Identifier} {rest : List Char}
    (canonical : part = .pre → is.all (fun i => !i.hasLeadingZero) = true)
    (stop : ∀ c, rest.head? = some c → (isWordChar c || c == '.') = false ∧ c ≠ mark) :
    parseMarked mark part (marked mark is ++ rest) =
      .ok (if is.isEmpty then none else some is, rest) := by
  cases is with
  | nil =>
      cases rest with
      | nil => rfl
      | cons c rest =>
          have hMark := (stop c rfl).2
          simp only [marked, List.nil_append, parseMarked, if_neg hMark]
          rfl
  | cons i is =>
      obtain ⟨hTake, hDrop⟩ :=
        takeWhile_append_stop (all_joinIdentifiers (i :: is)) fun c h => (stop c h).1
      have hFound : identifiers part (segments (joinIdentifiers (i :: is))) = .ok (i :: is) := by
        rw [segments_joinIdentifiers (by simp)]
        exact identifiers_map_chars canonical
      simp only [marked, List.cons_append, parseMarked, if_true, parseIdentifiers, hTake, hDrop,
        hFound]
      rfl

theorem head?_marked {mark c : Char} {is : List Identifier} {rest : List Char}
    (h : (marked mark is ++ rest).head? = some c) : c = mark ∨ rest.head? = some c := by
  cases is with
  | nil => exact .inr h
  | cons i is => exact .inl (Option.some.inj h).symm

theorem parseChars_chars (v : Version) : parseChars v.chars = .ok v := by
  have hBuild : parseMarked '+' .build (marked '+' v.build ++ []) =
      .ok (if v.build.isEmpty then none else some v.build, []) :=
    parseMarked_marked (by simp) (by simp)
  have hPre : parseMarked '-' .pre (marked '-' v.pre ++ (marked '+' v.build ++ [])) =
      .ok (if v.pre.isEmpty then none else some v.pre, marked '+' v.build ++ []) := by
    refine parseMarked_marked (fun _ => v.pre_canonical) ?_
    intro c h
    rcases head?_marked h with rfl | hNil
    · decide
    · cases hNil
  have hPatch : parseNumber .patch
      (numberChars v.patch ++ (marked '-' v.pre ++ (marked '+' v.build ++ []))) =
      .ok (v.patch, marked '-' v.pre ++ (marked '+' v.build ++ [])) := by
    refine parseNumber_numberChars .patch v.patch ?_
    intro c h
    rcases head?_marked h with rfl | hLater
    · decide
    · rcases head?_marked hLater with rfl | hNil
      · decide
      · cases hNil
  have hDot : ∀ c cs, ('.' :: cs : List Char).head? = some c → c.isDigit = false := by
    rintro c cs ⟨⟩
    decide
  have hGetD : ∀ is : List Identifier, (if is.isEmpty then none else some is).getD [] = is := by
    intro is
    cases is <;> rfl
  have hMinor := parseNumber_numberChars .minor v.minor (hDot · (numberChars v.patch ++
    (marked '-' v.pre ++ (marked '+' v.build ++ []))))
  have hMajor := parseNumber_numberChars .major v.major (hDot · (numberChars v.minor ++
    '.' :: (numberChars v.patch ++ (marked '-' v.pre ++ (marked '+' v.build ++ [])))))
  have hChars : v.chars = numberChars v.major ++ '.' :: (numberChars v.minor ++
      '.' :: (numberChars v.patch ++ (marked '-' v.pre ++ (marked '+' v.build ++ [])))) := by
    rw [chars, List.append_nil]
  have hNonempty : v.chars.isEmpty = false := by
    rw [hChars]
    simp [numberChars, Nat.toDigits_ne_nil]
  rw [parseChars, hNonempty, hChars]
  simp only [Bool.false_eq_true, if_false, hMajor, hMinor, hPatch, hPre, hBuild, parseDot,
    bind, Except.bind, pure, Except.pure, hGetD, v.pre_canonical, parseEnd, dif_pos]

/-- A version reads back from its text. -/
theorem parse_text (v : Version) : parse v.text = .ok v := by
  rw [parse, text, String.toList_ofList]
  exact parseChars_chars v

end Version

end ServiceBroker
