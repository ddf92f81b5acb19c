import ServiceBroker.Timestamp
import ServiceBroker.Proofs.Text.Digits

/-! Every moment reads back from its written form, whatever its year. -/

namespace ServiceBroker.Timestamp

variable {α β : Type}

/-- One reader goes on where another one stopped. -/
theorem reading_bind {reader : Reading α} {next : α → Reading β} {text rest : List Char} {value : α}
    (h : reader text = some (value, rest)) : (reader >>= next) text = next value rest := by
  change (reader text).bind (fun result => next result.1 result.2) = _
  rw [h, Option.bind_some]

theorem isBlank_of_isDigit {c : Char} (h : c.isDigit = true) : Text.isBlank c = false := by
  simp only [Char.isDigit, Bool.and_eq_true, decide_eq_true_eq] at h
  have hRange : 48 ≤ c.toNat ∧ c.toNat ≤ 57 := h
  simp only [Text.isBlank, Bool.or_eq_false_iff, Bool.and_eq_false_iff, decide_eq_false_iff_not,
    beq_eq_false_iff_ne]
  omega

/-- No blank stands in front. -/
def Unspaced (text : List Char) : Prop :=
  ∀ c, text.head? = some c → Text.isBlank c = false

theorem unspaced_cons {c : Char} (h : Text.isBlank c = false) (rest : List Char) :
    Unspaced (c :: rest) := by
  rintro d ⟨⟩
  exact h

theorem skipBlanks_of_unspaced {text : List Char} (h : Unspaced text) :
    skipBlanks text = some ((), text) := by
  have hTrim : Text.trimLeft text = text := by
    cases text with
    | nil => rfl
    | cons c rest => simp [Text.trimLeft, h c rfl]
  change some ((), Text.trimLeft text) = _
  rw [hTrim]

/-- A run of digits that ends where no more are wanted, or where no digit follows. -/
theorem someDigits_append {limit : Nat} {ds rest : List Char} (nonempty : ds ≠ [])
    (all : ∀ c ∈ ds, c.isDigit = true) (fits : ds.length ≤ limit)
    (ends : ds.length = limit ∨ ∀ c, rest.head? = some c → c.isDigit = false) :
    someDigits limit (ds ++ rest) = some (ds, rest) := by
  have hStop : ∀ c, (rest.take (limit - ds.length)).head? = some c → c.isDigit = false := by
    intro c hHead
    rcases ends with rfl | hEnds
    · simp at hHead
    · apply hEnds
      rw [List.head?_take] at hHead
      split at hHead
      · cases hHead
      · exact hHead
  have hTaken : ((ds ++ rest).take limit).takeWhile Char.isDigit = ds := by
    rw [List.take_append, List.take_of_length_le fits]
    exact (Text.takeWhile_append_stop all hStop).1
  simp [someDigits, hTaken, nonempty]

theorem digits_ne_nil {places : Nat} (positive : 0 < places) (n : Nat) :
    Text.digits places n ≠ [] := by
  intro hNil
  have hLength := Text.length_digits places n
  rw [hNil] at hLength
  exact absurd hLength (by simp; omega)

theorem unspaced_append {ds : List Char} (nonempty : ds ≠ [])
    (all : ∀ c ∈ ds, c.isDigit = true) (rest : List Char) : Unspaced (ds ++ rest) := by
  cases ds with
  | nil => exact (nonempty rfl).elim
  | cons d ds => exact unspaced_cons (isBlank_of_isDigit (all d (by simp))) _

/-- As many digits as are read at most. -/
theorem someDigits_digits {places : Nat} (positive : 0 < places) (n : Nat) (rest : List Char) :
    someDigits places (Text.digits places n ++ rest) = some (Text.digits places n, rest) :=
  someDigits_append (digits_ne_nil positive n) (fun _ h => Text.isDigit_of_mem_digits h)
    (Nat.le_of_eq (Text.length_digits places n)) (.inl (Text.length_digits places n))

theorem number_digits {n : Nat} (h : n < 100) (rest : List Char) :
    number (Text.digits 2 n ++ rest) = some (n, rest) := by
  have hSkip := skipBlanks_of_unspaced (unspaced_append (digits_ne_nil (by decide : 0 < 2) n)
    (fun _ h => Text.isDigit_of_mem_digits h) rest)
  have hValue : Text.natOfDigits (Text.digits 2 n) = n := by
    rw [Text.natOfDigits_digits]
    exact Nat.mod_eq_of_lt h
  rw [number, reading_bind hSkip]
  change (someDigits 2 (Text.digits 2 n ++ rest)).bind _ = _
  rw [someDigits_digits (by decide)]
  change some (Text.natOfDigits (Text.digits 2 n), rest) = _
  rw [hValue]

theorem mark_cons {c : Char} (h : Text.isBlank c = false) (rest : List Char) :
    mark c (c :: rest) = some ((), rest) := by
  rw [mark, reading_bind (skipBlanks_of_unspaced (unspaced_cons h rest))]
  have hFound : oneOf [c] (c :: rest) = some (c, rest) := if_pos (by simp)
  change (oneOf [c] (c :: rest)).bind (fun found => some ((), found.2)) = some ((), rest)
  rw [hFound]
  rfl

/-- Zeros in front do not count. -/
theorem natOfDigits_leftpad (places : Nat) (ds : List Char) :
    Text.natOfDigits (ds.leftpad places '0') = Text.natOfDigits ds := by
  rw [List.leftpad]
  induction places - ds.length with
  | zero => rfl
  | succ zeros ih =>
      rw [List.replicate_succ, List.cons_append]
      exact ih

theorem all_leftpad {places : Nat} {ds : List Char} (all : ∀ c ∈ ds, c.isDigit = true) :
    ∀ c ∈ ds.leftpad places '0', c.isDigit = true := by
  intro c h
  rcases List.mem_append.mp h with hZero | hDigit
  · rw [List.eq_of_mem_replicate hZero]
    decide
  · exact all c hDigit

/-- A year behind a sign has as many digits as it needs, and four at least. -/
theorem someDigits_year (n : Nat) {rest : List Char}
    (ends : ∀ c, rest.head? = some c → c.isDigit = false) :
    someDigits ((Nat.toDigits 10 n).leftpad 4 '0' ++ rest).length
        ((Nat.toDigits 10 n).leftpad 4 '0' ++ rest) =
      some ((Nat.toDigits 10 n).leftpad 4 '0', rest) := by
  refine someDigits_append ?_ (all_leftpad fun _ h => Text.isDigit_of_mem_toDigits h)
    (by simp) (.inr ends)
  simp [List.leftpad]

/-- Four digits are a year of their own. -/
theorem year_digits {n : Nat} (h : n < 10000) (rest : List Char) :
    year (Text.digits 4 n ++ rest) = some ((n : Int), rest) := by
  have hDigit : ∀ c ∈ Text.digits 4 n, c.isDigit = true := fun _ h => Text.isDigit_of_mem_digits h
  have hNil := digits_ne_nil (by decide : 0 < 4) n
  have hSkip := skipBlanks_of_unspaced (unspaced_append hNil hDigit rest)
  have hTaken := someDigits_digits (by decide : 0 < 4) n rest
  have hHead : ∀ c, (Text.digits 4 n ++ rest).head? = some c → c.isDigit = true := by
    intro c h
    rw [List.head?_append, List.head?_eq_some_head hNil, Option.some_or, Option.some.injEq] at h
    exact hDigit c (h ▸ List.head_mem hNil)
  have hValue : n % Decimal.powerOfTen 4 = n := by
    have hPower : Decimal.powerOfTen 4 = 10000 := by decide
    exact Nat.mod_eq_of_lt (hPower ▸ h)
  generalize Text.digits 4 n ++ rest = text at *
  have hGet : (get : Reading (List Char)) text = some (text, text) := rfl
  rw [year, reading_bind hSkip, reading_bind hGet]
  split
  · exact absurd (hHead '-' rfl) (by decide)
  · exact absurd (hHead '+' rfl) (by decide)
  · rw [reading_bind hTaken, Text.natOfDigits_digits, hValue]
    rfl

section Signed

variable (n : Nat) {rest : List Char} (ends : ∀ c, rest.head? = some c → c.isDigit = false)

include ends

theorem year_minus :
    year ('-' :: ((Nat.toDigits 10 n).leftpad 4 '0' ++ rest)) = some (-(n : Int), rest) := by
  rw [year, reading_bind (skipBlanks_of_unspaced (unspaced_cons (by decide) _))]
  change (someDigits ((Nat.toDigits 10 n).leftpad 4 '0' ++ rest).length
    ((Nat.toDigits 10 n).leftpad 4 '0' ++ rest)).bind _ = _
  rw [someDigits_year n ends]
  change some (-(Text.natOfDigits ((Nat.toDigits 10 n).leftpad 4 '0') : Int), rest) = _
  rw [natOfDigits_leftpad, Text.natOfDigits_toDigits]

theorem year_plus :
    year ('+' :: ((Nat.toDigits 10 n).leftpad 4 '0' ++ rest)) = some ((n : Int), rest) := by
  rw [year, reading_bind (skipBlanks_of_unspaced (unspaced_cons (by decide) _))]
  change (someDigits ((Nat.toDigits 10 n).leftpad 4 '0' ++ rest).length
    ((Nat.toDigits 10 n).leftpad 4 '0' ++ rest)).bind _ = _
  rw [someDigits_year n ends]
  change some ((Text.natOfDigits ((Nat.toDigits 10 n).leftpad 4 '0') : Int), rest) = _
  rw [natOfDigits_leftpad, Text.natOfDigits_toDigits]

end Signed

/-- A year reads back if no digit follows. -/
theorem year_yearChars (y : Int) {rest : List Char}
    (ends : ∀ c, rest.head? = some c → c.isDigit = false) :
    year (yearChars y ++ rest) = some (y, rest) := by
  unfold yearChars
  split
  · next hRange =>
    have hYear : (y.toNat : Int) = y := Int.toNat_of_nonneg hRange.1
    rw [year_digits (by omega), hYear]
  split
  · next hNegative =>
    have hYear : -(y.natAbs : Int) = y := by omega
    rw [List.cons_append, year_minus _ ends, hYear]
  · next hPositive =>
    have hYear : (y.natAbs : Int) = y := by omega
    rw [List.cons_append, year_plus _ ends, hYear]

/-- A date reads back, whatever follows. -/
theorem readDate_dateChars (t : Timestamp) {rest : List Char} :
    readDate (dateChars t ++ rest) = some (t.date, rest) := by
  obtain ⟨-, ⟨hMonthFirst, hMonthLast⟩, hDay, hDayLast⟩ := t.date.isDate
  have hDays : daysInMonth t.date.year t.date.month ≤ 31 := by
    unfold daysInMonth
    split
    · split <;> decide
    · split <;> decide
  rw [readDate, dateChars, List.append_assoc, List.cons_append, List.append_assoc, List.cons_append,
    reading_bind (year_yearChars t.date.year (by simp)), reading_bind (mark_cons (by decide) _),
    reading_bind (number_digits (by omega) _), reading_bind (mark_cons (by decide) _),
    reading_bind (number_digits (by omega) _), Date.of?_self]
  rfl

theorem natOfDigits_append_zeros (ds : List Char) (zeros : Nat) :
    Text.natOfDigits (ds ++ List.replicate zeros '0') =
      Text.natOfDigits ds * Decimal.powerOfTen zeros := by
  induction zeros with
  | zero => simp [Decimal.powerOfTen]
  | succ zeros ih =>
      have hZero : '0'.toNat - '0'.toNat = 0 := rfl
      rw [List.replicate_succ', ← List.append_assoc, Text.natOfDigits_concat, ih, hZero,
        Nat.add_zero, Decimal.powerOfTen_succ, Nat.mul_assoc]

theorem readFraction_digits {places n : Nat} (positive : 0 < places) (fits : places ≤ 9)
    (h : n < Decimal.powerOfTen places) (rest : List Char) :
    readFraction ('.' :: (Text.digits places n ++ 'Z' :: rest)) =
      some (n * Decimal.powerOfTen (9 - places), 'Z' :: rest) := by
  have hTaken : someDigits 9 (Text.digits places n ++ 'Z' :: rest) =
      some (Text.digits places n, 'Z' :: rest) :=
    someDigits_append (digits_ne_nil positive n) (fun _ h => Text.isDigit_of_mem_digits h)
      (by simpa using fits) (.inr (by rintro c ⟨⟩; decide))
  change (someDigits 9 (Text.digits places n ++ 'Z' :: rest)).bind _ = _
  rw [hTaken, Option.bind_some]
  change some (Text.natOfDigits (Text.digits places n ++
    List.replicate (9 - (Text.digits places n).length) '0'), 'Z' :: rest) = _
  rw [natOfDigits_append_zeros, Text.natOfDigits_digits, Nat.mod_eq_of_lt h, Text.length_digits]

/-- The fraction of a second reads back. -/
theorem readFraction_fractionChars {nanosecond : Nat} (h : nanosecond < 1000000000)
    (rest : List Char) :
    readFraction (fractionChars nanosecond ++ 'Z' :: rest) = some (nanosecond, 'Z' :: rest) := by
  have hThree : Decimal.powerOfTen 3 = 1000 := by decide
  have hSix : Decimal.powerOfTen 6 = 1000000 := by decide
  have hNine : Decimal.powerOfTen 9 = 1000000000 := by decide
  have hNone : Decimal.powerOfTen 0 = 1 := by decide
  unfold fractionChars
  split
  · next hZero =>
    rw [hZero]
    rfl
  split
  · next hMilli =>
    rw [List.cons_append, readFraction_digits (by decide) (by decide) (by omega)]
    congr 2
    change nanosecond / 1000000 * Decimal.powerOfTen 6 = nanosecond
    rw [hSix]
    omega
  split
  · next hMicro =>
    rw [List.cons_append, readFraction_digits (by decide) (by decide) (by omega)]
    congr 2
    change nanosecond / 1000 * Decimal.powerOfTen 3 = nanosecond
    rw [hThree]
    omega
  · rw [List.cons_append, readFraction_digits (by decide) (by decide) (by omega)]
    congr 2
    change nanosecond * Decimal.powerOfTen 0 = nanosecond
    rw [hNone, Nat.mul_one]

theorem readOffset_zulu (rest : List Char) : readOffset ('Z' :: rest) = some (0, rest) := by
  rfl

/-- Clocks that are not ahead show the moment itself. -/
theorem behind?_zero (t : Timestamp) : t.behind? 0 = some t := by
  have hHour := t.isTime.1
  have hMinute := t.isTime.2.1
  have hMinutes : (t.hour * 60 + t.minute - 0 : Int).toNat = t.hour * 60 + t.minute := by omega
  have hClock : (t.hour * 60 + t.minute) / 60 = t.hour := by omega
  have hLeft : (t.hour * 60 + t.minute) % 60 = t.minute := by omega
  rw [behind?, if_neg (by omega), if_pos (by omega), hMinutes]
  simp only [hClock, hLeft, of?_self]

/-- A moment is read back from its written form. -/
@[simp]
theorem ofText?_text (t : Timestamp) : ofText? t.text = some t := by
  obtain ⟨hHour, hMinute, hSecond, hNanosecond⟩ := t.isTime
  have hChars : t.chars = dateChars t ++ 'T' :: (Text.digits 2 t.hour ++ ':' ::
      (Text.digits 2 t.minute ++ ':' :: (Text.digits 2 t.second ++
        (fractionChars t.nanosecond ++ ['Z'])))) := by
    simp [chars, clockChars]
  have hT (rest : List Char) : oneOf ['T', 't', ' '] ('T' :: rest) = some ('T', rest) := rfl
  have hSkip : skipBlanks ['Z'] = some ((), ['Z']) :=
    skipBlanks_of_unspaced (unspaced_cons (by decide) [])
  have hEnd : skipBlanks [] = some ((), []) := rfl
  have hRead : read t.chars = some (t, []) := by
    rw [hChars, read, reading_bind (readDate_dateChars t), reading_bind (hT _),
      reading_bind (number_digits (by omega) _), reading_bind (mark_cons (by decide) _),
      reading_bind (number_digits (by omega) _), reading_bind (mark_cons (by decide) _),
      reading_bind (number_digits (by omega) _),
      reading_bind (readFraction_fractionChars hNanosecond []), reading_bind hSkip,
      reading_bind (readOffset_zulu []), reading_bind hEnd, of?_self]
    simp only [Option.elim_some, pure_bind, behind?_zero]
    rfl
  rw [ofText?, text, String.toList_ofList, ofChars?, hRead]

end ServiceBroker.Timestamp
