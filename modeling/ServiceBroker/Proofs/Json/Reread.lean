import ServiceBroker.Json.Printer
import ServiceBroker.Document.Decoder
import ServiceBroker.Proofs.Json.Layout
import ServiceBroker.Proofs.Text.Bytes
import ServiceBroker.Proofs.Text.Digits

/-! Reading back what was written. The compact form and the indented form of a value are read as the
document that is built like the value, except that each number is what its text is read as; a text
that is out of range is no number, and nothing that holds it can be read. -/

namespace ServiceBroker.Json

namespace Reader

/-- What is read if a text follows and then nothing. -/
def resume (r : Reader) (text : List Char) : Option Document :=
  (text.foldlM step r).bind finish

@[simp]
theorem resume_nil (r : Reader) : r.resume [] = r.finish :=
  rfl

theorem resume_cons (r : Reader) (c : Char) (text : List Char) :
    r.resume (c :: text) = (r.step c).bind fun r => r.resume text := by
  rw [resume, List.foldlM_cons]
  cases r.step c <;> rfl

/-- A string of which some characters have been read. -/
def opened (isKey : Bool) (before : List Char) : OpenString :=
  { isKey, before, sound := true, half := none, escape := .outside }

theorem hexValue?_hexDigit {n : Nat} (h : n < 16) : hexValue? (hexDigit n) = some n := by
  have hAll : ∀ m : Fin 16, hexValue? (hexDigit m) = some m.val := by decide
  exact hAll ⟨n, h⟩

theorem resume_escapeChar (isKey : Bool) (before : List Char) (stack : List Frame) (c : Char)
    (rest : List Char) :
    resume ⟨.string (opened isKey before), stack⟩ (escapeChar c ++ rest) =
      resume ⟨.string (opened isKey (c :: before)), stack⟩ rest := by
  unfold escapeChar
  split
  · subst_vars
    rfl
  split
  · subst_vars
    rfl
  split
  · subst_vars
    rfl
  split
  · subst_vars
    rfl
  split
  · subst_vars
    rfl
  split
  · subst_vars
    rfl
  split
  · subst_vars
    rfl
  split
  · next hControl =>
      have hHigh := hexValue?_hexDigit (show c.toNat / 16 < 16 by omega)
      have hLow := hexValue?_hexDigit (show c.toNat % 16 < 16 by omega)
      have hZero : hexValue? '0' = some 0 := by decide
      have hCode : c.toNat / 16 * 16 + c.toNat % 16 = c.toNat := by omega
      have hLower : ¬(0xD800 ≤ c.toNat ∧ c.toNat < 0xDC00) := by omega
      have hUpper : ¬(0xDC00 ≤ c.toNat ∧ c.toNat < 0xE000) := by omega
      simp [resume_cons, step, stepPlain, withinString, opened, hZero, hHigh, hLow, hCode, pushUnit,
        hLower, hUpper, push, Char.ofNat_toNat]
  · next hQuote hBackslash _ _ _ _ _ hControl =>
      simp [resume_cons, step, stepPlain, withinString, opened, push, hQuote, hBackslash, hControl]

theorem resume_string (isKey : Bool) (before : List Char) (stack : List Frame)
    (cs rest : List Char) :
    resume ⟨.string (opened isKey before), stack⟩ (cs.flatMap escapeChar ++ rest) =
      resume ⟨.string (opened isKey (cs.reverse ++ before)), stack⟩ rest := by
  induction cs generalizing before with
  | nil => rfl
  | cons c cs ih =>
      rw [List.flatMap_cons, List.append_assoc, resume_escapeChar, ih]
      simp

theorem text?_opened (isKey : Bool) (s : String) :
    OpenString.text? (opened isKey (s.toList.reverse ++ [])) = some s := by
  simp [OpenString.text?, opened]

theorem stringText_append (s : String) (rest : List Char) :
    stringText s ++ rest = '"' :: (s.toList.flatMap escapeChar ++ '"' :: rest) := by
  simp [stringText]

theorem step_end_text (before : List Char) (stack : List Frame) :
    step ⟨.string (opened false before), stack⟩ '"' =
      some (give (.scalar (((OpenString.text? (opened false before)).map Scalar.ofText).getD {}))
        stack) :=
  rfl

theorem step_end_key (before : List Char) (stack : List Frame) :
    step ⟨.string (opened true before), stack⟩ '"' =
      some ⟨.colon (OpenString.text? (opened true before)), stack⟩ :=
  rfl

/-- A text reads back as a text. -/
theorem resume_stringText (s : String) (stack : List Frame) (rest : List Char) :
    resume ⟨.value, stack⟩ (stringText s ++ rest) =
      resume (give (.scalar (.ofText s)) stack) rest := by
  have hBegin : step ⟨.value, stack⟩ '"' = some ⟨.string (opened false []), stack⟩ := rfl
  rw [stringText_append, resume_cons, hBegin, Option.bind_some, resume_string, resume_cons,
    step_end_text, text?_opened]
  rfl

/-- A key reads back as a key; the first one may stand behind the brace. -/
theorem resume_key {phase : Phase} (key : String) (before : List (Option String × Document))
    (stack : List Frame) (rest : List Char) (h : phase = .key ∨ phase = .keyOrEnd) :
    resume ⟨phase, .object before none :: stack⟩ (stringText key ++ ':' :: rest) =
      resume ⟨.value, .object before (some key) :: stack⟩ rest := by
  have hBegin : step ⟨phase, .object before none :: stack⟩ '"' =
      some ⟨.string (opened true []), .object before none :: stack⟩ := by
    rcases h with rfl | rfl <;> rfl
  have hColon : step ⟨.colon (some key), .object before none :: stack⟩ ':' =
      some ⟨.value, .object before (some key) :: stack⟩ := rfl
  rw [stringText_append, resume_cons, hBegin, Option.bind_some, resume_string, resume_cons,
    step_end_key, text?_opened, Option.bind_some, resume_cons, hColon, Option.bind_some]

/-- What may follow a number: nothing, or a character that ends it. -/
def Delimited (rest : List Char) : Prop :=
  ∀ c, rest.head? = some c → isNumberChar c = false

theorem delimited_nil : Delimited [] := by
  intro c h
  cases h

theorem delimited_cons {c : Char} (h : isNumberChar c = false) (rest : List Char) :
    Delimited (c :: rest) := by
  rintro d ⟨⟩
  exact h

/-- A text of the kind that numbers have. -/
structure Numeric (cs : List Char) : Prop where
  all : ∀ c ∈ cs, isNumberChar c = true
  head : ∃ c rest, cs = c :: rest ∧ (c.isDigit = true ∨ c = '-')

theorem resume_number (before : List Char) (stack : List Frame) {cs : List Char} (rest : List Char)
    (h : ∀ c ∈ cs, isNumberChar c = true) :
    resume ⟨.number before, stack⟩ (cs ++ rest) =
      resume ⟨.number (cs.reverse ++ before), stack⟩ rest := by
  induction cs generalizing before with
  | nil => rfl
  | cons c cs ih =>
      have hStep : step ⟨.number before, stack⟩ c = some ⟨.number (c :: before), stack⟩ := by
        simp [step, h c (by simp)]
      rw [List.cons_append, resume_cons, hStep, Option.bind_some,
        ih (c :: before) fun d hd => h d (by simp [hd])]
      simp

/-- Where a value has ended no number goes on. -/
theorem step_give (document : Document) (stack : List Frame) (c : Char) :
    step (give document stack) c =
      stepPlain (give document stack).phase (give document stack).stack c := by
  rcases stack with _ | ⟨before | ⟨before, key⟩, stack⟩ <;> rfl

/-- What follows a number shows what it was. -/
theorem resume_number_end (before : List Char) (stack : List Frame) {rest : List Char}
    (h : Delimited rest) :
    resume ⟨.number before, stack⟩ rest =
      (numberDocument? before).bind fun document => resume (give document stack) rest := by
  cases rest with
  | nil =>
      rcases stack with _ | ⟨frame, stack⟩
      · simp only [resume_nil, finish, give]
        cases numberDocument? before <;> rfl
      · cases frame <;> cases numberDocument? before <;> rfl
  | cons c rest =>
      have hStop : isNumberChar c = false := h c rfl
      cases hNumber : numberDocument? before with
      | none => simp [resume_cons, step, hStop, hNumber]
      | some document =>
          have hStep : step ⟨.number before, stack⟩ c = step (give document stack) c := by
            rw [step_give]
            simp [step, hStop, hNumber]
          rw [resume_cons, hStep, Option.bind_some, resume_cons]

/-- A number begins like nothing else does. -/
theorem not_special {c : Char} (h : c.isDigit = true ∨ c = '-') :
    c ≠ '"' ∧ c ≠ '[' ∧ c ≠ '{' ∧ c ≠ 'n' ∧ c ≠ 't' ∧ c ≠ 'f' ∧ c ≠ ']' ∧ isSpace c = false := by
  have hSpace : isSpace c = false := by
    cases hBlank : isSpace c with
    | false => rfl
    | true =>
        simp only [isSpace, Bool.or_eq_true, decide_eq_true_eq] at hBlank
        rcases hBlank with ((rfl | rfl) | rfl) | rfl <;> revert h <;> decide
  refine ⟨?_, ?_, ?_, ?_, ?_, ?_, ?_, hSpace⟩ <;> rintro rfl <;> revert h <;> decide

theorem step_value_number (stack : List Frame) {c : Char} (h : c.isDigit = true ∨ c = '-') :
    step ⟨.value, stack⟩ c = some ⟨.number [c], stack⟩ := by
  obtain ⟨hQuote, hBracket, hBrace, hNull, hTrue, hFalse, -, hSpace⟩ := not_special h
  have hBegin : (c.isDigit || decide (c = '-')) = true := by simpa using h
  simp only [step, stepPlain, hSpace, beginValue, if_neg hQuote, if_neg hBracket, if_neg hBrace,
    if_neg hNull, if_neg hTrue, if_neg hFalse, hBegin, if_true, Bool.false_eq_true, if_false]

/-- A number is read as what its text says. -/
theorem resume_numeric {cs : List Char} (numeric : Numeric cs) (stack : List Frame)
    {rest : List Char} (h : Delimited rest) :
    resume ⟨.value, stack⟩ (cs ++ rest) =
      (numberDocument? cs.reverse).bind fun document => resume (give document stack) rest := by
  obtain ⟨hAll, c, cs, rfl, hHead⟩ := numeric
  rw [List.cons_append, resume_cons, step_value_number stack hHead, Option.bind_some,
    resume_number [c] stack rest fun d hd => hAll d (by simp [hd]), resume_number_end _ stack h]
  simp

end Reader

namespace Number

open Reader

theorem isNumberChar_of_isDigit {c : Char} (h : c.isDigit = true) : isNumberChar c = true := by
  simp [isNumberChar, h]

theorem all_digits (n : Nat) : ∀ c ∈ digits n, isNumberChar c = true := fun c h =>
  isNumberChar_of_isDigit (Nat.isDigit_of_mem_toDigits (by decide) (by decide) h)

theorem digits_eq_cons (n : Nat) : ∃ c cs, digits n = c :: cs ∧ c.isDigit = true := by
  cases hDigits : digits n with
  | nil => exact (Nat.toDigits_ne_nil hDigits).elim
  | cons c cs =>
      have hMember : c ∈ Nat.toDigits 10 n := by
        rw [← digits, hDigits]
        simp
      exact ⟨c, cs, rfl, Nat.isDigit_of_mem_toDigits (by decide) (by decide) hMember⟩

theorem isNumberChar_of_mem_replicate {n : Nat} {c : Char} (h : c ∈ List.replicate n '0') :
    isNumberChar c = true := by
  rw [(List.mem_replicate.mp h).2]
  decide

/-- Positional or with an exponent, a number consists of characters of numbers. -/
theorem all_scientificText (x : Decimal.Scientific) :
    ∀ c ∈ scientificText x, isNumberChar c = true := by
  have hPoint : isNumberChar '.' = true := by decide
  have hZero : isNumberChar '0' = true := by decide
  have hMark : isNumberChar 'e' = true := by decide
  have hPlus : isNumberChar '+' = true := by decide
  have hMinus : isNumberChar '-' = true := by decide
  have hDigits := all_digits x.digits
  intro c hc
  unfold scientificText at hc
  simp only at hc
  split at hc
  · split at hc
    · simp only [List.mem_append, List.mem_cons, List.not_mem_nil, or_false] at hc
      rcases hc with (h | h) | rfl | rfl
      · exact hDigits c h
      · exact isNumberChar_of_mem_replicate h
      · exact hPoint
      · exact hZero
    · split at hc
      · rcases List.mem_append.mp hc with h | h
        · exact hDigits c (List.mem_of_mem_take h)
        · rcases List.mem_cons.mp h with rfl | h
          · exact hPoint
          · exact hDigits c (List.mem_of_mem_drop h)
      · simp only [List.cons_append, List.mem_append, List.mem_cons] at hc
        rcases hc with rfl | rfl | h | h
        · exact hZero
        · exact hPoint
        · exact isNumberChar_of_mem_replicate h
        · exact hDigits c h
  · rcases List.mem_append.mp hc with h | h
    · split at h
      · next first second rest hShape =>
          rw [hShape] at hDigits
          simp only [List.mem_cons] at h
          rcases h with rfl | rfl | rfl | h
          · exact hDigits c (by simp)
          · exact hPoint
          · exact hDigits c (by simp)
          · exact hDigits c (by simp [h])
      · exact hDigits c h
    · simp only [List.mem_cons] at h
      rcases h with rfl | rfl | h
      · exact hMark
      · split
        · exact hPlus
        · exact hMinus
      · exact all_digits _ c h

theorem scientificText_eq_cons (x : Decimal.Scientific) :
    ∃ c cs, scientificText x = c :: cs ∧ c.isDigit = true := by
  obtain ⟨c, cs, hDigits, hDigit⟩ := digits_eq_cons x.digits
  unfold scientificText
  simp only [hDigits]
  split
  · split
    · exact ⟨c, _, rfl, hDigit⟩
    · split
      · exact ⟨c, _, rfl, hDigit⟩
      · exact ⟨'0', _, rfl, by decide⟩
  · cases cs with
    | nil => exact ⟨c, _, rfl, hDigit⟩
    | cons d cs => exact ⟨c, _, rfl, hDigit⟩

theorem numeric_cons {c : Char} {cs : List Char} (head : c.isDigit = true ∨ c = '-')
    (all : ∀ d ∈ cs, isNumberChar d = true) : Numeric (c :: cs) where
  all d hd := by
    rcases List.mem_cons.mp hd with rfl | hd
    · rcases head with h | rfl
      · exact isNumberChar_of_isDigit h
      · decide
    · exact all d hd
  head := ⟨c, cs, rfl, head⟩

theorem numeric_digits (n : Nat) : Numeric (digits n) := by
  obtain ⟨c, cs, hDigits, hDigit⟩ := digits_eq_cons n
  exact ⟨all_digits n, c, cs, hDigits, .inl hDigit⟩

/-- Every number is written as numbers are. -/
theorem numeric_text (n : Number) : Numeric n.text := by
  cases n with
  | integer n =>
      cases n with
      | ofNat n => exact numeric_digits n
      | negSucc n => exact numeric_cons (.inr rfl) (all_digits (n + 1))
  | double x =>
      have hZero : ∀ d ∈ ['0', '.', '0'], isNumberChar d = true := List.all_eq_true.mp rfl
      simp only [text, doubleText]
      split
      · split
        · exact numeric_cons (.inl (by decide)) (List.all_eq_true.mp rfl)
        · exact numeric_cons (.inr rfl) hZero
      · split
        · rw [List.nil_append]
          obtain ⟨c, cs, hText, hDigit⟩ := scientificText_eq_cons _
          exact ⟨all_scientificText _, c, cs, hText, .inl hDigit⟩
        · exact numeric_cons (.inr rfl) (all_scientificText _)

theorem spanDigits_digits (n : Nat) : spanDigits (digits n) = (digits n, []) := by
  have hAll : ∀ c ∈ digits n, c.isDigit = true := fun c h => Text.isDigit_of_mem_toDigits h
  have hNone : ∀ c, ([] : List Char).head? = some c → c.isDigit = false := by simp
  obtain ⟨hTake, hDrop⟩ := Text.takeWhile_append_stop hAll hNone
  rw [List.append_nil] at hTake hDrop
  rw [spanDigits, hTake, hDrop]

theorem readWhole?_digits (n : Nat) : readWhole? (digits n) = some (digits n, []) := by
  rw [readWhole?, spanDigits_digits]
  split
  · next h => exact (Nat.toDigits_ne_nil (Prod.mk.inj h).1).elim
  · next h => exact (Text.toDigits_ne_leading_zero _ _ _ (Prod.mk.inj h).1).elim
  · rfl

theorem natOfDigits_digits (n : Nat) : Text.natOfDigits (digits n) = n :=
  Text.natOfDigits_toDigits n

/-- Digits alone are read as digits alone, with the sign that stands before them. -/
theorem ofText?_digits (n : Nat) :
    Written.ofText? (digits n) = some ⟨false, digits n, none, none⟩ ∧
      Written.ofText? ('-' :: digits n) = some ⟨true, digits n, none, none⟩ := by
  obtain ⟨c, cs, hDigits, hDigit⟩ := digits_eq_cons n
  have hSign : c ≠ '-' := by
    rintro rfl
    revert hDigit
    decide
  have hWhole : readWhole? (c :: cs) = some (c :: cs, []) := by
    rw [← hDigits, readWhole?_digits]
  constructor
  · rw [hDigits, Written.ofText?, hWhole]
    · rfl
    · intro rest hMinus
      exact hSign (List.cons.inj hMinus).1
  · simp only [Written.ofText?, readWhole?_digits]
    rfl

/-- An integer of 64 bits reads back. -/
theorem numberDocument?_integer {n : Int} (h : keeps n = true) :
    Reader.numberDocument? (integer n).text.reverse =
      some (.scalar (.ofNumber (some (.integer n)))) := by
  rw [Reader.numberDocument?, List.reverse_reverse]
  cases n with
  | ofNat n =>
      rw [text, (ofText?_digits n).1, Option.map_some]
      have hNumber : Written.number? ⟨false, digits n, none, none⟩ = some (.integer n) := by
        have hKeeps : keeps (n : Int) = true := h
        simp [Written.number?, natOfDigits_digits, hKeeps]
      rw [hNumber]
      rfl
  | negSucc n =>
      rw [text, (ofText?_digits (n + 1)).2, Option.map_some]
      have hNumber : Written.number? ⟨true, digits (n + 1), none, none⟩ =
          some (.integer (.negSucc n)) := by
        have hKeeps : keeps (-((n + 1 : Nat) : Int)) = true := h
        simp only [Written.number?, natOfDigits_digits, hKeeps]
        rfl
      rw [hNumber]

end Number

mutual

/-- The document that the text of a value is read as. -/
def reread? : Json → Option Document
  | .null => some (.scalar .ofNull)
  | .bool b => some (.scalar (.ofBool b))
  | .number n => Reader.numberDocument? n.text.reverse
  | .string s => some (.scalar (.ofText s))
  | .array items => (rereadItems? items).map .sequence
  | .object members => (rereadMembers? members).map .mapping

/-- The documents that the texts of items are read as. -/
def rereadItems? : List Json → Option (List Document)
  | [] => some []
  | item :: items =>
    (reread? item).bind fun document => (rereadItems? items).map (document :: ·)

/-- The members that the texts of members are read as. -/
def rereadMembers? : List (String × Json) → Option (List (Option String × Document))
  | [] => some []
  | (key, value) :: members =>
    (reread? value).bind fun document => (rereadMembers? members).map ((some key, document) :: ·)

end

namespace Reader

/-- No value begins with a blank or ends an array. -/
theorem written_eq_cons (layout : Layout) (level : Nat) (value : Json) :
    ∃ c cs, value.written layout level = c :: cs ∧ c ≠ ']' ∧ isSpace c = false := by
  cases value with
  | null => exact ⟨'n', _, rfl, by decide, by decide⟩
  | bool b => cases b <;> exact ⟨_, _, rfl, by decide, by decide⟩
  | number n =>
      obtain ⟨-, c, cs, hText, hHead⟩ := Number.numeric_text n
      obtain ⟨-, -, -, -, -, -, hClose, hSpace⟩ := not_special hHead
      exact ⟨c, cs, hText, hClose, hSpace⟩
  | string s => exact ⟨'"', _, rfl, by decide, by decide⟩
  | array items => cases items <;> exact ⟨'[', _, rfl, by decide, by decide⟩
  | object members => cases members <;> exact ⟨'\x7b', _, rfl, by decide, by decide⟩

/-- Between tokens the reader passes over blanks. -/
def Idle : Phase → Prop
  | .string _ | .word _ _ | .number _ => False
  | _ => True

theorem idle_give (document : Document) (stack : List Frame) :
    Idle (give document stack).phase := by
  rcases stack with _ | ⟨_ | _, stack⟩ <;> trivial

theorem resume_blank (r : Reader) (idle : Idle r.phase) {blanks : List Char} (h : Blank blanks)
    (rest : List Char) : r.resume (blanks ++ rest) = r.resume rest := by
  induction blanks with
  | nil => rfl
  | cons c blanks ih =>
      obtain ⟨hSpace, hBlanks⟩ := List.forall_mem_cons.mp h
      have hStep : r.step c = some r := by
        obtain ⟨phase, stack⟩ := r
        cases phase with
        | string | word | number => exact idle.elim
        | _ => simp [step, stepPlain, hSpace]
      rw [List.cons_append, resume_cons, hStep, Option.bind_some, ih hBlanks]

theorem delimited_blank {blanks rest : List Char} (h : Blank blanks) (delimited : Delimited rest) :
    Delimited (blanks ++ rest) := by
  cases blanks with
  | nil => exact delimited
  | cons c blanks =>
      refine delimited_cons ?_ _
      have hSpace := h c List.mem_cons_self
      simp only [isSpace, Bool.or_eq_true, decide_eq_true_eq] at hSpace
      rcases hSpace with ((rfl | rfl) | rfl) | rfl <;> decide

/-- Items begin with the blanks before the first one. -/
theorem writtenItems_eq_append (layout : Layout) (level : Nat) (item : Json) (items : List Json) :
    ∃ rest, writtenItems layout level (item :: items) =
      layout.line level ++ (item.written layout level ++ rest) := by
  cases items with
  | nil => exact ⟨[], by rw [writtenItems, List.append_nil]⟩
  | cons next items =>
      exact ⟨',' :: writtenItems layout level (next :: items), by rw [writtenItems] <;> simp⟩

/-- The first item of an array is read like any other value. -/
theorem resume_first (layout : Layout) (level : Nat) (item : Json) (items : List Json)
    (before : List Document) (stack : List Frame) (rest : List Char) :
    resume ⟨.itemOrEnd, .array before :: stack⟩
        (writtenItems layout level (item :: items) ++ rest) =
      resume ⟨.value, .array before :: stack⟩
        (writtenItems layout level (item :: items) ++ rest) := by
  obtain ⟨later, hItems⟩ := writtenItems_eq_append layout level item items
  obtain ⟨c, cs, hText, hClose, hSpace⟩ := written_eq_cons layout level item
  have hStep : step ⟨.itemOrEnd, .array before :: stack⟩ c =
      step ⟨.value, .array before :: stack⟩ c := by
    simp [step, stepPlain, hSpace, close, hClose]
  rw [hItems, List.append_assoc, resume_blank ⟨.itemOrEnd, _⟩ trivial (layout.blank_line level),
    resume_blank ⟨.value, _⟩ trivial (layout.blank_line level), hText, List.append_assoc,
    List.cons_append, resume_cons, hStep, resume_cons]

theorem delimited_comma (rest : List Char) : Delimited (',' :: rest) :=
  delimited_cons (by decide) rest

theorem delimited_bracket (rest : List Char) : Delimited (']' :: rest) :=
  delimited_cons (by decide) rest

theorem delimited_brace (rest : List Char) : Delimited ('\x7d' :: rest) :=
  delimited_cons (by decide) rest

mutual

/-- A value reads back, whatever its layout, whatever it stands in and whatever follows. -/
theorem resume_written (layout : Layout) : ∀ (value : Json) (level : Nat) (stack : List Frame)
    (rest : List Char), Delimited rest →
    resume ⟨.value, stack⟩ (value.written layout level ++ rest) =
      value.reread?.bind fun document => resume (give document stack) rest
  | .null, _, _, _, _ => rfl
  | .bool true, _, _, _, _ => rfl
  | .bool false, _, _, _, _ => rfl
  | .number n, _, stack, _, h => by
      rw [written, resume_numeric (Number.numeric_text n) stack h, reread?]
  | .string s, _, stack, rest, _ => by
      rw [written, resume_stringText, reread?, Option.bind_some]
  | .array [], _, _, _, _ => rfl
  | .array (item :: items), level, stack, rest, _ => by
      have hText : (array (item :: items)).written layout level ++ rest =
          '[' :: (writtenItems layout (level + 1) (item :: items) ++
            (layout.line level ++ ']' :: rest)) := by
        simp [written]
      have hOpen : step ⟨.value, stack⟩ '[' = some ⟨.itemOrEnd, .array [] :: stack⟩ := rfl
      rw [hText, resume_cons, hOpen, Option.bind_some, resume_first,
        resume_items layout (item :: items) (level + 1) (layout.blank_line level) [] stack rest
          (by simp),
        reread?, Option.bind_map]
      rfl
  | .object [], _, _, _, _ => rfl
  | .object ((key, value) :: members), level, stack, rest, _ => by
      have hText : (object ((key, value) :: members)).written layout level ++ rest =
          '\x7b' :: (writtenMembers layout (level + 1) ((key, value) :: members) ++
            (layout.line level ++ '\x7d' :: rest)) := by
        simp [written]
      have hOpen : step ⟨.value, stack⟩ '\x7b' = some ⟨.keyOrEnd, .object [] none :: stack⟩ := rfl
      rw [hText, resume_cons, hOpen, Option.bind_some,
        resume_members layout ((key, value) :: members) (level + 1) (layout.blank_line level)
          .keyOrEnd [] stack rest (by simp) (.inr rfl),
        reread?, Option.bind_map]
      rfl

/-- Items read back up to the end of their array. -/
theorem resume_items (layout : Layout) : ∀ (items : List Json) (level : Nat)
    {blanks : List Char} (_ : Blank blanks) (before : List Document) (stack : List Frame)
    (rest : List Char), items ≠ [] →
    resume ⟨.value, .array before :: stack⟩
        (writtenItems layout level items ++ (blanks ++ ']' :: rest)) =
      (rereadItems? items).bind fun documents =>
        resume (give (.sequence (before.reverse ++ documents)) stack) rest
  | [], _, _, _, _, _, _, h => (h rfl).elim
  | [item], level, blanks, hBlanks, before, stack, rest, _ => by
      have hEnd (document : Document) :
          resume (give document (.array before :: stack)) (blanks ++ ']' :: rest) =
            resume (give (.sequence (before.reverse ++ [document])) stack) rest := by
        rw [resume_blank _ (idle_give _ _) hBlanks, resume_cons, ← List.reverse_cons]
        rfl
      rw [writtenItems, List.append_assoc,
        resume_blank ⟨.value, _⟩ trivial (layout.blank_line level),
        resume_written layout item _ _ _ (delimited_blank hBlanks (delimited_bracket rest))]
      simp only [hEnd, rereadItems?, Option.map_some, Option.bind_assoc, Option.bind_some]
  | item :: next :: items, level, blanks, hBlanks, before, stack, rest, _ => by
      have hNext (document : Document) :
          resume (give document (.array before :: stack))
              (',' :: (writtenItems layout level (next :: items) ++ (blanks ++ ']' :: rest))) =
            (rereadItems? (next :: items)).bind fun documents =>
              resume (give (.sequence (before.reverse ++ document :: documents)) stack) rest := by
        have hComma : step (give document (.array before :: stack)) ',' =
            some ⟨.value, .array (document :: before) :: stack⟩ := rfl
        rw [resume_cons, hComma, Option.bind_some,
          resume_items layout (next :: items) level hBlanks (document :: before) stack rest
            (by simp)]
        simp
      have hText : writtenItems layout level (item :: next :: items) ++ (blanks ++ ']' :: rest) =
          layout.line level ++ (item.written layout level ++
            ',' :: (writtenItems layout level (next :: items) ++ (blanks ++ ']' :: rest))) := by
        rw [writtenItems] <;> simp
      rw [hText, resume_blank ⟨.value, _⟩ trivial (layout.blank_line level),
        resume_written layout item _ _ _ (delimited_comma _), rereadItems?]
      simp only [hNext, Option.bind_assoc, Option.bind_map, Function.comp_def]

/-- Members read back up to the end of their object. -/
theorem resume_members (layout : Layout) : ∀ (members : List (String × Json)) (level : Nat)
    {blanks : List Char} (_ : Blank blanks) (phase : Phase)
    (before : List (Option String × Document)) (stack : List Frame) (rest : List Char),
    members ≠ [] → phase = .key ∨ phase = .keyOrEnd →
    resume ⟨phase, .object before none :: stack⟩
        (writtenMembers layout level members ++ (blanks ++ '\x7d' :: rest)) =
      (rereadMembers? members).bind fun documents =>
        resume (give (.mapping (before.reverse ++ documents)) stack) rest
  | [], _, _, _, _, _, _, _, nonempty, _ => (nonempty rfl).elim
  | [(key, value)], level, blanks, hBlanks, phase, before, stack, rest, _, h => by
      have hEnd (document : Document) :
          resume (give document (.object before (some key) :: stack)) (blanks ++ '\x7d' :: rest) =
            resume (give (.mapping (before.reverse ++ [(some key, document)])) stack) rest := by
        rw [resume_blank _ (idle_give _ _) hBlanks, resume_cons, ← List.reverse_cons]
        rfl
      have hText : writtenMembers layout level [(key, value)] ++ (blanks ++ '\x7d' :: rest) =
          layout.line level ++ (stringText key ++ ':' :: (layout.gap ++
            (value.written layout level ++ (blanks ++ '\x7d' :: rest)))) := by
        simp [writtenMembers]
      have hIdle : Idle phase := by
        rcases h with rfl | rfl <;> trivial
      rw [hText, resume_blank ⟨phase, _⟩ hIdle (layout.blank_line level),
        resume_key key before stack _ h, resume_blank ⟨.value, _⟩ trivial layout.blank_gap,
        resume_written layout value _ _ _ (delimited_blank hBlanks (delimited_brace rest))]
      simp only [hEnd, rereadMembers?, Option.map_some, Option.bind_assoc, Option.bind_some]
  | (key, value) :: (nextKey, next) :: members, level, blanks, hBlanks, phase, before, stack, rest,
      _, h => by
      have hNext (document : Document) :
          resume (give document (.object before (some key) :: stack))
              (',' :: (writtenMembers layout level ((nextKey, next) :: members) ++
                (blanks ++ '\x7d' :: rest))) =
            (rereadMembers? ((nextKey, next) :: members)).bind fun documents =>
              resume (give (.mapping (before.reverse ++ (some key, document) :: documents)) stack)
                rest := by
        have hComma : step (give document (.object before (some key) :: stack)) ',' =
            some ⟨.key, .object ((some key, document) :: before) none :: stack⟩ := rfl
        rw [resume_cons, hComma, Option.bind_some,
          resume_members layout ((nextKey, next) :: members) level hBlanks .key _ stack rest
            (by simp) (.inl rfl)]
        simp
      have hText : writtenMembers layout level ((key, value) :: (nextKey, next) :: members) ++
            (blanks ++ '\x7d' :: rest) =
          layout.line level ++ (stringText key ++ ':' :: (layout.gap ++
            (value.written layout level ++ ',' ::
              (writtenMembers layout level ((nextKey, next) :: members) ++
                (blanks ++ '\x7d' :: rest))))) := by
        rw [writtenMembers] <;> simp
      have hIdle : Idle phase := by
        rcases h with rfl | rfl <;> trivial
      rw [hText, resume_blank ⟨phase, _⟩ hIdle (layout.blank_line level),
        resume_key key before stack _ h, resume_blank ⟨.value, _⟩ trivial layout.blank_gap,
        resume_written layout value _ _ _ (delimited_comma _), rereadMembers?]
      simp only [hNext, Option.bind_assoc, Option.bind_map, Function.comp_def]

end

end Reader

/-- What was written reads back, in whatever layout. -/
theorem readDocument?_written (layout : Layout) (value : Json) :
    readDocument? (value.written layout 0) = value.reread? := by
  have hRead := Reader.resume_written layout value 0 [] [] Reader.delimited_nil
  rw [List.append_nil] at hRead
  change Reader.resume Reader.start (value.written layout 0) = _
  rw [Reader.start, hRead]
  cases value.reread? <;> rfl

/-- Decoding a text that was written is decoding what it is read as. -/
theorem decode_written {α : Type} (decoder : Decoder α) (layout : Layout) (value : Json) :
    decode decoder (String.ofList (value.written layout 0)) =
      value.reread?.elim (.error (.malformed "JSON")) (decoder .json) := by
  simp only [decode, String.toList_ofList, readDocument?_written]
  cases value.reread? <;> rfl

theorem decode_render {α : Type} (decoder : Decoder α) (value : Json) :
    decode decoder value.render =
      value.reread?.elim (.error (.malformed "JSON")) (decoder .json) := by
  rw [render, ← written_tight 0]
  exact decode_written decoder .tight value

theorem decode_renderPretty {α : Type} (decoder : Decoder α) (value : Json) :
    decode decoder value.renderPretty =
      value.reread?.elim (.error (.malformed "JSON")) (decoder .json) := by
  rw [renderPretty, ← written_wide]
  exact decode_written decoder .wide value

/-- Both forms of a value are decoded alike. -/
theorem decode_written_form {α : Type} (decoder : Decoder α) {write : Json → String}
    (form : write ∈ [render, renderPretty]) (value : Json) :
    decode decoder (write value) =
      value.reread?.elim (.error (.malformed "JSON")) (decoder .json) := by
  simp only [List.mem_cons, List.not_mem_nil, or_false] at form
  rcases form with rfl | rfl
  · exact decode_render decoder value
  · exact decode_renderPretty decoder value

/-- The octets of a text are decoded like the text. -/
theorem decodeBytes_ofText {α : Type} (decoder : Decoder α) (text : String) :
    decodeBytes decoder (Bytes.ofText text) = decode decoder text := by
  rw [decodeBytes, readOctets?, Bytes.characters_ofText, List.foldlM_map]
  rfl

theorem decodeBytes_render {α : Type} (decoder : Decoder α) (value : Json) :
    decodeBytes decoder (Bytes.ofText value.render) =
      value.reread?.elim (.error (.malformed "JSON")) (decoder .json) := by
  rw [decodeBytes_ofText]
  exact decode_render decoder value

end ServiceBroker.Json
