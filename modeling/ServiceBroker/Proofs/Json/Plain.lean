import ServiceBroker.Proofs.Json.Shape

/-! What the documents are like that JSON texts are read as. Whatever the reader has put together so
far, no scalar in it stands for a sequence or a mapping: neither for one with nothing in it, nor by
a value that holds others. Its integers are those of 64 bits, and `null` is a value that is not
there. -/

namespace ServiceBroker

/-- The scalar stands for no sequence or mapping, and for no value that JSON has not. -/
structure Scalar.IsPlain (s : Scalar) : Prop where
  empty : s.empty = false
  atom : ∀ value, s.value = some value → value.IsAtom
  keeps : ∀ n, s.value = some (.number (.integer n)) → Json.Number.keeps n = true
  absent : s.value = some .null → s.absent = true

/-- All scalars in the document are plain, and it can be followed everywhere. -/
inductive Document.Plain : Document → Prop where
  | scalar {s : Scalar} (h : s.IsPlain) : Plain (.scalar s)
  | sequence {items : List Document} (h : ∀ item ∈ items, Plain item) : Plain (.sequence items)
  | mapping {members : List (Option String × Document)} (h : ∀ member ∈ members, Plain member.2) :
      Plain (.mapping members)

namespace Scalar

theorem isPlain_of_value {s : Scalar} {value : Json} (empty : s.empty = false)
    (hValue : s.value = some value) (atom : value.IsAtom)
    (keeps : ∀ n, value = .number (.integer n) → Json.Number.keeps n = true)
    (absent : value = .null → s.absent = true) : s.IsPlain where
  empty
  atom found hFound := by
    obtain rfl : value = found := Option.some.inj (hValue.symm.trans hFound)
    exact atom
  keeps n hFound := keeps n (Option.some.inj (hValue.symm.trans hFound))
  absent hFound := absent (Option.some.inj (hValue.symm.trans hFound))

theorem isPlain_ofNull : ofNull.IsPlain :=
  isPlain_of_value rfl rfl trivial (fun _ h => by cases h) fun _ => rfl

theorem isPlain_ofBool (b : Bool) : (ofBool b).IsPlain :=
  isPlain_of_value rfl rfl trivial (fun _ h => by cases h) fun h => by cases h

theorem isPlain_ofText (s : String) : (ofText s).IsPlain :=
  isPlain_of_value rfl rfl trivial (fun _ h => by cases h) fun h => by cases h

/-- A scalar without any reading. -/
theorem isPlain_none : IsPlain {} where
  empty := rfl
  atom _ h := by cases h
  keeps _ h := by cases h
  absent h := by cases h

theorem isPlain_ofNumber {found : Option Json.Number}
    (h : ∀ n, found = some (.integer n) → Json.Number.keeps n = true) :
    (ofNumber found).IsPlain := by
  rcases found with _ | n | x
  · exact isPlain_none
  · refine isPlain_of_value rfl rfl trivial (fun m hNumber => ?_) fun hNull => by cases hNull
    cases hNumber
    exact h n rfl
  · exact isPlain_of_value rfl rfl trivial (fun _ h => by cases h) fun h => by cases h

end Scalar

namespace Json

/-- An integer is read only where 64 bits hold it. -/
theorem Number.keeps_of_number? {written : Written} {n : Int}
    (h : written.number? = some (.integer n)) : keeps n = true := by
  have hDouble (x : Option Float) : x.map double ≠ some (.integer n) := by
    cases x <;> simp
  simp only [Written.number?] at h
  split at h
  · split at h
    · next hKeeps =>
        cases h
        exact (Bool.and_eq_true_iff.mp hKeeps).2
    · split at h
      · next hKeeps =>
          cases h
          exact (Bool.and_eq_true_iff.mp hKeeps).2
      · exact absurd h (hDouble _)
  · exact absurd h (hDouble _)

/-- What an open array or object holds so far is plain. -/
def Frame.Plain : Frame → Prop
  | .array before => ∀ document ∈ before, document.Plain
  | .object before _ => ∀ member ∈ before, member.2.Plain

/-- What the reader has at hand besides the open arrays and objects is plain. -/
def Phase.Plain : Phase → Prop
  | .complete document => document.Plain
  | .word _ meaning => meaning.IsPlain
  | _ => True

namespace Reader

/-- Everything that the reader has put together is plain. -/
structure Plain (r : Reader) : Prop where
  phase : r.phase.Plain
  stack : ∀ frame ∈ r.stack, frame.Plain

variable {document : Document} {stack : List Frame} {c : Char} {r s : Reader}

theorem plain_give (plain : document.Plain) (h : ∀ frame ∈ stack, frame.Plain) :
    (give document stack).Plain := by
  match stack with
  | [] => exact ⟨plain, h⟩
  | .array before :: rest =>
      obtain ⟨hBefore, hRest⟩ := List.forall_mem_cons.mp h
      exact ⟨trivial, List.forall_mem_cons.mpr ⟨List.forall_mem_cons.mpr ⟨plain, hBefore⟩, hRest⟩⟩
  | .object before key :: rest =>
      obtain ⟨hBefore, hRest⟩ := List.forall_mem_cons.mp h
      exact ⟨trivial, List.forall_mem_cons.mpr ⟨List.forall_mem_cons.mpr ⟨plain, hBefore⟩, hRest⟩⟩

theorem plain_beginValue (h : ∀ frame ∈ stack, frame.Plain) (step : beginValue stack c = some r) :
    r.Plain := by
  have hOpen (frame : Frame) (hFrame : frame.Plain) : ∀ open' ∈ frame :: stack, open'.Plain :=
    List.forall_mem_cons.mpr ⟨hFrame, h⟩
  unfold beginValue at step
  split at step
  · cases step
    exact ⟨trivial, h⟩
  split at step
  · cases step
    exact ⟨trivial, hOpen (.array []) (by simp [Frame.Plain])⟩
  split at step
  · cases step
    exact ⟨trivial, hOpen (.object [] none) (by simp [Frame.Plain])⟩
  split at step
  · cases step
    exact ⟨Scalar.isPlain_ofNull, h⟩
  split at step
  · cases step
    exact ⟨Scalar.isPlain_ofBool true, h⟩
  split at step
  · cases step
    exact ⟨Scalar.isPlain_ofBool false, h⟩
  split at step
  · cases step
    exact ⟨trivial, h⟩
  · cases step

theorem plain_beginKey (h : ∀ frame ∈ stack, frame.Plain) (step : beginKey stack c = some r) :
    r.Plain := by
  unfold beginKey at step
  split at step
  · cases step
    exact ⟨trivial, h⟩
  · cases step

theorem plain_close (h : ∀ frame ∈ stack, frame.Plain) (step : close stack c = some r) :
    r.Plain := by
  match stack with
  | [] => cases step
  | .array before :: rest =>
      obtain ⟨hBefore, hRest⟩ := List.forall_mem_cons.mp h
      simp only [close, Option.ite_none_right_eq_some, Option.some.injEq] at step
      obtain ⟨-, rfl⟩ := step
      exact plain_give (.sequence fun item hItem => hBefore item (List.mem_reverse.mp hItem)) hRest
  | .object before key :: rest =>
      obtain ⟨hBefore, hRest⟩ := List.forall_mem_cons.mp h
      simp only [close, Option.ite_none_right_eq_some, Option.some.injEq] at step
      obtain ⟨-, rfl⟩ := step
      exact plain_give (.mapping fun member hMember => hBefore member (List.mem_reverse.mp hMember))
        hRest

theorem plain_afterValue (h : ∀ frame ∈ stack, frame.Plain) (step : afterValue stack c = some r) :
    r.Plain := by
  unfold afterValue at step
  split at step
  · split at step
    · cases step
      exact ⟨trivial, h⟩
    · cases step
      exact ⟨trivial, h⟩
    · cases step
  · exact plain_close h step

theorem plain_afterKey {key : Option String} (h : ∀ frame ∈ stack, frame.Plain)
    (step : afterKey key stack c = some r) : r.Plain := by
  unfold afterKey at step
  split at step
  · split at step
    · cases step
      obtain ⟨hFrame, hRest⟩ := List.forall_mem_cons.mp h
      exact ⟨trivial, List.forall_mem_cons.mpr ⟨hFrame, hRest⟩⟩
    · cases step
  · cases step

theorem plain_numberDocument? {before : List Char} (h : numberDocument? before = some document) :
    document.Plain := by
  obtain ⟨written, -, rfl⟩ := Option.map_eq_some_iff.mp h
  exact .scalar (Scalar.isPlain_ofNumber fun _ => Number.keeps_of_number?)

theorem plain_withinString {text : OpenString} (h : ∀ frame ∈ stack, frame.Plain)
    (step : withinString text stack c = some r) : r.Plain := by
  unfold withinString at step
  split at step
  · split at step
    · simp only at step
      split at step
      · cases step
        exact ⟨trivial, h⟩
      · cases step
        refine plain_give (.scalar ?_) h
        cases OpenString.text? text with
        | none => exact Scalar.isPlain_none
        | some text => exact Scalar.isPlain_ofText text
    · split at step
      · cases step
        exact ⟨trivial, h⟩
      · split at step
        · cases step
        · cases step
          exact ⟨trivial, h⟩
  · split at step
    · cases step
      exact ⟨trivial, h⟩
    · obtain ⟨_, -, rfl⟩ := Option.map_eq_some_iff.mp step
      exact ⟨trivial, h⟩
  · obtain ⟨_, -, hUnit⟩ := Option.bind_eq_some_iff.mp step
    simp only at hUnit
    split at hUnit
    · cases hUnit
      exact ⟨trivial, h⟩
    · cases hUnit
      exact ⟨trivial, h⟩

theorem plain_stepPlain {phase : Phase} (hPhase : phase.Plain) (h : ∀ frame ∈ stack, frame.Plain)
    (step : stepPlain phase stack c = some r) : r.Plain := by
  unfold stepPlain at step
  split at step
  · exact plain_withinString h step
  · split at step
    · cases step
      split
      · exact plain_give (.scalar hPhase) h
      · exact ⟨hPhase, h⟩
    · cases step
  · cases step
  · cases step
  · split at step
    · cases step
      exact ⟨hPhase, h⟩
    · split at step
      · exact plain_beginValue h step
      · rcases Option.or_eq_some_iff.mp step with hClose | ⟨-, hBegin⟩
        · exact plain_close h hClose
        · exact plain_beginValue h hBegin
      · rcases Option.or_eq_some_iff.mp step with hClose | ⟨-, hBegin⟩
        · exact plain_close h hClose
        · exact plain_beginKey h hBegin
      · exact plain_beginKey h step
      · exact plain_afterKey h step
      · exact plain_afterValue h step
      · cases step

/-- One character leaves everything plain. -/
theorem Plain.step (plain : r.Plain) (h : r.step c = some s) : s.Plain := by
  unfold Reader.step at h
  split at h
  · split at h
    · cases h
      exact ⟨trivial, plain.stack⟩
    · obtain ⟨document, hNumber, hStep⟩ := Option.bind_eq_some_iff.mp h
      have given := plain_give (plain_numberDocument? hNumber) plain.stack
      exact plain_stepPlain given.phase given.stack hStep
  · exact plain_stepPlain plain.phase plain.stack h

theorem Plain.spoil (plain : r.Plain) (h : r.spoil = some s) : s.Plain := by
  unfold Reader.spoil at h
  split at h
  · split at h
    · cases h
      exact ⟨trivial, plain.stack⟩
    · cases h
  · cases h

theorem Plain.advance {unit : Option Char} (plain : r.Plain) (h : r.advance unit = some s) :
    s.Plain := by
  cases unit with
  | some c => exact plain.step h
  | none => exact plain.spoil h

/-- However the reader goes on, all that it passes through is plain. -/
theorem Plain.foldlM {ι : Type} {next : Reader → ι → Option Reader} {input : List ι}
    (keeps : ∀ {r s : Reader} {i : ι}, r.Plain → next r i = some s → s.Plain) (plain : r.Plain)
    (h : input.foldlM next r = some s) : s.Plain := by
  induction input generalizing r with
  | nil =>
      cases h
      exact plain
  | cons i input ih =>
      rw [List.foldlM_cons] at h
      obtain ⟨middle, hStep, hRest⟩ := Option.bind_eq_some_iff.mp h
      exact ih (keeps plain hStep) hRest

theorem Plain.finish (plain : r.Plain) (h : r.finish = some document) : document.Plain := by
  unfold Reader.finish at h
  split at h
  · next hPhase _ =>
      cases h
      have hDocument := plain.phase
      rwa [hPhase] at hDocument
  · exact plain_numberDocument? h
  · cases h

theorem plain_start : start.Plain :=
  ⟨trivial, by simp [start]⟩

end Reader

/-- A text is read as a plain document. -/
theorem plain_of_readDocument? {text : List Char} {document : Document}
    (h : readDocument? text = some document) : document.Plain := by
  obtain ⟨r, hRead, hFinish⟩ := Option.bind_eq_some_iff.mp h
  exact (Reader.Plain.foldlM Reader.Plain.step Reader.plain_start hRead).finish hFinish

/-- Octets are read as a plain document, whatever stands in strings. -/
theorem plain_of_readOctets? {bytes : Bytes} {document : Document}
    (h : readOctets? bytes = some document) : document.Plain := by
  obtain ⟨r, hRead, hFinish⟩ := Option.bind_eq_some_iff.mp h
  exact (Reader.Plain.foldlM Reader.Plain.advance Reader.plain_start hRead).finish hFinish

end Json

end ServiceBroker
