import ServiceBroker.Proofs.Files.Folder
import ServiceBroker.Proofs.Program.Passage
import ServiceBroker.Proofs.Store.Bucket
import ServiceBroker.Proofs.Store.Directory

/-! Records under different ids are kept apart: putting one changes nothing of what a store answers
about another one, in whatever state the store is. -/

namespace ServiceBroker

namespace Store

variable {σ : Type}

/-- What a store answers about one id. -/
@[ext]
structure Standing where
  get : Except StoreError Record
  contains : Except StoreError Bool
  /-- The id is among those that are listed. -/
  listed : Except StoreError Bool

def standing (store : Store σ) (id : String) (state : σ) : Standing where
  get := (store.answer (.get id) state).1
  contains := (store.answer (.contains id) state).1
  listed := ((store.answer .list state).1 : Except StoreError (List String)).map (decide <| id ∈ ·)

/-- Putting a record under an id changes nothing about another one, in whatever state. -/
def Spares (store : Store σ) (id other : String) : Prop :=
  ∀ (state : σ) (record : Record), record.id = id →
    store.standing other (store.answer (.put record) state).2 = store.standing other state

end Store

theorem memoryStore_spares {id other : String} (h : other ≠ id) : memoryStore.Spares id other := by
  rintro records record rfl
  have hGet : Fields.get? (records.put record.id record) other = records.get? other :=
    Fields.get?_put_of_ne records record h
  have hListed : other ∈ (records.put record.id record).names ↔ other ∈ records.names := by
    rw [Fields.mem_names_iff, Fields.mem_names_iff, hGet]
  change Store.Standing.mk (Records.answer (.get other) (records.put record.id record)).1
      (.ok (Fields.get? (records.put record.id record) other).isSome)
      (.ok (decide (other ∈ Store.sortIds (records.put record.id record).names))) =
    Store.Standing.mk (Records.answer (.get other) records).1 (.ok (records.get? other).isSome)
      (.ok (decide (other ∈ Store.sortIds records.names)))
  simp only [Records.answer_get, hGet, Store.mem_sortIds, hListed]

namespace DirectoryStore

open Folder (SameBut ChangesOnly)

variable {α β : Type} {names : String → Prop} {before after : Folder.Place}

theorem asks_look_bind {kind : FolderStep → Prop} (step : FolderStep)
    {next : step.Reply → Work β} (h : kind step)
    (later : ∀ reply, (ExceptT.run (next reply)).Asks kind) :
    (ExceptT.run (look step >>= next)).Asks kind :=
  ⟨h, later⟩

theorem asks_orFail {kind : FolderStep → Prop} (failure : String → StoreError)
    (result : Except String α) : (ExceptT.run (orFail failure result)).Asks kind := by
  cases result <;> trivial

theorem asks_orFail_bind {kind : FolderStep → Prop} {failure : String → StoreError}
    {result : Except String α} {next : α → Work β}
    (later : ∀ value, (ExceptT.run (next value)).Asks kind) :
    (ExceptT.run (orFail failure result >>= next)).Asks kind := by
  cases result with
  | error reason => trivial
  | ok value => exact later value

/-- A file that belongs to the record with an id. -/
def Belongs (id name : String) : Prop :=
  name = RecordName.temporary id ∨ name = RecordName.file id

/-- Putting a record changes only files that belong to it. -/
theorem put_changes (record : Record) :
    (ExceptT.run (put record)).Asks (ChangesOnly (Belongs record.id)) := by
  have hWrite : (ExceptT.run (writing record)).Asks (ChangesOnly (Belongs record.id)) :=
    asks_look_bind (.create _) (.inl rfl) fun _ => asks_orFail_bind fun _ =>
      asks_look_bind (.write _ _) (.inl rfl) fun _ => asks_orFail_bind fun _ =>
      asks_look_bind (.sync _) trivial fun _ => asks_orFail_bind fun _ =>
      asks_look_bind (.rename _ _) ⟨.inl rfl, .inr rfl⟩ fun _ => asks_orFail _ _
  rw [put]
  refine asks_look_bind .present trivial fun there => ?_
  split
  · exact asks_look_bind .make trivial fun _ => asks_orFail_bind fun _ => hWrite
  · exact hWrite

theorem sameBut_put (record : Record) (place : Folder.Place) :
    SameBut (Belongs record.id) place (directoryStore.answer (.put record) place).2 :=
  (put_changes record).run SameBut.refl SameBut.trans
    (fun _ place h => Folder.sameBut_answer h place) place

theorem outcome_contains_of_sameBut {id : String} (other : ¬names (RecordName.file id))
    (same : SameBut names before after) :
    (outcome (contains id) after).1 = (outcome (contains id) before).1 := by
  rw [outcome_contains, outcome_contains, same.find _ other]

theorem outcome_get_of_sameBut {id : String} (other : ¬names (RecordName.file id))
    (same : SameBut names before after) :
    (outcome (get id) after).1 = (outcome (get id) before).1 := by
  rw [get, outcome_look_bind (.contains _), outcome_look_bind (.contains _),
    Folder.answer_contains_eq, Folder.answer_contains_eq, same.find _ other]
  dsimp only
  split
  · rfl
  · rw [outcome_look_bind (.read _), outcome_look_bind (.read _)]
    simp only [Folder.answer, Folder.fileIn_eq_of_sameBut same other]
    -- Nothing is looked at any more, so the rest comes to the same in either place.
    cases Folder.fileIn before (RecordName.file id) with
    | error reason => rfl
    | ok content =>
        simp only [orFail_ok_bind]
        cases content.text? with
        | none => rfl
        | some text =>
            dsimp only
            cases (Record.ofText text).mapError DecodeError.message <;> rfl

theorem outcome_list_eq (place : Folder.Place) :
    (outcome list place).1 =
      match Folder.held? place with
      | some found => .ok (Store.sortIds (found.names.filterMap RecordName.idOfFile?))
      | none => .error (failed "Failed to list state directory" Folder.notAFolder) := by
  rcases place with _ | content | found
  · have hNone : Store.sortIds ((Fields.names ([] : Fields FileTree)).filterMap
        RecordName.idOfFile?) = [] := List.mergeSort_nil
    simp only [Folder.held?, hNone]
    rfl
  · rfl
  · rfl

theorem mem_listed_iff {id : String} {found : Fields FileTree} :
    id ∈ Store.sortIds (found.names.filterMap RecordName.idOfFile?) ↔
      ∃ name, (found.get? name).isSome ∧ RecordName.idOfFile? name = some id := by
  simp only [Store.mem_sortIds, List.mem_filterMap, Fields.mem_names_iff]

theorem outcome_list_of_sameBut {id : String}
    (others : ∀ name, names name → RecordName.idOfFile? name ≠ some id)
    (same : SameBut names before after) :
    (outcome list after).1.map (decide <| id ∈ ·) =
      (outcome list before).1.map (decide <| id ∈ ·) := by
  obtain ⟨hHeld, hFind⟩ := same
  rw [outcome_list_eq, outcome_list_eq]
  simp only [Folder.find?] at hFind
  cases hAfter : Folder.held? after with
  | none =>
      cases hBefore : Folder.held? before with
      | none => rfl
      | some found => simp [hAfter, hBefore] at hHeld
  | some later =>
      cases hBefore : Folder.held? before with
      | none => simp [hAfter, hBefore] at hHeld
      | some found =>
          simp only [hAfter, hBefore, Option.bind_some] at hFind
          have hListed : id ∈ Store.sortIds (later.names.filterMap RecordName.idOfFile?) ↔
              id ∈ Store.sortIds (found.names.filterMap RecordName.idOfFile?) := by
            rw [mem_listed_iff, mem_listed_iff]
            refine exists_congr fun name => and_congr_left fun hName => ?_
            rw [hFind name fun hNames => others name hNames hName]
          simp only [Except.map, hListed]

end DirectoryStore

theorem directoryStore_spares {id other : String} (h : other ≠ id) :
    directoryStore.Spares id other := by
  rintro place record rfl
  have same := DirectoryStore.sameBut_put record place
  have hFile : ¬DirectoryStore.Belongs record.id (RecordName.file other) := by
    rintro (hTemporary | hSame)
    · exact RecordName.temporary_ne_file _ _ hTemporary.symm
    · exact h (RecordName.file_injective hSame)
  have hIds : ∀ name, DirectoryStore.Belongs record.id name →
      RecordName.idOfFile? name ≠ some other := by
    rintro name (rfl | rfl)
    · rw [RecordName.idOfFile?_temporary]
      exact nofun
    · rw [RecordName.idOfFile?_file]
      exact fun hSame => h (Option.some.inj hSame).symm
  have hGet := DirectoryStore.outcome_get_of_sameBut hFile same
  have hContains := DirectoryStore.outcome_contains_of_sameBut hFile same
  have hList := DirectoryStore.outcome_list_of_sameBut hIds same
  exact Store.Standing.ext hGet hContains hList

namespace BucketStore

variable {start : List Char}

/-- Taking one out leaves what is found first among others. -/
theorem find?_eraseP_of_disjoint {α : Type} {p q : α → Bool} (disjoint : ∀ a, p a → q a = false)
    (l : List α) : (l.eraseP p).find? q = l.find? q := by
  induction l with
  | nil => rfl
  | cons a l ih =>
      by_cases h : p a = true
      · rw [List.eraseP_cons_of_pos h, List.find?_cons_of_neg (by simp [disjoint a h])]
      · rw [List.eraseP_cons_of_neg h, List.find?_cons, List.find?_cons, ih]

/-- The refusal that is due for the next request of a kind. -/
def due? (bucket : Bucket) (method : Bucket.Method) : Option Refusal :=
  (bucket.refusals.find? (·.1 == method)).map Prod.snd

theorem admits_of_due? {bucket : Bucket} {method : Bucket.Method} (h : due? bucket method = none) :
    bucket.Admits method :=
  Option.map_eq_none_iff.mp h

theorem request_of_due? {α : Type} {bucket : Bucket} {method : Bucket.Method} {about : String}
    {answer : Bucket → Except Refusal α × Bucket} {refusal : Refusal}
    (h : due? bucket method = some refusal) :
    bucket.request method about answer = (.error refusal, { bucket.logged method about with
      refusals := bucket.refusals.eraseP (·.1 == method) }) := by
  obtain ⟨⟨kind, found⟩, hFound, hSame⟩ := Option.map_eq_some_iff.mp h
  obtain rfl : found = refusal := hSame
  have hLogged : (bucket.logged method about).refusals.find? (·.1 == method) =
      some (kind, found) := hFound
  rw [Bucket.request]
  split
  · next hSome =>
      cases hSome.symm.trans hLogged
      rfl
  · next hNone => exact absurd (hNone.symm.trans hLogged) (by simp)

/-- Putting a record changes no other object, and no refusal of another request. -/
theorem put_keeps (start : List Char) (record : Record) (bucket : Bucket) :
    (∀ key, key ≠ BucketStore.key start record.id →
      (put start record bucket).2.objects.get? key = bucket.objects.get? key) ∧
    ∀ method, method ≠ .put → due? (put start record bucket).2 method = due? bucket method := by
  cases hDue : due? bucket .put with
  | none =>
      obtain ⟨-, hObjects, hRefusals⟩ := put_eq start record bucket (admits_of_due? hDue)
      refine ⟨fun key h => ?_, fun method _ => by rw [due?, hRefusals, due?]⟩
      rw [hObjects]
      exact Fields.get?_put_of_ne _ _ h
  | some refusal =>
      rw [put, Bucket.put, request_of_due? hDue]
      refine ⟨fun _ _ => rfl, fun method h => ?_⟩
      simp only [due?]
      rw [find?_eraseP_of_disjoint]
      intro entry hEntry
      rw [beq_iff_eq] at hEntry
      simpa [hEntry] using h.symm

theorem get_answer (id : String) (bucket : Bucket) :
    (get start id bucket).1 =
      match due? bucket .get with
      | some refusal =>
        if refusal.code = some "NoSuchKey" then .error (.notFound id)
        else .error (failed .get refusal)
      | none => (bucket.objects.get? (key start id)).elim (.error (.notFound id)) recordOf := by
  cases hDue : due? bucket .get with
  | none => exact (get_eq start id bucket (admits_of_due? hDue)).1
  | some refusal =>
      rw [get, Bucket.get, request_of_due? hDue]
      dsimp only
      split <;> rfl

theorem contains_answer (id : String) (bucket : Bucket) :
    (contains start id bucket).1 =
      match due? bucket .head with
      | some refusal => if refusal.status = 404 then .ok false else .error (failed .head refusal)
      | none => .ok (bucket.objects.get? (key start id)).isSome := by
  cases hDue : due? bucket .head with
  | none => exact (contains_eq start id bucket (admits_of_due? hDue)).1
  | some refusal =>
      rw [contains, Bucket.head, request_of_due? hDue]
      dsimp only
      split <;> rfl

theorem list_answer (bucket : Bucket) :
    (list start bucket).1 =
      match due? bucket .list with
      | some refusal => .error (failed .list refusal)
      | none => .ok (Store.sortIds
          ((bucket.keysWith (String.ofList start)).filterMap (idOfKey? start))) := by
  cases hDue : due? bucket .list with
  | none => exact (list_eq start bucket (admits_of_due? hDue)).1
  | some refusal =>
      rw [list, listFrom, Bucket.list, request_of_due? hDue]
      rfl

theorem mem_listed_iff {id : String} {bucket : Bucket} :
    id ∈ Store.sortIds ((bucket.keysWith (String.ofList start)).filterMap (idOfKey? start)) ↔
      ∃ key, ((bucket.objects.get? key).isSome ∧ start.isPrefixOf key.toList = true) ∧
        idOfKey? start key = some id := by
  simp only [Store.mem_sortIds, List.mem_filterMap, Bucket.keysWith, List.mem_filter,
    Fields.mem_names_iff, String.toList_ofList]

end BucketStore

theorem bucketStore_spares (configured : Option String) {id other : String} (h : other ≠ id) :
    (bucketStore configured).Spares id other := by
  rintro bucket record rfl
  let start := BucketStore.keyStart configured
  let after := (BucketStore.put start record bucket).2
  obtain ⟨hObjects, hDue⟩ := BucketStore.put_keeps start record bucket
  have hKey : BucketStore.key start other ≠ BucketStore.key start record.id :=
    fun same => h (BucketStore.key_injective start same)
  have hGet : (BucketStore.get start other after).1 = (BucketStore.get start other bucket).1 := by
    rw [BucketStore.get_answer, BucketStore.get_answer, hObjects _ hKey, hDue .get (by decide)]
  have hContains :
      (BucketStore.contains start other after).1 = (BucketStore.contains start other bucket).1 := by
    rw [BucketStore.contains_answer, BucketStore.contains_answer, hObjects _ hKey,
      hDue .head (by decide)]
  have hListed : other ∈ Store.sortIds ((after.keysWith (String.ofList start)).filterMap
        (BucketStore.idOfKey? start)) ↔
      other ∈ Store.sortIds ((bucket.keysWith (String.ofList start)).filterMap
        (BucketStore.idOfKey? start)) := by
    rw [BucketStore.mem_listed_iff, BucketStore.mem_listed_iff]
    refine exists_congr fun key => and_congr_left fun hId => ?_
    have hOther : key ≠ BucketStore.key start record.id := by
      rintro rfl
      rw [BucketStore.idOfKey?_key] at hId
      split at hId
      · cases hId
      · exact h (Option.some.inj hId).symm
    rw [hObjects key hOther]
  have hList : (BucketStore.list start after).1.map (decide <| other ∈ ·) =
      (BucketStore.list start bucket).1.map (decide <| other ∈ ·) := by
    rw [BucketStore.list_answer, BucketStore.list_answer, hDue .list (by decide)]
    cases BucketStore.due? bucket .list with
    | some refusal => rfl
    | none => simp only [Except.map, hListed]
  exact Store.Standing.ext hGet hContains hList

end ServiceBroker
