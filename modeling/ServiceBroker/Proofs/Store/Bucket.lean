import ServiceBroker.Proofs.Record
import ServiceBroker.Proofs.Store.Answers
import ServiceBroker.Store.Bucket

/-! The store in a bucket answers as the one in memory does, however its listings are cut into
pages, but for what it lists: an id with a slash in it is never listed. -/

namespace ServiceBroker

namespace Bucket

/-- No request of the kind is to be refused. -/
def Admits (bucket : Bucket) (method : Method) : Prop :=
  bucket.refusals.find? (·.1 == method) = none

/-- The bucket after one more request. -/
def logged (bucket : Bucket) (method : Method) (about : String) : Bucket :=
  { bucket with log := bucket.log ++ [method.name ++ " " ++ bucket.name ++ " " ++ about] }

theorem request_of_admits {α : Type} {bucket : Bucket} {method : Method} {about : String}
    {answer : Bucket → Except Refusal α × Bucket} (h : bucket.Admits method) :
    bucket.request method about answer = answer (bucket.logged method about) := by
  have hNone : (bucket.logged method about).refusals.find? (·.1 == method) = none := h
  rw [request]
  split
  · next hSome => exact absurd (hSome.symm.trans hNone) (by simp)
  · rfl

/-- There are no more keys of a kind than objects. -/
theorem length_keysWith_le (bucket : Bucket) (start : String) :
    (bucket.keysWith start).length ≤ bucket.objects.length := by
  rw [keysWith, (Store.sortIds_perm _).length_eq]
  exact (List.length_filter_le ..).trans_eq (List.length_map ..)

/-- A page has all keys that are left, or some of them and a token for those behind. -/
theorem page_cases (bucket : Bucket) (start : String) (token : Option Nat) :
    let left := (bucket.keysWith start).drop (token.getD 0)
    bucket.page start token = { keys := left, next := none } ∨
      ∃ size, 0 < size ∧ size < left.length ∧
        bucket.page start token =
          { keys := left.take size, next := some (token.getD 0 + size) } := by
  intro left
  by_cases hEnd : left.length ≤ max 1 (bucket.pageSize (token.getD 0))
  · refine .inl ?_
    rw [page, if_pos hEnd, List.take_of_length_le hEnd]
  · refine .inr ⟨max 1 (bucket.pageSize (token.getD 0)), by omega, by omega, ?_⟩
    rw [page, if_neg hEnd]

end Bucket

namespace BucketStore

open Bucket (Admits)

variable {start : List Char}

/-- Page by page everything is listed, if there may be more pages than keys. -/
theorem listFrom_eq (start : List Char) (pages : Nat) (token : Option Nat) (bucket : Bucket)
    (h : bucket.Admits .list)
    (enough : ((bucket.keysWith (String.ofList start)).drop (token.getD 0)).length < pages) :
    (listFrom start pages token bucket).1 =
        .ok (((bucket.keysWith (String.ofList start)).drop (token.getD 0)).filterMap
          (idOfKey? start)) ∧
      (listFrom start pages token bucket).2.objects = bucket.objects ∧
      (listFrom start pages token bucket).2.refusals = bucket.refusals := by
  induction pages generalizing token bucket with
  | zero => exact absurd enough (Nat.not_lt_zero _)
  | succ pages ih =>
      obtain ⟨about, hList⟩ : ∃ about, bucket.list (String.ofList start) token =
          (.ok (bucket.page (String.ofList start) token), bucket.logged .list about) :=
        ⟨_, Bucket.request_of_admits h⟩
      rw [listFrom, hList]
      rcases bucket.page_cases (String.ofList start) token with hPage | ⟨size, hSize, hMore, hPage⟩
      · rw [hPage]
        exact ⟨rfl, rfl, rfl⟩
      · have hDrop : ((bucket.keysWith (String.ofList start)).drop (token.getD 0)).drop size =
            (bucket.keysWith (String.ofList start)).drop (token.getD 0 + size) := List.drop_drop
        have hLength := congrArg List.length hDrop
        rw [List.length_drop] at hLength
        have hFewer : ((bucket.keysWith (String.ofList start)).drop (token.getD 0 + size)).length <
            pages := by omega
        obtain ⟨hRest, hObjects, hRefusals⟩ :=
          ih (some (token.getD 0 + size)) (bucket.logged .list about) h hFewer
        rw [hPage]
        refine ⟨?_, hObjects, hRefusals⟩
        simp only [hRest]
        change Except.ok (_ ++ ((bucket.keysWith (String.ofList start)).drop
          (token.getD 0 + size)).filterMap (idOfKey? start)) = _
        rw [← hDrop, ← List.filterMap_append, List.take_append_drop]

theorem list_eq (start : List Char) (bucket : Bucket) (h : bucket.Admits .list) :
    (list start bucket).1 = .ok (Store.sortIds
        ((bucket.keysWith (String.ofList start)).filterMap (idOfKey? start))) ∧
      (list start bucket).2.objects = bucket.objects ∧
      (list start bucket).2.refusals = bucket.refusals := by
  obtain ⟨hIds, hObjects, hRefusals⟩ := listFrom_eq start (bucket.objects.length + 1) none bucket h
    (Nat.lt_succ_of_le (bucket.length_keysWith_le _))
  refine ⟨?_, hObjects, hRefusals⟩
  simp only [list, hIds]
  rfl

theorem get_eq (start : List Char) (id : String) (bucket : Bucket) (h : bucket.Admits .get) :
    (get start id bucket).1 =
        (bucket.objects.get? (key start id)).elim (.error (.notFound id)) recordOf ∧
      (get start id bucket).2.objects = bucket.objects ∧
      (get start id bucket).2.refusals = bucket.refusals := by
  have hObjects : (bucket.logged .get (key start id)).objects = bucket.objects := rfl
  rw [get, Bucket.get, Bucket.request_of_admits h, hObjects]
  cases bucket.objects.get? (key start id) <;> exact ⟨rfl, rfl, rfl⟩

theorem contains_eq (start : List Char) (id : String) (bucket : Bucket) (h : bucket.Admits .head) :
    (contains start id bucket).1 = .ok (bucket.objects.get? (key start id)).isSome ∧
      (contains start id bucket).2.objects = bucket.objects ∧
      (contains start id bucket).2.refusals = bucket.refusals := by
  have hHead : bucket.head (key start id) =
      (if (bucket.objects.get? (key start id)).isSome then
        (.ok (), bucket.logged .head (key start id))
      else (.error { Bucket.noSuchKey with code := none }, bucket.logged .head (key start id))) :=
    Bucket.request_of_admits h
  rw [contains, hHead]
  cases bucket.objects.get? (key start id) <;> exact ⟨rfl, rfl, rfl⟩

theorem put_eq (start : List Char) (record : Record) (bucket : Bucket) (h : bucket.Admits .put) :
    (put start record bucket).1 = .ok () ∧
      (put start record bucket).2.objects =
        bucket.objects.put (key start record.id) (Bytes.ofText record.text) ∧
      (put start record bucket).2.refusals = bucket.refusals := by
  rw [put, Bucket.put, Bucket.request_of_admits h]
  exact ⟨rfl, rfl, rfl⟩

theorem delete_eq (start : List Char) (id : String) (bucket : Bucket) (h : bucket.Admits .delete) :
    (delete start id bucket).1 = .ok () ∧
      (delete start id bucket).2.objects = bucket.objects.erase (key start id) ∧
      (delete start id bucket).2.refusals = bucket.refusals := by
  rw [delete, Bucket.delete, Bucket.request_of_admits h]
  exact ⟨rfl, rfl, rfl⟩

theorem key_injective (start : List Char) : Function.Injective (key start) := by
  intro first second h
  have hChars := congrArg String.toList h
  exact String.toList_inj.mp (by simpa [key] using hChars)

/-- The id is read back from its key, unless there is a slash in it. -/
theorem idOfKey?_key (start : List Char) (id : String) :
    idOfKey? start (key start id) = if id.toList.contains '/' then none else some id := by
  have hStart : start.isPrefixOf (key start id).toList = true := by
    simp [key, List.append_assoc]
  have hId : (key start id).toList.drop start.length = id.toList ++ RecordName.ending := by
    simp [key]
  rw [idOfKey?, if_pos hStart, hId, RecordName.withoutEnding?_append]
  simp

/-- The bucket has the records, each in its object, and nothing else, and refuses nothing. -/
structure Holds (start : List Char) (records : Records) (bucket : Bucket) : Prop where
  objects : bucket.objects = records.image (key start) fun record => Bytes.ofText record.text
  refusals : bucket.refusals = []

theorem holds_nil (start : List Char) (name : String) : Holds start [] { name } :=
  ⟨rfl, rfl⟩

/-- There is no slash in the id. -/
def isFlat (id : String) : Bool :=
  !id.toList.contains '/'

/-- An answer without the ids that are never listed. -/
def shown : (call : StoreCall) → call.Answer → call.Answer
  | .get _, answer | .put _, answer | .contains _, answer | .delete _, answer => answer
  | .list, answer => answer.map (List.filter isFlat)

section Answers

variable {records : Records} {bucket : Bucket}

theorem Holds.admits (h : Holds start records bucket) (method : Bucket.Method) :
    bucket.Admits method := by
  rw [Admits, h.refusals]
  rfl

theorem Holds.get? (h : Holds start records bucket) (id : String) :
    bucket.objects.get? (key start id) =
      (records.get? id).map fun record => Bytes.ofText record.text := by
  rw [h.objects, Fields.get?_image (key_injective start)]

theorem recordOf_text (record : Record) : recordOf (Bytes.ofText record.text) = .ok record := by
  rw [recordOf, Bytes.text?_ofText]
  simp only [Record.ofText_text]
  rfl

/-- The ids of the records are listed, if they are flat. -/
theorem Holds.listed (h : Holds start records bucket) :
    Store.sortIds ((bucket.keysWith (String.ofList start)).filterMap (idOfKey? start)) =
      (Store.sortIds records.names).filter isFlat := by
  have hKeys : bucket.objects.names.filter (fun key =>
      (String.ofList start).toList.isPrefixOf key.toList) = records.names.map (key start) := by
    rw [h.objects, Fields.names_image]
    refine List.filter_eq_self.mpr fun name hName => ?_
    obtain ⟨id, -, rfl⟩ := List.mem_map.mp hName
    simp [key, List.append_assoc]
  have hIds : (records.names.map (key start)).filterMap (idOfKey? start) =
      records.names.filter isFlat := by
    rw [List.filterMap_map, ← List.filterMap_eq_filter]
    refine List.filterMap_congr fun id _ => ?_
    rw [Function.comp_apply, idOfKey?_key]
    by_cases hSlash : '/' ∈ id.toList <;> simp [Option.guard, isFlat, hSlash]
  rw [Bucket.keysWith, hKeys, Store.filter_sortIds, ← hIds]
  exact Store.sortIds_eq_of_perm ((Store.sortIds_perm _).filterMap _)

theorem answer_eq_shown {configured : Option String}
    (h : Holds (keyStart configured) records bucket) (call : StoreCall) :
    ((bucketStore configured).answer call bucket).1 = shown call (Records.answer call records).1 ∧
      Holds (keyStart configured) (Records.answer call records).2
        ((bucketStore configured).answer call bucket).2 := by
  cases call with
  | get id =>
      obtain ⟨hAnswer, hObjects, hRefusals⟩ :=
        get_eq (keyStart configured) id bucket (h.admits .get)
      rw [Records.answer_get]
      refine ⟨hAnswer.trans ?_, ⟨hObjects.trans h.objects, hRefusals.trans h.refusals⟩⟩
      rw [h.get?]
      cases records.get? id with
      | none => rfl
      | some record =>
          rw [Option.map_some, Option.elim_some, recordOf_text]
          rfl
  | put record =>
      obtain ⟨hAnswer, hObjects, hRefusals⟩ :=
        put_eq (keyStart configured) record bucket (h.admits .put)
      refine ⟨hAnswer, ⟨?_, hRefusals.trans h.refusals⟩⟩
      rw [h.objects, Fields.put_image (key_injective _)] at hObjects
      exact hObjects
  | contains id =>
      obtain ⟨hAnswer, hObjects, hRefusals⟩ :=
        contains_eq (keyStart configured) id bucket (h.admits .head)
      refine ⟨?_, ⟨hObjects.trans h.objects, hRefusals.trans h.refusals⟩⟩
      rw [h.get?, Option.isSome_map] at hAnswer
      exact hAnswer
  | delete id =>
      obtain ⟨hAnswer, hObjects, hRefusals⟩ :=
        delete_eq (keyStart configured) id bucket (h.admits .delete)
      refine ⟨hAnswer, ⟨?_, hRefusals.trans h.refusals⟩⟩
      rw [h.objects, Fields.erase_image (key_injective _)] at hObjects
      exact hObjects
  | list =>
      obtain ⟨hAnswer, hObjects, hRefusals⟩ :=
        list_eq (keyStart configured) bucket (h.admits .list)
      refine ⟨?_, ⟨hObjects.trans h.objects, hRefusals.trans h.refusals⟩⟩
      rw [h.listed] at hAnswer
      exact hAnswer

end Answers

/-- The store in a bucket whose listings are cut into pages anew before each call. -/
def repaged (configured : Option String) : Store (Bucket × (Nat → Nat → Nat)) where
  backend := .bucket
  answer call state :=
    let (answer, bucket) :=
      (bucketStore configured).answer call { state.1 with pageSize := state.2 0 }
    (answer, bucket, fun later => state.2 (later + 1))

theorem shown_eq_iff (call : StoreCall) (records : Records) :
    shown call (Records.answer call records).1 = (Records.answer call records).1 ↔
      (call = .list → ∀ id, (records.get? id).isSome → isFlat id = true) := by
  cases call with
  | list =>
      change Except.ok ((Store.sortIds records.names).filter isFlat) =
        Except.ok (Store.sortIds records.names) ↔ _
      simp only [Except.ok.injEq, List.filter_eq_self, Store.mem_sortIds, Fields.mem_names_iff,
        forall_const]
  | get | put | contains | delete => simp [shown]

/-- What is shown of a run is all of it exactly if no id with a slash is there when the ids are
listed. -/
theorem map_shown_eq_iff (calls : List StoreCall) (records : Records) :
    (memoryStore.answers calls records).1.map
          (fun answered => ⟨answered.1, shown answered.1 answered.2⟩) =
        (memoryStore.answers calls records).1 ↔
      ∀ before later id, calls = before ++ .list :: later → (records.after before id).isSome →
        isFlat id = true := by
  induction calls generalizing records with
  | nil => simp [Store.answers]
  | cons call calls ih =>
      have hHead : (memoryStore.answers (call :: calls) records).1 =
          ⟨call, (Records.answer call records).1⟩ ::
            (memoryStore.answers calls (Records.answer call records).2).1 := rfl
      rw [hHead, List.map_cons, List.cons.injEq, ih]
      simp only [Sigma.mk.injEq, heq_eq_eq, true_and, shown_eq_iff]
      constructor
      · rintro ⟨hFirst, hLater⟩ (_ | ⟨first, before⟩) later id hCalls hFound
        · exact hFirst (List.cons.inj hCalls).1 id hFound
        · obtain ⟨hSame, hRest⟩ := List.cons.inj hCalls
          rw [← hSame, Records.after_cons] at hFound
          exact hLater before later id hRest hFound
      · intro h
        refine ⟨fun hList id hFound => h [] calls id (by rw [hList]; rfl) hFound,
          fun before later id hCalls hFound => h (call :: before) later id (by rw [hCalls]; rfl) ?_⟩
        rw [Records.after_cons]
        exact hFound

/-- Calls are answered as the store in memory answers them, but for the ids with a slash, which are
not listed, whatever the beginning of the keys is and however the listings are cut. -/
theorem answers_eq_shown (configured : Option String) (calls : List StoreCall)
    (sizes : Nat → Nat → Nat) {records : Records} {bucket : Bucket}
    (h : Holds (keyStart configured) records bucket) :
    ((repaged configured).answers calls (bucket, sizes)).1 =
      (memoryStore.answers calls records).1.map
        fun answered => ⟨answered.1, shown answered.1 answered.2⟩ := by
  have hStep (call : StoreCall) (records : Records) (state : Bucket × (Nat → Nat → Nat)) (_ : True)
      (h : Holds (keyStart configured) records state.1) :
      ((repaged configured).answer call state).1 = shown call (memoryStore.answer call records).1 ∧
        Holds (keyStart configured) (memoryStore.answer call records).2
          ((repaged configured).answer call state).2.1 :=
    have hPaged : Holds (keyStart configured) records { state.1 with pageSize := state.2 0 } :=
      ⟨h.objects, h.refusals⟩
    answer_eq_shown hPaged call
  exact Store.answers_of_step shown hStep (fun _ _ => trivial) h

/-- In a bucket that holds records and nothing else, calls are answered as the store in memory
answers them, which is as they should be, but for listings: these leave out the ids with a slash and
nothing else. So all answers agree exactly if no such id is there when the ids are listed. This
holds for every beginning of the keys, and however the listings are cut into pages. -/
theorem answers_repaged (configured : Option String) (calls : List StoreCall)
    (sizes : Nat → Nat → Nat) {records : Records} {bucket : Bucket}
    (h : Holds (keyStart configured) records bucket) (once : records.names.Nodup) :
    ((repaged configured).answers calls (bucket, sizes)).1 =
        (memoryStore.answers calls records).1.map
          (fun answered => ⟨answered.1, shown answered.1 answered.2⟩) ∧
      (((repaged configured).answers calls (bucket, sizes)).1 =
          (memoryStore.answers calls records).1 ↔
        ∀ before later id, calls = before ++ .list :: later → (records.after before id).isSome →
          isFlat id = true) ∧
      records.Rightly (memoryStore.answers calls records).1 := by
  have hAnswers := answers_eq_shown configured calls sizes h
  refine ⟨hAnswers, ?_, Records.rightly_answers once calls⟩
  rw [hAnswers, map_shown_eq_iff]

/-- Three records, listed one by one under a beginning with slashes around it. -/
theorem answers_repaged_singly :
    let calls : List StoreCall := [.put (.leaping "tf:b:"), .put (.leaping "a/b"),
      .put (.leaping "tf:a:"), .list, .get "a/b", .delete "tf:a:", .list]
    ((repaged (some "//broker/prod/")).answers calls ({ name := "b" }, fun _ _ => 1)).1 =
      (memoryStore.answers calls []).1.map
        (fun answered => ⟨answered.1, shown answered.1 answered.2⟩) :=
  (answers_repaged _ _ _ (holds_nil _ _) Records.nodup_nil).1

/-- A record with a slash in its id is there, but its id is not listed. -/
theorem unlisted_slash :
    ((repaged none).answers [.put (.leaping "a/b"), .list]
        ({ name := "b" }, fun _ _ => 1000)).1 ≠
      (memoryStore.answers [.put (.leaping "a/b"), .list] []).1 := by
  intro hAnswers
  rw [answers_eq_shown none _ _ (holds_nil _ _), map_shown_eq_iff] at hAnswers
  have hFlat := hAnswers [.put (.leaping "a/b")] [] "a/b" rfl rfl
  revert hFlat
  decide

end BucketStore

end ServiceBroker
