import ServiceBroker.Proofs.Files.Folder
import ServiceBroker.Proofs.Record
import ServiceBroker.Proofs.Store.Answers
import ServiceBroker.Proofs.Store.RecordName
import ServiceBroker.Store.Directory

/-! The store in a folder answers as the one in memory does, but for a record whose id is a single
dot: that record cannot be put. -/

namespace ServiceBroker

namespace DirectoryStore

variable {α β : Type}

/-- What work in a folder comes to, and what lies in the place of the folder then. -/
def outcome (work : Work α) (place : Folder.Place) : Except StoreError α × Folder.Place :=
  (ExceptT.run work).run Folder.answer place

@[simp]
theorem outcome_look_bind (step : FolderStep) (next : step.Reply → Work β) (place : Folder.Place) :
    outcome (look step >>= next) place =
      outcome (next (Folder.answer step place).1) (Folder.answer step place).2 :=
  rfl

@[simp]
theorem outcome_look (step : FolderStep) (place : Folder.Place) :
    outcome (look step) place =
      (.ok (Folder.answer step place).1, (Folder.answer step place).2) :=
  rfl

@[simp]
theorem orFail_ok_bind (failure : String → StoreError) (value : α) (next : α → Work β) :
    orFail failure (.ok value) >>= next = next value :=
  rfl

@[simp]
theorem outcome_orFail_error_bind (failure : String → StoreError) (reason : String)
    (next : α → Work β) (place : Folder.Place) :
    outcome (orFail failure (.error reason) >>= next) place = (.error (failure reason), place) :=
  rfl

section Work

variable {found : Fields FileTree} {place : Folder.Place} {id : String} {record : Record}

theorem outcome_contains (id : String) (place : Folder.Place) :
    outcome (contains id) place =
      (.ok (Folder.find? place (RecordName.file id)).isSome, place) := by
  rw [contains, outcome_look (.contains _), Folder.answer_contains_eq]

theorem outcome_get_of_missing (h : Folder.find? place (RecordName.file id) = none) :
    outcome (get id) place = (.error (.notFound id), place) := by
  rw [get, outcome_look_bind (.contains _), Folder.answer_contains_eq, h]
  rfl

theorem outcome_get_of_found
    (h : Folder.find? place (RecordName.file id) = some (.file (Bytes.ofText record.text))) :
    outcome (get id) place = (.ok record, place) := by
  rw [get, outcome_look_bind (.contains _), Folder.answer_contains_eq, h]
  simp only [Option.isSome_some, Bool.not_true, Bool.false_eq_true, if_false]
  rw [outcome_look_bind (.read _), Folder.answer, Folder.fileIn_of_find? h]
  simp only [orFail_ok_bind, Bytes.text?_ofText, Record.ofText_text]
  rfl

/-- Files with records in them are read as these records. -/
theorem outcome_get {records : Records} (h : Folder.find? place (RecordName.file id) =
      (records.get? id).map fun record => .file (Bytes.ofText record.text)) :
    outcome (get id) place = ((records.get? id).elim (.error (.notFound id)) .ok, place) := by
  cases hRecord : records.get? id with
  | none =>
      rw [hRecord] at h
      exact outcome_get_of_missing h
  | some record =>
      rw [hRecord] at h
      exact outcome_get_of_found h

/-- What the content of a record's file is read as. -/
def reading (content : Except String Bytes) : Except StoreError Record :=
  match content with
  | .error reason => .error (unreadable "Failed to read record file" reason)
  | .ok bytes =>
    match bytes.text? with
    | none => .error (unreadable "Failed to read record file" "stream did not contain valid UTF-8")
    | some text =>
      ((Record.ofText text).mapError DecodeError.message).mapError
        (unreadable "Failed to parse record file")

theorem orFail_run {α : Type} (failure : String → StoreError) (result : Except String α) :
    (orFail failure result).run = .done (result.mapError failure) := by
  cases result <;> rfl

theorem get_run (id : String) : (get id).run =
    Program.ask (I := folderInterface) (.contains (RecordName.file id)) fun found : Bool =>
      if found then .ask (.read (RecordName.file id)) fun content => .done (reading content)
      else .done (.error (.notFound id)) := by
  change Program.ask _ _ = Program.ask _ _
  congr 1
  funext found
  cases found with
  | false => rfl
  | true =>
      change Program.ask _ _ = Program.ask _ _
      congr 1
      funext content
      cases content with
      | error reason => rfl
      | ok bytes =>
          change ExceptT.run (match bytes.text? with
            | none => (throw _ : Work Record)
            | some text => orFail _ ((Record.ofText text).mapError DecodeError.message)) = _
          rw [reading]
          cases bytes.text? with
          | none => rfl
          | some text => exact orFail_run _ _

/-- No reading of a file comes to there being none. -/
theorem reading_ne_notFound (content : Except String Bytes) (id : String) :
    reading content ≠ .error (.notFound id) := by
  unfold reading
  split
  · simp [unreadable]
  · split
    · simp [unreadable]
    · cases Record.ofText _ <;> simp [Except.mapError, unreadable]

/-- What the record in a folder is read as. -/
def recordIn (place : Folder.Place) (id : String) : Except StoreError Record :=
  (directoryStore.answer (.get id) place).1

theorem recordIn_eq (place : Folder.Place) (id : String) : recordIn place id =
    if (Folder.answer (.contains (RecordName.file id)) place).1 then
      reading (Folder.answer (.read (RecordName.file id)) place).1
    else .error (.notFound id) := by
  change ((get id).run.run Folder.answer place).1 = _
  rw [get_run]
  change (Program.run (I := folderInterface) Folder.answer
    (if (Folder.answer (.contains (RecordName.file id)) place).1 then _ else _) place).1 = _
  cases (Folder.answer (.contains (RecordName.file id)) place).1 <;> rfl

theorem outcome_delete_of_missing (h : Folder.find? place (RecordName.file id) = none) :
    outcome (delete id) place = (.ok (), place) := by
  rw [delete, outcome_look_bind (.contains _), Folder.answer_contains_eq, h]
  rfl

theorem outcome_delete_of_found {content : Bytes}
    (h : found.get? (RecordName.file id) = some (.file content)) :
    outcome (delete id) (some (.folder found)) =
      (.ok (), some (.folder (found.erase (RecordName.file id)))) := by
  rw [delete, outcome_look_bind (.contains _), Folder.answer_contains, h]
  simp only [Option.isSome_some, if_true]
  rw [outcome_look_bind (.remove _), Folder.answer_remove h]
  rfl

/-- A folder that is not there is made, and holds nothing then. -/
theorem outcome_ready (h : Folder.held? place = some found) (next : Work α) :
    outcome (do
      if !(← look .present) then
        orFail (failed "Failed to create state directory") (← look .make)
      next) place = outcome next (some (.folder found)) := by
  rcases place with _ | content | inner
  · cases h
    rfl
  · cases h
  · cases h
    rfl

/-- The steps that put a record into a folder. -/
def writing (record : Record) : Work Unit := do
  let temporary := RecordName.temporary record.id
  orFail (failed "Failed to create temp record file") (← look (.create temporary))
  orFail (failed "Failed to write record file")
    (← look (.write temporary (Bytes.ofText record.text)))
  orFail (failed "Failed to sync record file") (← look (.sync temporary))
  orFail (failed "Failed to rename record file")
    (← look (.rename temporary (RecordName.file record.id)))

theorem outcome_put_of_bad_temporary (h : Folder.held? place = some found)
    (bad : Folder.isFileName (RecordName.temporary record.id) = false) :
    outcome (put record) place =
      (.error (failed "Failed to create temp record file" Folder.badName),
        some (.folder found)) := by
  rw [put, outcome_ready h, outcome_look_bind (.create _),
    Folder.answer_create_of_not_isFileName bad, outcome_orFail_error_bind]

/-- A record is written to a temporary file first, which then gets the name of its file. -/
theorem outcome_put_of_held (h : Folder.held? place = some found)
    (named : Folder.isFileName (RecordName.temporary record.id) = true)
    (free : Folder.Free found (RecordName.temporary record.id)) :
    outcome (put record) place = outcome (do
      orFail (failed "Failed to rename record file")
        (← look (.rename (RecordName.temporary record.id) (RecordName.file record.id))))
      (some (.folder
        (found.put (RecordName.temporary record.id) (.file (Bytes.ofText record.text))))) := by
  have hFound (content : Bytes) : Fields.get? (found.put (RecordName.temporary record.id)
      (FileTree.file content)) (RecordName.temporary record.id) = some (.file content) :=
    Fields.get?_put_self ..
  rw [put, outcome_ready h, outcome_look_bind (.create _), Folder.answer_create named free,
    orFail_ok_bind, outcome_look_bind (.write _ _), Folder.answer_write named (hFound []),
    orFail_ok_bind, Fields.put_put_self, outcome_look_bind (.sync _),
    Folder.answer_sync (hFound _), orFail_ok_bind]

end Work

/-- The files of records. -/
def files (records : Records) : Fields FileTree :=
  records.image RecordName.file fun record => .file (Bytes.ofText record.text)

/-- The folder holds the records, each in its file, and nothing else. Before the first record is put
there may be no folder. -/
inductive Keeps : Records → Folder.Place → Prop where
  | missing : Keeps [] none
  | folder (records : Records) : Keeps records (some (.folder (files records)))

section Files

variable {records : Records} {id : String} {place : Folder.Place}

theorem get?_files : (files records).get? (RecordName.file id) =
    (records.get? id).map fun record => .file (Bytes.ofText record.text) :=
  Fields.get?_image RecordName.file_injective

theorem get?_files_of_get? {record : Record} (h : records.get? id = some record) :
    (files records).get? (RecordName.file id) = some (.file (Bytes.ofText record.text)) := by
  rw [get?_files, h, Option.map_some]

theorem names_files : (files records).names = records.names.map RecordName.file :=
  Fields.names_image

theorem free_files : Folder.Free (files records) (RecordName.file id) := by
  intro inner hFolder
  rw [get?_files] at hFolder
  cases hRecord : records.get? id <;> rw [hRecord] at hFolder <;> cases hFolder

theorem temporary_not_mem_files : RecordName.temporary id ∉ (files records).names := by
  rw [names_files, List.mem_map]
  rintro ⟨other, -, hSame⟩
  exact RecordName.temporary_ne_file id other hSame.symm

theorem Keeps.held (h : Keeps records place) : Folder.held? place = some (files records) := by
  cases h <;> rfl

theorem Keeps.find? (h : Keeps records place) (id : String) :
    Folder.find? place (RecordName.file id) =
      (records.get? id).map fun record => .file (Bytes.ofText record.text) := by
  rw [Folder.find?, h.held, Option.bind_some, get?_files]

theorem outcome_delete (h : Keeps records place) :
    (outcome (delete id) place).1 = .ok () ∧
      Keeps (records.erase id) (outcome (delete id) place).2 := by
  have hFind := h.find? id
  cases hRecord : records.get? id with
  | none =>
      rw [hRecord] at hFind
      rw [outcome_delete_of_missing hFind, Fields.erase_of_get?_eq_none hRecord]
      exact ⟨rfl, h⟩
  | some record =>
      cases h with
      | missing => cases hRecord
      | folder =>
          rw [outcome_delete_of_found (get?_files_of_get? hRecord), files,
            Fields.erase_image RecordName.file_injective]
          exact ⟨rfl, .folder _⟩

theorem outcome_list (h : Keeps records place) :
    outcome list place = (.ok (Store.sortIds records.names), place) := by
  cases h with
  | missing =>
      have hNone : Store.sortIds (Fields.names ([] : Records)) = [] := List.mergeSort_nil
      rw [hNone]
      rfl
  | folder =>
      have hIds : (files records).names.filterMap RecordName.idOfFile? = records.names := by
        simp [names_files, List.filterMap_map]
      rw [list, outcome_look_bind .present]
      simp only [Folder.answer_present, Option.isSome_some, Bool.not_true, Bool.false_eq_true,
        if_false]
      rw [outcome_look_bind .list, Folder.answer_list, orFail_ok_bind, hIds]
      rfl

/-- A record whose files can be made is put in the place of the one that had its id. -/
theorem outcome_put (h : Keeps records place) {record : Record}
    (named : Folder.isFileName (RecordName.file record.id) = true) (dotless : record.id ≠ ".") :
    outcome (put record) place =
      (.ok (), some (.folder (files (records.put record.id record)))) := by
  have hTemporary := RecordName.isFileName_temporary dotless named
  have hNew : RecordName.temporary record.id ∉ (files records).names := temporary_not_mem_files
  have hFree : Folder.Free (files records) (RecordName.temporary record.id) := by
    intro inner hFolder
    rw [Fields.get?_eq_none_of_not_mem hNew] at hFolder
    cases hFolder
  have hApart := (RecordName.temporary_ne_file record.id record.id).symm
  have hTarget : Folder.Free ((files records).put (RecordName.temporary record.id)
      (.file (Bytes.ofText record.text))) (RecordName.file record.id) := by
    intro inner
    rw [Fields.get?_put_of_ne _ _ hApart]
    exact free_files inner
  rw [outcome_put_of_held h.held hTemporary hFree, outcome_look_bind (.rename _ _),
    Folder.answer_rename named hTarget hApart (Fields.get?_put_self ..), Fields.erase_put_self,
    Fields.erase_of_not_mem hNew, files, Fields.put_image RecordName.file_injective]
  rfl

/-- A record whose id is a single dot is refused: its temporary file cannot be made. -/
theorem outcome_put_dot (h : Keeps records place) {record : Record} (dot : record.id = ".") :
    outcome (put record) place =
      (.error (failed "Failed to create temp record file" Folder.badName),
        some (.folder (files records))) :=
  outcome_put_of_bad_temporary h.held (dot ▸ RecordName.isFileName_temporary_dot)

end Files

/-- The store in memory, if it refused the record that no file can be made for. -/
def refusing : Store Records where
  backend := .directory
  answer call records :=
    match call with
    | .put record =>
      if record.id = "." then
        (.error (failed "Failed to create temp record file" Folder.badName), records)
      else Records.answer (.put record) records
    | call => Records.answer call records

/-- The file system accepts the name of the file that a call puts a record in. -/
def Named : StoreCall → Prop
  | .put record => Folder.isFileName (RecordName.file record.id) = true
  | _ => True

theorem answer_eq_refusing {call : StoreCall} {records : Records} {place : Folder.Place}
    (named : Named call) (h : Keeps records place) :
    (directoryStore.answer call place).1 = (refusing.answer call records).1 ∧
      Keeps (refusing.answer call records).2 (directoryStore.answer call place).2 := by
  cases call with
  | get id =>
      change (outcome (get id) place).1 = _ ∧ Keeps _ (outcome (get id) place).2
      rw [outcome_get (h.find? id)]
      have hModel : refusing.answer (.get id) records =
          ((records.get? id).elim (.error (.notFound id)) .ok, records) := Records.answer_get id
      rw [hModel]
      exact ⟨rfl, h⟩
  | put record =>
      change (outcome (put record) place).1 = _ ∧ Keeps _ (outcome (put record) place).2
      by_cases dot : record.id = "."
      · have hModel : refusing.answer (.put record) records =
            (.error (failed "Failed to create temp record file" Folder.badName), records) :=
          if_pos dot
        rw [outcome_put_dot h dot, hModel]
        exact ⟨rfl, .folder records⟩
      · have hModel : refusing.answer (.put record) records =
            (.ok (), records.put record.id record) := if_neg dot
        rw [outcome_put h named dot, hModel]
        exact ⟨rfl, .folder _⟩
  | contains id =>
      change (outcome (contains id) place).1 = _ ∧ Keeps _ (outcome (contains id) place).2
      rw [outcome_contains, h.find?, Option.isSome_map]
      exact ⟨rfl, h⟩
  | delete id => exact outcome_delete h
  | list =>
      change (outcome list place).1 = _ ∧ Keeps _ (outcome list place).2
      rw [outcome_list h]
      exact ⟨rfl, h⟩

/-- A run is the same with the refusal as without it exactly if nothing is refused. -/
theorem refusing_answers_eq_memory_iff (calls : List StoreCall) (records : Records) :
    (refusing.answers calls records).1 = (memoryStore.answers calls records).1 ↔
      ∀ record, .put record ∈ calls → record.id ≠ "." := by
  induction calls generalizing records with
  | nil => simp [Store.answers]
  | cons call calls ih =>
      have hSame (h : refusing.answer call records = memoryStore.answer call records) :
          (refusing.answers (call :: calls) records).1 =
              (memoryStore.answers (call :: calls) records).1 ↔
            ∀ record, .put record ∈ calls → record.id ≠ "." := by
        simp only [Store.answers, h, List.cons.injEq, true_and]
        exact ih _
      cases call with
      | put record =>
          by_cases dot : record.id = "."
          · have hDiffer : (refusing.answers (.put record :: calls) records).1 ≠
                (memoryStore.answers (.put record :: calls) records).1 := by
              simp only [Store.answers, refusing, dot, if_true]
              intro hAnswers
              cases (List.cons.inj hAnswers).1
            exact ⟨fun hAnswers => (hDiffer hAnswers).elim, fun h => (h record (by simp) dot).elim⟩
          · rw [hSame (by simp only [refusing, dot, if_false]; rfl)]
            simp [dot]
      | _ => simpa using hSame rfl

theorem answers_eq_refusing {calls : List StoreCall} (named : ∀ call ∈ calls, Named call)
    {records : Records} {place : Folder.Place} (h : Keeps records place) :
    (directoryStore.answers calls place).1 = (refusing.answers calls records).1 := by
  have hAnswers := Store.answers_of_step (fun _ answer => answer)
    (fun call records place => answer_eq_refusing) named h
  simpa using hAnswers

/-- From a folder with nothing in it, or none at all, calls are answered as the store in memory
answers them, which is as they should be, exactly if no record is put whose id is a single dot. Such
a record is refused, whatever was called before, and nothing else is. -/
theorem answers_eq_memory_iff {calls : List StoreCall} {place : Folder.Place}
    (empty : place = none ∨ place = some (.folder [])) (named : ∀ call ∈ calls, Named call) :
    ((directoryStore.answers calls place).1 = (memoryStore.answers calls []).1 ↔
      ∀ record, .put record ∈ calls → record.id ≠ ".") ∧
    (directoryStore.answers calls place).1 = (refusing.answers calls []).1 ∧
    Records.Rightly [] (memoryStore.answers calls []).1 := by
  have hKeeps : Keeps [] place := by
    rcases empty with rfl | rfl
    · exact .missing
    · exact .folder []
  have hAnswers := answers_eq_refusing named hKeeps
  refine ⟨?_, hAnswers, Records.rightly_answers Records.nodup_nil calls⟩
  rw [hAnswers, refusing_answers_eq_memory_iff]

/-- Ids that look like escaped ones, like names of other files, or like nothing at all. -/
theorem answers_eq_memory_escaping :
    let calls : List StoreCall := [.put (.leaping "tf:%3A/..\\:"), .put (.leaping ""), .list,
      .put (.leaping ".json.tmp"), .get "tf:%3A/..\\:", .delete "", .contains "", .list]
    (directoryStore.answers calls none).1 = (memoryStore.answers calls []).1 := by
  refine (answers_eq_memory_iff (.inl rfl) ?_).1.mpr ?_
  · simp only [List.forall_mem_cons, List.not_mem_nil, false_implies, implies_true, Named,
      Record.leaping, and_true, true_and]
    decide
  · simp [Record.leaping]

/-- A file can have the name of the record's file, and yet the record is refused. -/
theorem refused_dot :
    Folder.isFileName (RecordName.file ".") = true ∧
      (directoryStore.answers [.put (.leaping ".")] none).1 ≠
        (memoryStore.answers [.put (.leaping ".")] []).1 := by
  refine ⟨by decide, fun hAnswers => ?_⟩
  rw [answers_eq_refusing (by simp [Named]; decide) .missing,
    refusing_answers_eq_memory_iff] at hAnswers
  exact hAnswers (.leaping ".") (by simp) rfl

end DirectoryStore

end ServiceBroker
