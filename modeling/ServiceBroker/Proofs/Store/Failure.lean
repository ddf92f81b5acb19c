import ServiceBroker.Proofs.Files.Failure
import ServiceBroker.Proofs.Store.Separation

/-! Records in a folder when the store fails or stops midway.

What such a store leaves behind is a temporary file. Nothing that is asked later finds it, so the
folder holds the records that it held before, until the temporary file has taken the name of the
record's file. -/

namespace ServiceBroker

namespace DirectoryStore

open Folder (Place Partly Yields Runs)

variable {records : Records} {found : Fields FileTree} {place left : Place} {id : String}
  {record : Record} {log : List (Exchange folderInterface)}

/-! ### Records beside temporary files -/

/-- A file of the store: one of a record, or a temporary one. -/
def Known (field : String × FileTree) : Prop :=
  (∃ id, field.1 = RecordName.file id) ∨
    ∃ id content, field = (RecordName.temporary id, .file content)

/-- Among the files of the store that are found each record is in its file. -/
structure Holds (records : Records) (found : Fields FileTree) : Prop where
  once : records.names.Nodup
  distinct : found.names.Nodup
  known : ∀ field ∈ found, Known field
  files : ∀ id, found.get? (RecordName.file id) =
    (records.get? id).map fun record => .file (Bytes.ofText record.text)

theorem holds_nil : Holds [] [] where
  once := List.nodup_nil
  distinct := List.nodup_nil
  known := nofun
  files := fun _ => rfl

theorem Holds.free_temporary (h : Holds records found) (id : String) :
    Folder.Free found (RecordName.temporary id) := by
  intro inner hFolder
  rcases h.known _ (Fields.mem_of_get? hFolder) with ⟨other, hFile⟩ | ⟨other, content, hSame⟩
  · exact RecordName.temporary_ne_file id other hFile
  · have hTree : FileTree.folder inner = .file content := congrArg Prod.snd hSame
    cases hTree

theorem Holds.free_file (h : Holds records found) (id : String) :
    Folder.Free found (RecordName.file id) := by
  intro inner hFolder
  rw [h.files] at hFolder
  cases hRecord : records.get? id <;> rw [hRecord] at hFolder <;> cases hFolder

theorem known_put {name : String} {tree : FileTree} (h : ∀ field ∈ found, Known field)
    (hNew : Known (name, tree)) : ∀ field ∈ found.put name tree, Known field := by
  intro field hField
  rcases Fields.mem_of_mem_put hField with rfl | hOld
  · exact hNew
  · exact h field hOld

theorem known_erase {name : String} (h : ∀ field ∈ found, Known field) :
    ∀ field ∈ found.erase name, Known field :=
  fun field hField => h field (List.mem_filter.mp hField).1

/-- Temporary files come and go without any effect. -/
theorem Holds.put_temporary (h : Holds records found) (id : String) (content : Bytes) :
    Holds records (found.put (RecordName.temporary id) (.file content)) where
  once := h.once
  distinct := Fields.nodup_put h.distinct
  known := known_put h.known (.inr ⟨id, content, rfl⟩)
  files := fun other => by
    rw [Fields.get?_put_of_ne _ _ (RecordName.temporary_ne_file id other).symm, h.files]

theorem Holds.erase_temporary (h : Holds records found) (id : String) :
    Holds records (found.erase (RecordName.temporary id)) where
  once := h.once
  distinct := Fields.nodup_erase h.distinct
  known := known_erase h.known
  files := fun other => by
    rw [Fields.get?_erase_of_ne _ (RecordName.temporary_ne_file id other).symm, h.files]

theorem Holds.put_file (h : Holds records found) (record : Record) :
    Holds (records.put record.id record)
      (found.put (RecordName.file record.id) (.file (Bytes.ofText record.text))) where
  once := Fields.nodup_put h.once
  distinct := Fields.nodup_put h.distinct
  known := known_put h.known (.inl ⟨record.id, rfl⟩)
  files := fun other => by
    by_cases hId : other = record.id
    · rw [hId, Fields.get?_put_self, Fields.get?_put_self, Option.map_some]
    · rw [Fields.get?_put_of_ne _ _ (mt (@RecordName.file_injective _ _) hId),
        Fields.get?_put_of_ne _ _ hId, h.files]

theorem Holds.erase_file (h : Holds records found) (id : String) :
    Holds (records.erase id) (found.erase (RecordName.file id)) where
  once := Fields.nodup_erase h.once
  distinct := Fields.nodup_erase h.distinct
  known := known_erase h.known
  files := fun other => by
    by_cases hId : other = id
    · rw [hId, Fields.get?_erase_self, Fields.get?_erase_self, Option.map_none]
    · rw [Fields.get?_erase_of_ne _ (mt (@RecordName.file_injective _ _) hId),
        Fields.get?_erase_of_ne _ hId, h.files]

/-- The names that are found stand for the ids of the records, each once. -/
theorem Holds.ids_perm (h : Holds records found) :
    (found.names.filterMap RecordName.idOfFile?).Perm records.names := by
  have hFile : ∀ name ∈ found.names, ∀ id, RecordName.idOfFile? name = some id →
      name = RecordName.file id := by
    intro name hName id hId
    obtain ⟨field, hField, rfl⟩ := List.mem_map.mp hName
    rcases h.known field hField with ⟨other, hFile⟩ | ⟨other, content, rfl⟩
    · rw [hFile, RecordName.idOfFile?_file, Option.some.injEq] at hId
      rw [hFile, hId]
    · rw [RecordName.idOfFile?_temporary] at hId
      cases hId
  have hDistinct : (found.names.filterMap RecordName.idOfFile?).Nodup := by
    refine List.pairwise_filterMap.mpr (h.distinct.imp_of_mem ?_)
    rintro first second hFirst hSecond hNames id hId other hOther rfl
    exact hNames ((hFile first hFirst id hId).trans (hFile second hSecond id hOther).symm)
  have hKnown (id : String) : RecordName.file id ∈ found.names ↔ id ∈ records.names := by
    rw [Fields.mem_names_iff, Fields.mem_names_iff, h.files, Option.isSome_map]
  refine (List.perm_ext_iff_of_nodup hDistinct h.once).mpr fun id => ?_
  rw [List.mem_filterMap, ← hKnown]
  constructor
  · rintro ⟨name, hName, hId⟩
    rwa [← hFile name hName id hId]
  · exact fun hName => ⟨_, hName, RecordName.idOfFile?_file id⟩

/-- The records can be found in the place of the folder. -/
def Holding (records : Records) (place : Place) : Prop :=
  ∃ found, Folder.held? place = some found ∧ Holds records found

theorem holding_folder (h : Holds records found) : Holding records (some (.folder found)) :=
  ⟨found, rfl, h⟩

/-! ### Answers -/

theorem Holding.find? (h : Holding records place) (id : String) :
    Folder.find? place (RecordName.file id) =
      (records.get? id).map fun record => .file (Bytes.ofText record.text) := by
  obtain ⟨found, hHeld, h⟩ := h
  rw [Folder.find?, hHeld, Option.bind_some, h.files]

/-- The store in memory, if it refused the records that no files can be made for. -/
def accepting : Store Records where
  backend := .directory
  answer call records :=
    match call with
    | .put record =>
      if !Folder.isFileName (RecordName.temporary record.id) then
        (.error (failed "Failed to create temp record file" Folder.badName), records)
      else if !Folder.isFileName (RecordName.file record.id) then
        (.error (failed "Failed to rename record file" Folder.badName), records)
      else Records.answer (.put record) records
    | call => Records.answer call records

theorem accepting_put_of_bad_temporary
    (bad : Folder.isFileName (RecordName.temporary record.id) = false) :
    accepting.answer (.put record) records =
      (.error (failed "Failed to create temp record file" Folder.badName), records) := by
  simp only [accepting, bad, Bool.not_false, if_true]

theorem accepting_put_of_bad_file
    (named : Folder.isFileName (RecordName.temporary record.id) = true)
    (bad : Folder.isFileName (RecordName.file record.id) = false) :
    accepting.answer (.put record) records =
      (.error (failed "Failed to rename record file" Folder.badName), records) := by
  simp only [accepting, named, bad, Bool.not_true, Bool.not_false, Bool.false_eq_true, if_false,
    if_true]

theorem accepting_put (temporary : Folder.isFileName (RecordName.temporary record.id) = true)
    (file : Folder.isFileName (RecordName.file record.id) = true) :
    accepting.answer (.put record) records = (.ok (), records.put record.id record) := by
  simp only [accepting, temporary, file, Bool.not_true, Bool.false_eq_true, if_false]
  rfl

theorem outcome_delete_holding (h : Holding records place) (id : String) :
    (outcome (delete id) place).1 = .ok () ∧
      Holding (records.erase id) (outcome (delete id) place).2 := by
  have hFind := h.find? id
  cases hRecord : records.get? id with
  | none =>
      rw [hRecord] at hFind
      rw [outcome_delete_of_missing hFind, Fields.erase_of_get?_eq_none hRecord]
      exact ⟨rfl, h⟩
  | some record =>
      rw [hRecord] at hFind
      obtain ⟨found, rfl, hFound⟩ := Folder.exists_folder_of_find? hFind
      obtain ⟨_, ⟨⟩, h⟩ := h
      rw [outcome_delete_of_found hFound]
      exact ⟨rfl, holding_folder (h.erase_file id)⟩

theorem outcome_list_holding (h : Holding records place) :
    (outcome list place).1 = .ok (Store.sortIds records.names) ∧
      (outcome list place).2 = place := by
  obtain ⟨found, hHeld, h⟩ := h
  constructor
  · rw [outcome_list_eq, hHeld]
    exact congrArg Except.ok (Store.sortIds_eq_of_perm h.ids_perm)
  · rcases place with _ | content | inner <;> rfl

theorem outcome_put_holding (h : Holding records place) (record : Record) :
    (outcome (put record) place).1 = (accepting.answer (.put record) records).1 ∧
      Holding (accepting.answer (.put record) records).2 (outcome (put record) place).2 := by
  obtain ⟨found, hHeld, h⟩ := h
  cases hTemporary : Folder.isFileName (RecordName.temporary record.id) with
  | false =>
      rw [accepting_put_of_bad_temporary hTemporary, outcome_put_of_bad_temporary hHeld hTemporary]
      exact ⟨rfl, holding_folder h⟩
  | true =>
      have hWritten := h.put_temporary record.id (Bytes.ofText record.text)
      have hFound : Fields.get? (found.put (RecordName.temporary record.id)
          (FileTree.file (Bytes.ofText record.text))) (RecordName.temporary record.id) =
            some (.file (Bytes.ofText record.text)) := Fields.get?_put_self ..
      rw [outcome_put_of_held hHeld hTemporary (h.free_temporary _),
        outcome_look_bind (.rename _ _)]
      cases hFile : Folder.isFileName (RecordName.file record.id) with
      | false =>
          rw [accepting_put_of_bad_file hTemporary hFile,
            Folder.answer_rename_of_not_isFileName hFile hFound]
          exact ⟨rfl, holding_folder hWritten⟩
      | true =>
          rw [accepting_put hTemporary hFile, Folder.answer_rename hFile (hWritten.free_file _)
            (RecordName.temporary_ne_file _ _).symm hFound]
          exact ⟨rfl, holding_folder ((hWritten.erase_temporary _).put_file record)⟩

theorem answer_eq_accepting (h : Holding records place) (call : StoreCall) :
    (directoryStore.answer call place).1 = (accepting.answer call records).1 ∧
      Holding (accepting.answer call records).2 (directoryStore.answer call place).2 := by
  cases call with
  | get id =>
      change (outcome (get id) place).1 = _ ∧ Holding _ (outcome (get id) place).2
      have hModel : accepting.answer (.get id) records =
          ((records.get? id).elim (.error (.notFound id)) .ok, records) := Records.answer_get id
      rw [outcome_get (h.find? id), hModel]
      exact ⟨rfl, h⟩
  | put record => exact outcome_put_holding h record
  | contains id =>
      change (outcome (contains id) place).1 = _ ∧ Holding _ (outcome (contains id) place).2
      rw [outcome_contains, h.find?, Option.isSome_map]
      exact ⟨rfl, h⟩
  | delete id => exact outcome_delete_holding h id
  | list =>
      obtain ⟨hListed, hPlace⟩ := outcome_list_holding h
      change (outcome list place).1 = _ ∧ Holding _ (outcome list place).2
      rw [hListed, hPlace]
      exact ⟨rfl, h⟩

/-- What is held determines every answer. -/
theorem answers_eq_accepting (h : Holding records place) (calls : List StoreCall) :
    (directoryStore.answers calls place).1 = (accepting.answers calls records).1 := by
  have hAnswers := Store.answers_of_step (fun _ answer => answer)
    (fun call records place (_ : True) h => answer_eq_accepting h call)
    (show ∀ call ∈ calls, True from fun _ _ => trivial) h
  simpa using hAnswers

/-! ### Steps that change no record -/

/-- The step changes nothing but temporary files. -/
def Aside : FolderStep → Prop
  | .create name | .write name _ => ∃ id, name = RecordName.temporary id
  | .remove _ | .rename .. => False
  | _ => True

theorem Holding.putFile (h : Holding records place) (id : String) (content : Bytes) :
    Holding records (Folder.putFile place (RecordName.temporary id) content).2 := by
  obtain ⟨found, hHeld, hFound⟩ := h
  rcases place with _ | other | inner
  · exact ⟨found, hHeld, hFound⟩
  · cases hHeld
  · cases hHeld
    have hEntries : Folder.entries (some (.folder found)) = .ok found := rfl
    simp only [Folder.putFile, hEntries]
    split
    · exact holding_folder hFound
    · split
      · exact holding_folder hFound
      · exact holding_folder (hFound.put_temporary id content)

theorem Holding.answer {step : FolderStep} (h : Holding records place) (hStep : Aside step) :
    Holding records (Folder.answer step place).2 := by
  cases step with
  | present | contains | read | sync | list => exact h
  | make =>
      obtain ⟨found, hHeld, hFound⟩ := h
      rcases place with _ | content | inner
      · exact ⟨found, hHeld, hFound⟩
      · cases hHeld
      · exact ⟨found, hHeld, hFound⟩
  | create name =>
      obtain ⟨id, rfl⟩ := hStep
      exact h.putFile id []
  | write name content =>
      obtain ⟨id, rfl⟩ := hStep
      rw [Folder.answer]
      cases Folder.fileIn place (RecordName.temporary id) with
      | error reason => exact h
      | ok old => exact h.putFile id content
  | rename | remove => exact hStep.elim

theorem Holding.partly {step : FolderStep} (h : Holding records place) (hStep : Aside step)
    (hPartly : Partly step place left) : Holding records left := by
  cases hPartly with
  | nothing => exact h
  | @piece _ name content piece hPiece => exact h.answer (show Aside (.write name piece) from hStep)
  | whole hWhole => exact h.answer hStep

theorem Holding.yields {step : FolderStep} {reply : step.Reply} (h : Holding records place)
    (hStep : Aside step) (hYields : Folder.Yields step place reply left) :
    Holding records left := by
  cases hYields with
  | answered => exact h.answer hStep
  | failed hReply hLeft => exact h.partly hStep hLeft

/-! ### Runs that fail or stop -/

/-- Some file was given the name of another one. -/
def Renamed (log : List (Exchange folderInterface)) : Prop :=
  ∃ source target, ⟨FolderStep.rename source target, Except.ok ()⟩ ∈ log

/-- The record is there once its file has its name, and not before. -/
def Leaves (records : Records) (record : Record) (log : List (Exchange folderInterface))
    (left : Place) : Prop :=
  (¬Renamed log ∧ Holding records left) ∨
    (Renamed log ∧ Holding (records.put record.id record) left)

theorem not_renamed_nil : ¬Renamed [] := by
  rintro ⟨source, target, hMem⟩
  cases hMem

theorem leaves_nil (h : Holding records left) : Leaves records record [] left :=
  .inl ⟨not_renamed_nil, h⟩

theorem renamed_cons_iff {step : FolderStep} {reply : step.Reply} (hStep : Aside step) :
    Renamed (⟨step, reply⟩ :: log) ↔ Renamed log := by
  refine exists_congr fun source => exists_congr fun target => ?_
  rw [List.mem_cons, or_iff_right]
  intro hSame
  obtain rfl : FolderStep.rename source target = step := congrArg Exchange.request hSame
  exact hStep

/-- A step that changes no record before the others makes no difference. -/
theorem Leaves.cons {step : FolderStep} {reply : step.Reply} (h : Leaves records record log left)
    (hStep : Aside step) : Leaves records record (⟨step, reply⟩ :: log) left :=
  h.imp (And.imp_left (mt (renamed_cons_iff hStep).mp))
    (And.imp_left (renamed_cons_iff hStep).mpr)

/-- A step that fails or stops, or is done and followed by the rest of the work. -/
theorem runs_look_bind {α : Type} {step : FolderStep} {next : step.Reply → Work α}
    (hRun : Runs (ExceptT.run (look step >>= next)) place log left) :
    log = [] ∧ Partly step place left ∨ ∃ reply between rest,
      log = ⟨step, reply⟩ :: rest ∧ Folder.Yields step place reply between ∧
        Runs (ExceptT.run (next reply)) between rest left := by
  change Runs (.ask (I := folderInterface) step fun reply => ExceptT.run (next reply)) _ _ _ at hRun
  cases hRun with
  | stopped hPartly => exact .inl ⟨rfl, hPartly⟩
  | goesOn hYields hRest => exact .inr ⟨_, _, _, rfl, hYields, hRest⟩

/-- Nothing comes after a failure. -/
theorem runs_throw {α β : Type} {failure : String → StoreError} {reason : String}
    {next : α → Work β}
    (hRun : Runs (ExceptT.run (orFail failure (Except.error reason : Except String α) >>= next))
      place log left) :
    log = [] ∧ left = place :=
  Folder.runs_done
    (show Runs (.done (.error (failure reason) : Except StoreError β)) _ _ _ from hRun)

/-- Before the file gets its name, each step can only lead on to the next one. -/
theorem leaves_of_aside {failure : String → StoreError} {next : Unit → Work Unit}
    (step : FolderStep) (result : step.Reply → Except String Unit) (hStep : Aside step)
    (h : Holding records place)
    (hRun : Runs (ExceptT.run (look step >>= fun reply => orFail failure (result reply) >>= next))
      place log left)
    (hNext : ∀ reply between rest, result reply = .ok () → Folder.Yields step place reply between →
      Holding records between → Runs (ExceptT.run (next ())) between rest left →
      Leaves records record rest left) :
    Leaves records record log left := by
  rcases runs_look_bind hRun with ⟨rfl, hPartly⟩ | ⟨reply, between, rest, rfl, hYields, hRest⟩
  · exact leaves_nil (h.partly hStep hPartly)
  · have hBetween := h.yields hStep hYields
    refine Leaves.cons ?_ hStep
    cases hResult : result reply with
    | error reason =>
        rw [hResult] at hRest
        obtain ⟨rfl, rfl⟩ := runs_throw hRest
        exact leaves_nil hBetween
    | ok =>
        rw [hResult] at hRest
        exact hNext reply between rest hResult hYields hBetween hRest

/-- A file that was written is there. -/
theorem find?_of_written {name : String} {content : Bytes}
    (hYields : Folder.Yields (.write name content) place (.ok ()) left) :
    Folder.find? left name = some (.file content) := by
  rcases hYields.cases with hAnswer | ⟨⟨reason, hReason⟩, -⟩
  · rw [Folder.answer] at hAnswer
    split at hAnswer
    · obtain ⟨found, rfl⟩ := Folder.exists_put_of_putFile hAnswer
      exact Fields.get?_put_self ..
    · cases hAnswer
  · cases hReason

/-- Waiting for a file changes nothing. -/
theorem eq_of_synced {name : String} (hYields : Folder.Yields (.sync name) place (.ok ()) left) :
    left = place := by
  rcases hYields.cases with hAnswer | ⟨⟨reason, hReason⟩, -⟩
  · exact (congrArg Prod.snd hAnswer).symm
  · cases hReason

/-- The file gets its new name and the record is there, or nothing has changed. -/
theorem holding_of_renamed {reply : FolderStep.Reply
      (.rename (RecordName.temporary record.id) (RecordName.file record.id))}
    (h : Holds records found)
    (hFound : found.get? (RecordName.temporary record.id) =
      some (.file (Bytes.ofText record.text)))
    (hYields : Folder.Yields _ (some (.folder found)) reply left) :
    reply = .ok () ∧ Holding (records.put record.id record) left ∨
      ∃ reason, reply = .error reason ∧ Holding records left := by
  rcases hYields.cases with hAnswer | ⟨⟨reason, rfl⟩, hLeft⟩
  · cases hFile : Folder.isFileName (RecordName.file record.id) with
    | false =>
        rw [Folder.answer_rename_of_not_isFileName hFile hFound] at hAnswer
        obtain ⟨rfl, rfl⟩ := Prod.mk.inj hAnswer
        exact .inr ⟨_, rfl, holding_folder h⟩
    | true =>
        rw [Folder.answer_rename hFile (h.free_file _) (RecordName.temporary_ne_file _ _).symm
          hFound] at hAnswer
        obtain ⟨rfl, rfl⟩ := Prod.mk.inj hAnswer
        exact .inl ⟨rfl, holding_folder ((h.erase_temporary _).put_file record)⟩
  · cases hLeft with
    | nothing => exact .inr ⟨reason, rfl, holding_folder h⟩
    | whole hWhole => exact absurd rfl (hWhole _ _)

theorem leaves_renaming (h : Holding records place)
    (hWritten : Folder.find? place (RecordName.temporary record.id) =
      some (.file (Bytes.ofText record.text)))
    (hRun : Runs (ExceptT.run (do
      orFail (failed "Failed to rename record file")
        (← look (.rename (RecordName.temporary record.id) (RecordName.file record.id))) :
          Work Unit)) place log left) : Leaves records record log left := by
  obtain ⟨found, rfl, hFound⟩ := Folder.exists_folder_of_find? hWritten
  obtain ⟨_, ⟨⟩, hHolds⟩ := h
  rcases runs_look_bind hRun with ⟨rfl, hPartly⟩ | ⟨reply, between, rest, rfl, hYields, hRest⟩
  · cases hPartly with
    | nothing => exact leaves_nil (holding_folder hHolds)
    | whole hWhole => exact absurd rfl (hWhole _ _)
  · rcases holding_of_renamed hHolds hFound hYields with ⟨rfl, hLeft⟩ | ⟨reason, rfl, hLeft⟩
    · obtain ⟨rfl, rfl⟩ := Folder.runs_done
        (show Runs (.done (.ok () : Except StoreError Unit)) _ _ _ from hRest)
      exact .inr ⟨⟨_, _, List.mem_singleton_self _⟩, hLeft⟩
    · obtain ⟨rfl, rfl⟩ := Folder.runs_done
        (show Runs (.done (.error _ : Except StoreError Unit)) _ _ _ from hRest)
      refine .inl ⟨?_, hLeft⟩
      rintro ⟨source, target, hMem⟩
      cases List.mem_singleton.mp hMem

theorem leaves_writing (h : Holding records place)
    (hRun : Runs (ExceptT.run (writing record)) place log left) :
    Leaves records record log left := by
  have hTemporary : ∃ id, RecordName.temporary record.id = RecordName.temporary id := ⟨_, rfl⟩
  refine leaves_of_aside (.create _) id hTemporary h hRun ?_
  rintro _ created _ - - hCreated hRun
  refine leaves_of_aside (.write _ _) id hTemporary hCreated hRun ?_
  rintro _ written _ rfl hYields hWritten hRun
  have hFound := find?_of_written hYields
  refine leaves_of_aside (.sync _) id trivial hWritten hRun ?_
  rintro _ synced _ rfl hYields hSynced hRun
  rw [← eq_of_synced hYields] at hFound
  exact leaves_renaming hSynced hFound hRun

/-- Whatever happens while a record is put, it is there once its file has its name, and not before.
-/
theorem leaves_put (h : Holding records place)
    (hRun : Runs (ExceptT.run (put record)) place log left) : Leaves records record log left := by
  rcases runs_look_bind hRun with ⟨rfl, hPartly⟩ | ⟨there, between, rest, rfl, hYields, hRest⟩
  · exact leaves_nil (h.partly (show Aside .present from trivial) hPartly)
  · have hBetween := h.yields (show Aside .present from trivial) hYields
    refine Leaves.cons ?_ (show Aside .present from trivial)
    cases there with
    | true => exact leaves_writing hBetween hRest
    | false =>
        refine leaves_of_aside .make id trivial hBetween hRest ?_
        rintro _ made _ - - hMade hRun
        exact leaves_writing hMade hRun

/-! ### Places that the store can find -/

/-- The place of the folder after calls that ended, failed or stopped. -/
inductive Reached : Place → Prop where
  | missing : Reached none
  | empty : Reached (some (.folder []))
  | called {call : StoreCall} {place left : Place} {log : List (Exchange folderInterface)}
      (before : Reached place) (run : Runs (perform call) place log left) : Reached left

/-- The step changes nothing but temporary files, or takes the file of a record away. -/
def Sound (step : FolderStep) : Prop :=
  Aside step ∨ ∃ id, step = .remove (RecordName.file id)

theorem Holding.removeFile (h : Holding records place) (id : String) :
    ∃ records, Holding records (Folder.removeFile place (RecordName.file id)).2 := by
  obtain ⟨found, hHeld, hFound⟩ := h
  rcases place with _ | content | inner
  · exact ⟨records, found, hHeld, hFound⟩
  · cases hHeld
  · cases hHeld
    have hEntries : Folder.entries (some (.folder found)) = .ok found := rfl
    simp only [Folder.removeFile, hEntries]
    cases Folder.fileIn (some (.folder found)) (RecordName.file id) with
    | error reason => exact ⟨records, holding_folder hFound⟩
    | ok content => exact ⟨records.erase id, holding_folder (hFound.erase_file id)⟩

theorem exists_holding_of_sound {step : FolderStep} (hStep : Sound step)
    (h : ∃ records, Holding records place) :
    ∃ records, Holding records (Folder.answer step place).2 := by
  obtain ⟨records, h⟩ := h
  rcases hStep with hAside | ⟨id, rfl⟩
  · exact ⟨records, h.answer hAside⟩
  · exact h.removeFile id

theorem exists_holding_of_partly {step : FolderStep} (hStep : Sound step)
    (h : ∃ records, Holding records place) (hPartly : Partly step place left) :
    ∃ records, Holding records left := by
  cases hPartly with
  | nothing => exact h
  | @piece _ name content piece hPiece =>
      refine exists_holding_of_sound (.inl ?_) h
      rcases hStep with hAside | ⟨id, hRemove⟩
      · exact hAside
      · cases hRemove
  | whole hWhole => exact exists_holding_of_sound hStep h

theorem perform_sound {call : StoreCall} (h : ∀ record, call ≠ .put record) :
    (perform call).Asks Sound := by
  cases call with
  | get id =>
      refine asks_look_bind (.contains _) (.inl trivial) fun there => ?_
      split
      · trivial
      · refine asks_look_bind (.read _) (.inl trivial) fun content => asks_orFail_bind fun _ => ?_
        split
        · trivial
        · exact asks_orFail _ _
  | put record => exact (h record rfl).elim
  | contains id => exact ⟨.inl trivial, fun _ => trivial⟩
  | delete id =>
      refine asks_look_bind (.contains _) (.inl trivial) fun there => ?_
      split
      · exact asks_look_bind (.remove _) (.inr ⟨id, rfl⟩) fun _ => asks_orFail _ _
      · trivial
  | list =>
      refine asks_look_bind .present (.inl trivial) fun there => ?_
      split
      · trivial
      · exact asks_look_bind .list (.inl trivial) fun _ => asks_orFail_bind fun _ => trivial

/-- Whatever happened before, some records are held. -/
theorem Reached.exists_holding (h : Reached place) : ∃ records, Holding records place := by
  induction h with
  | missing => exact ⟨[], [], rfl, holds_nil⟩
  | empty => exact ⟨[], [], rfl, holds_nil⟩
  | @called call place left log before run ih =>
      by_cases hPut : ∃ record, call = .put record
      · obtain ⟨record, rfl⟩ := hPut
        obtain ⟨records, h⟩ := ih
        rcases leaves_put h run with ⟨-, hLeft⟩ | ⟨-, hLeft⟩
        · exact ⟨records, hLeft⟩
        · exact ⟨_, hLeft⟩
      · exact run.keeps (fun _ _ => exists_holding_of_sound)
          (fun _ _ _ => exists_holding_of_partly)
          (perform_sound fun record hCall => hPut ⟨record, hCall⟩) ih

/-- A record is refused for its own name only, never for what lies in the folder. -/
theorem put_ok_iff (h : Holding records place) (record : Record) :
    (directoryStore.answer (.put record) place).1 = .ok () ↔
      Folder.isFileName (RecordName.file record.id) = true ∧ record.id ≠ "." := by
  have hDotless (named : Folder.isFileName (RecordName.temporary record.id) = true) :
      record.id ≠ "." := by
    intro hDot
    rw [hDot, RecordName.isFileName_temporary_dot] at named
    cases named
  rw [(answer_eq_accepting h (.put record)).1]
  cases hTemporary : Folder.isFileName (RecordName.temporary record.id) with
  | false =>
      rw [accepting_put_of_bad_temporary hTemporary]
      refine ⟨nofun, fun ⟨hFile, hDot⟩ => ?_⟩
      rw [RecordName.isFileName_temporary hDot hFile] at hTemporary
      cases hTemporary
  | true =>
      cases hFile : Folder.isFileName (RecordName.file record.id) with
      | false =>
          rw [accepting_put_of_bad_file hTemporary hFile]
          exact ⟨nofun, nofun⟩
      | true =>
          rw [accepting_put hTemporary hFile]
          exact ⟨fun _ => ⟨rfl, hDotless hTemporary⟩, fun _ => rfl⟩

/-- Whatever fails while a record is put, and wherever the work stops: as long as its file has not
got its name, all that is asked later is answered as if the record had never been put, and otherwise
as if it had been put in one step. A later record is put all the same, exactly if its file can have
its name and its id is no single dot. -/
theorem interrupted_put_unseen (hReached : Reached place)
    (hRun : Runs (perform (.put record)) place log left) :
    (¬Renamed log → ∀ calls,
      (directoryStore.answers calls left).1 = (directoryStore.answers calls place).1) ∧
    (∃ records : Records, ∀ calls,
      (directoryStore.answers calls place).1 = (accepting.answers calls records).1 ∧
      (Renamed log → (directoryStore.answers calls left).1 =
        (accepting.answers calls (records.put record.id record)).1)) ∧
    ∀ later : Record, (directoryStore.answer (.put later) left).1 = .ok () ↔
      Folder.isFileName (RecordName.file later.id) = true ∧ later.id ≠ "." := by
  obtain ⟨records, hHolding⟩ := hReached.exists_holding
  have hBefore := answers_eq_accepting hHolding
  rcases leaves_put hHolding hRun with ⟨hNot, hLeft⟩ | ⟨hRenamed, hLeft⟩
  · refine ⟨fun _ calls => ?_, ⟨records, fun calls => ⟨hBefore calls, fun h => (hNot h).elim⟩⟩,
      put_ok_iff hLeft⟩
    rw [answers_eq_accepting hLeft, hBefore]
  · exact ⟨fun h => (h hRenamed).elim,
      ⟨records, fun calls => ⟨hBefore calls, fun _ => answers_eq_accepting hLeft calls⟩⟩,
      put_ok_iff hLeft⟩

/-- A store can stop while it writes, in a folder that was made for the record. -/
theorem exists_runs_piece (record : Record)
    (named : Folder.isFileName (RecordName.temporary record.id) = true)
    {piece : Bytes} (hPiece : piece <+: Bytes.ofText record.text) :
    ∃ log, ¬Renamed log ∧ Runs (perform (.put record)) none log
      (some (.folder [(RecordName.temporary record.id, .file piece)])) := by
  have hCreated := Folder.answer_create named (show Folder.Free [] _ from nofun)
  have hWritten : Folder.answer (.write (RecordName.temporary record.id) piece)
      (some (.folder (Fields.put [] (RecordName.temporary record.id) (.file [])))) =
        (.ok (), some (.folder [(RecordName.temporary record.id, .file piece)])) := by
    rw [Folder.answer_write named (Fields.get?_put_self ..), Fields.put_put_self]
    rfl
  refine ⟨_, ?_, .goesOn .answered (.goesOn .answered (.goesOn (.of_answer hCreated)
    (.stopped (Folder.partly_of_prefix hPiece hWritten))))⟩
  have hAside : Aside (.create (RecordName.temporary record.id)) := ⟨_, rfl⟩
  rw [renamed_cons_iff (show Aside .present from trivial),
    renamed_cons_iff (show Aside .make from trivial), renamed_cons_iff hAside]
  exact not_renamed_nil

/-- Nothing has to happen to a store: then a new record is there. -/
theorem exists_runs_renamed (record : Record) (h : Holding records place)
    (hNew : records.get? record.id = none)
    (hTemporary : Folder.isFileName (RecordName.temporary record.id) = true)
    (hFile : Folder.isFileName (RecordName.file record.id) = true) :
    ∃ log left, Renamed log ∧ Runs (perform (.put record)) place log left := by
  obtain ⟨log, hRun⟩ := Folder.exists_runs (perform (.put record)) place
  refine ⟨log, _, ?_, hRun⟩
  obtain ⟨-, hOld⟩ | ⟨hRenamed, -⟩ := leaves_put h hRun
  · have hLeft := (answer_eq_accepting h (.put record)).2
    rw [accepting_put hTemporary hFile] at hLeft
    have hFound := (hOld.find? record.id).symm.trans (hLeft.find? record.id)
    rw [hNew, Fields.get?_put_self] at hFound
    cases hFound
  · exact hRenamed

/-- Of a record whose writing stopped after a piece nothing is seen; one that was put at once is
there. -/
theorem interrupted_put_unseen_piece :
    (∃ log left, Runs (perform (.put (.leaping "a"))) none log left ∧ ¬Renamed log ∧
      (Folder.find? left (RecordName.temporary "a")).isSome ∧
      ∀ calls, (directoryStore.answers calls left).1 = (directoryStore.answers calls none).1) ∧
    ∃ log left, Runs (perform (.put (.leaping "a"))) none log left ∧ Renamed log ∧
      ∃ records : Records, ∀ calls, (directoryStore.answers calls left).1 =
        (accepting.answers calls (records.put "a" (.leaping "a"))).1 := by
  have hTemporary : Folder.isFileName (RecordName.temporary "a") = true := by decide
  have hFile : Folder.isFileName (RecordName.file "a") = true := by decide
  constructor
  · have hPiece : (Bytes.ofText (Record.leaping "a").text).take 1 <+: _ := List.take_prefix _ _
    obtain ⟨log, hNot, hRun⟩ := exists_runs_piece (.leaping "a") hTemporary hPiece
    have hThere (content : Bytes) : (Folder.find? (some (.folder [(RecordName.temporary "a",
        .file content)])) (RecordName.temporary "a")).isSome = true := by
      simp [Folder.find?, Folder.held?, Fields.get?]
    exact ⟨log, _, hRun, hNot, hThere _, (interrupted_put_unseen .missing hRun).1 hNot⟩
  · have hMissing : Holding [] none := ⟨[], rfl, holds_nil⟩
    obtain ⟨log, left, hRenamed, hRun⟩ := exists_runs_renamed (.leaping "a") hMissing rfl
      hTemporary hFile
    obtain ⟨records, hRecords⟩ := (interrupted_put_unseen .missing hRun).2.1
    exact ⟨log, left, hRun, hRenamed, records, fun calls => (hRecords calls).2 hRenamed⟩

/-- A file can have the name of the record's file, and yet no record is put into it, after an
interruption as before. -/
theorem refused_dot_after_piece :
    Folder.isFileName (RecordName.file ".") = true ∧
      ∃ log left, Runs (perform (.put (.leaping "a"))) none log left ∧ ¬Renamed log ∧
        (directoryStore.answer (.put (.leaping ".")) left).1 ≠ .ok () := by
  have hName : Folder.isFileName (RecordName.temporary "a") = true := by decide
  obtain ⟨log, hRenamed, hRun⟩ := exists_runs_piece (.leaping "a") hName
    (List.take_prefix 1 _)
  obtain ⟨records, hLeft⟩ := (Reached.missing.called hRun).exists_holding
  refine ⟨by decide, log, _, hRun, hRenamed, fun hPut => ?_⟩
  exact ((put_ok_iff hLeft _).mp hPut).2 rfl

end DirectoryStore

end ServiceBroker
