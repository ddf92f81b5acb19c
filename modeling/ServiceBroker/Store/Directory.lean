import ServiceBroker.Files.Folder
import ServiceBroker.Store.Basic
import ServiceBroker.Store.RecordName

/-!
The store that keeps each record in a file of its own in one folder.

A record is written to a temporary file first, which then takes the name of the record's file in
one step. So whoever reads sees the old record or the new one, whatever happens in between.
-/

namespace ServiceBroker

namespace DirectoryStore

/-- Work in the folder that may fail as a store fails. -/
abbrev Work (α : Type) := ExceptT StoreError (Program folderInterface) α

/-- A step that does not fail. -/
def look (step : FolderStep) : Work step.Reply :=
  ExceptT.lift (Program.request (I := folderInterface) step)

/-- Goes on with what a step yields, or fails for the reason of the step. -/
def orFail {α : Type} (failure : String → StoreError) : Except String α → Work α
  | .ok value => pure value
  | .error reason => throw (failure reason)

def failed (what : String) (reason : String) : StoreError :=
  .backend (what ++ ": " ++ reason)

/-- A record file that cannot be read. -/
def unreadable (what : String) (reason : String) : StoreError :=
  .corrupted (what ++ ": " ++ reason)

def get (id : String) : Work Record := do
  let name := RecordName.file id
  if !(← look (.contains name)) then throw (.notFound id)
  let content ← orFail (unreadable "Failed to read record file") (← look (.read name))
  match content.text? with
  | none => throw (unreadable "Failed to read record file" "stream did not contain valid UTF-8")
  | some text =>
    orFail (unreadable "Failed to parse record file")
      ((Record.ofText text).mapError DecodeError.message)

/-- Writes a record to its temporary file and puts that in place. -/
def put (record : Record) : Work Unit := do
  if !(← look .present) then
    orFail (failed "Failed to create state directory") (← look .make)
  let temporary := RecordName.temporary record.id
  orFail (failed "Failed to create temp record file") (← look (.create temporary))
  orFail (failed "Failed to write record file")
    (← look (.write temporary (Bytes.ofText record.text)))
  orFail (failed "Failed to sync record file") (← look (.sync temporary))
  orFail (failed "Failed to rename record file")
    (← look (.rename temporary (RecordName.file record.id)))

/-- Something has the name of the record's file. -/
def contains (id : String) : Work Bool :=
  look (.contains (RecordName.file id))

def delete (id : String) : Work Unit := do
  let name := RecordName.file id
  if ← look (.contains name) then
    orFail (failed "Failed to delete record file") (← look (.remove name))

/-- The ids that the names of the record files stand for. -/
def list : Work (List String) := do
  if !(← look .present) then return []
  let names ← orFail (failed "Failed to list state directory") (← look .list)
  return Store.sortIds (names.filterMap RecordName.idOfFile?)

def perform : (call : StoreCall) → Program folderInterface call.Answer
  | .get id => (get id).run
  | .put record => (put record).run
  | .contains id => (contains id).run
  | .delete id => (delete id).run
  | .list => list.run

end DirectoryStore

def directoryStore : Store Folder.Place where
  backend := .directory
  answer := fun call => (DirectoryStore.perform call).run Folder.answer

end ServiceBroker
