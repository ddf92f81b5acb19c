import ServiceBroker.Files.Tree
import ServiceBroker.Program

/-!
Work on the files in one folder, step by step. A folder that is not there is made on demand. What
lies in its place may also be a file; then nothing can be done in it.
-/

namespace ServiceBroker

/-- One step of work in a folder. -/
inductive FolderStep where
  /-- Something lies in the place of the folder. -/
  | present
  /-- Makes the folder and those above it. -/
  | make
  /-- A file or folder of some name lies in the folder. -/
  | contains (name : String)
  | read (name : String)
  /-- Makes an empty file, or empties it. -/
  | create (name : String)
  /-- Writes the content of a file that was just made. -/
  | write (name : String) (content : Bytes)
  /-- Waits until a file is on the disk. -/
  | sync (name : String)
  /-- Gives a file the name of another one, which it replaces, in one step. -/
  | rename (source target : String)
  | remove (name : String)
  | list

/-- What a step yields: something, or the reason why it failed. -/
abbrev FolderStep.Reply : FolderStep → Type
  | present | contains _ => Bool
  | read _ => Except String Bytes
  | make | create _ | write .. | sync _ | rename .. | remove _ => Except String Unit
  | list => Except String (List String)

/-- Work in a folder. -/
def folderInterface : Interface where
  Request := FolderStep
  Reply := FolderStep.Reply

namespace Folder

/-- What lies in the place of a folder. -/
abbrev Place := Option FileTree

def longestName : Nat := 255

def isFileName (name : String) : Bool :=
  name.utf8ByteSize ≤ longestName && !name.toList.contains '\x00' && !name.toList.contains '/' &&
    name != "" && name != "." && name != ".."

def noFolder : String := "No such file or directory"
def notAFolder : String := "Not a directory"
def isAFolder : String := "Is a directory"
def badName : String := "File name is not valid"

/-- What lies in a folder, or why there is none. -/
def entries : Place → Except String (List (String × FileTree))
  | some (.folder entries) => pure entries
  | some (.file _) => throw notAFolder
  | none => throw noFolder

def fileIn (place : Place) (name : String) : Except String Bytes := do
  match (← entries place).lookup name with
  | some (.file content) => pure content
  | some (.folder _) => throw isAFolder
  | none => throw noFolder

/-- Puts a file into a folder, in the place of a file that had the name. -/
def putFile (place : Place) (name : String) (content : Bytes) : Except String Unit × Place :=
  match entries place with
  | .error e => (.error e, place)
  | .ok found =>
    if !isFileName name then (.error badName, place)
    else match found.lookup name with
      | some (.folder _) => (.error isAFolder, place)
      | _ => (.ok (), some (.folder (Fields.put found name (.file content))))

def removeFile (place : Place) (name : String) : Except String Unit × Place :=
  match entries place, fileIn place name with
  | .ok found, .ok _ => (.ok (), some (.folder (Fields.erase found name)))
  | .error e, _ | _, .error e => (.error e, place)

/-- The outcome of a step, and what lies in the place of the folder after it. -/
def answer (step : FolderStep) (place : Place) : step.Reply × Place :=
  match step with
  | .present => (place.isSome, place)
  | .make =>
    match place with
    | none => (.ok (), some (.folder []))
    | some (.folder found) => (.ok (), some (.folder found))
    | some (.file _) => (.error notAFolder, place)
  | .contains name => ((entries place).toOption.any fun found => (found.lookup name).isSome, place)
  | .read name => (fileIn place name, place)
  | .create name => putFile place name []
  | .write name content =>
    match fileIn place name with
    | .ok _ => putFile place name content
    | .error e => (.error e, place)
  | .sync name => ((fileIn place name).map fun _ => (), place)
  | .rename source target =>
    match fileIn place source with
    | .error e => (.error e, place)
    | .ok content =>
      match putFile place target content with
      | (.ok (), changed) => removeFile changed source
      | (.error e, _) => (.error e, place)
  | .remove name => removeFile place name
  | .list => ((entries place).map (·.map Prod.fst), place)

end Folder

end ServiceBroker
