import ServiceBroker.Console.Command
import ServiceBroker.Files.Tree
import ServiceBroker.Store.Bucket

/-!
A desk at which commands can be rehearsed: a machine that is a value. It has files and folders, a
working folder, buckets and variables; it keeps what is printed, and its clock moves by the pauses
alone.
-/

namespace ServiceBroker.Console

/-- A machine as a value. -/
structure Desk where
  files : FileTree
  /-- The names that lead to the working folder. -/
  here : List String := []
  buckets : Fields Bucket := []
  environment : List (String × String) := []
  printed : List String := []
  isTerminal : Bool := false
  /-- Milliseconds that have passed. -/
  time : Nat := 0
  /-- When the operator interrupts, if ever. -/
  interruption : Option Nat := none

namespace Desk

/-- What lies at a path. -/
def at? (desk : Desk) (path : String) : Option FileTree :=
  desk.files.at? desk.here path

def read (desk : Desk) (path : String) : Except String Bytes :=
  match desk.at? path with
  | some (.file content) => pure content
  | some (.folder _) => throw Folder.isAFolder
  | none => throw Folder.noFolder

/-- The names that lead to a folder. An empty path stands for the working folder. -/
def folder? (desk : Desk) (path : String) : Option (List String) :=
  if path = "" then some desk.here else desk.files.resolve? desk.here path

/-- Answers a step of work in a folder. Nothing lies at an empty path as such. -/
def stepIn (desk : Desk) (path : String) (step : FolderStep) : step.Reply × Desk :=
  match desk.folder? path with
  | none => ((Folder.answer step none).1, desk)
  | some names =>
    let (reply, place) := Folder.answer step (desk.files.find? names)
    let files := (FileTree.alter (fun _ => place) names (some desk.files)).getD desk.files
    match step with
    | .present => (reply && path != "", desk)
    | _ => (reply, { desk with files })

/-- Answers a call of the store in a bucket, if there is such a bucket. -/
def callIn (desk : Desk) (place : BucketPlace) (call : StoreCall) : call.Answer × Desk :=
  match desk.buckets.get? place.bucket with
  | none => (throw noConnection, desk)
  | some bucket =>
    let (answer, bucket) := (bucketStore place.keyPrefix).answer call bucket
    (answer, { desk with buckets := desk.buckets.put place.bucket bucket })

def answer (request : Request) (desk : Desk) : request.Reply × Desk :=
  match request with
  | .environment name => (desk.environment.lookup name, desk)
  | .present path => ((desk.at? path).isSome, desk)
  | .read path => (desk.read path, desk)
  | .folder path step => desk.stepIn path step
  | .bucket place call => desk.callIn place call
  | .pause duration =>
    let later := desk.time + duration
    (desk.interruption.any (· ≤ later), { desk with time := later })
  | .print text => ((), { desk with printed := desk.printed ++ [text] })
  | .isTerminal => (desk.isTerminal, desk)

def work {α : Type} (desk : Desk) (work : Work α) : Except BrokerError α × Desk :=
  work.run.run answer desk

end Desk

end ServiceBroker.Console
