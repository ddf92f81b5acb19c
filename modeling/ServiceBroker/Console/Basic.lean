import ServiceBroker.Config.EnvironmentFile
import ServiceBroker.Config.Overrides
import ServiceBroker.Config.Search
import ServiceBroker.Config.Validation
import ServiceBroker.Store.Directory
import ServiceBroker.Store.Memory

/-!
What a command asks of the machine it runs on, and how it comes to its configuration and its
records.

The variables of the file beside the configuration join those of the environment, which come first.
The configuration is read after that, since variables override what it says.
-/

namespace ServiceBroker.Console

/-- Where records lie that are kept in a bucket. -/
structure BucketPlace where
  bucket : String
  keyPrefix : Option String
  region : Option String
deriving DecidableEq

/-- The bucket is out of reach. -/
def noConnection : StoreError :=
  .backend "no connection to the bucket"

/-- A request to the machine. -/
inductive Request where
  /-- The value of a variable of the environment. -/
  | environment (name : String)
  /-- Something lies at a path. -/
  | present (path : String)
  | read (path : String)
  | folder (path : String) (step : FolderStep)
  /-- A call of the store in a bucket. -/
  | bucket (place : BucketPlace) (call : StoreCall)
  /-- Waits some milliseconds, unless the operator interrupts. -/
  | pause (duration : Nat)
  /-- Prints a text and ends the line. -/
  | print (text : String)
  /-- What is printed goes to a terminal. -/
  | isTerminal

/-- What a request is answered with. A pause tells whether it was interrupted. -/
abbrev Request.Reply : Request → Type
  | environment _ => Option String
  | present _ | pause _ | isTerminal => Bool
  | read _ => Except String Bytes
  | folder _ step => step.Reply
  | bucket _ call => call.Answer
  | print _ => Unit

/-- The machine that a command runs on. -/
def machine : Interface where
  Request := Request
  Reply := Request.Reply

/-- What a command does, which may fail. -/
abbrev Work := ExceptT BrokerError (Program machine)

/-- Asks the machine for something. -/
def ask (request : Request) : Work request.Reply :=
  ExceptT.lift (Program.request (I := machine) request)

def orFail {ε α : Type} [Coe ε BrokerError] : Except ε α → Work α
  | .ok value => pure value
  | .error e => throw (e : BrokerError)

/-! ### Variables -/

/-- Variables that a file has set. -/
abbrev Variables := List (String × String)

/-- The value of a variable: the environment comes before the file. -/
def valueOf (loaded : Variables) (name : String) : Work (Option String) := do
  return (← ask (.environment name)).or (loaded.lookup name)

/-- The text that a part of a value stands for. -/
def expand (loaded : Variables) : EnvironmentFile.Piece → Work (List Char)
  | .literal c => pure [c]
  | .variable name => do return ((← valueOf loaded name).getD "").toList

/-- Makes an assignment, unless the variable has a value. -/
def assign (loaded : Variables) (assignment : EnvironmentFile.Assignment) : Work Variables := do
  let value ← assignment.value.mapM (expand loaded)
  match ← valueOf loaded assignment.name with
  | some _ => return loaded
  | none => return loaded ++ [(assignment.name, String.ofList value.flatten)]

/-- The variables of the file at a path, if there is one. -/
def loadVariables (path : String) : Work Variables := do
  if ← ask (.present path) then
    match ← ask (.read path) with
    | .error reason => throw (.config (EnvironmentFile.unusable reason))
    | .ok bytes => (← orFail (EnvironmentFile.parse bytes)).foldlM assign []
  else return []

/-! ### Configuration -/

/-- A configuration, the folder that it lies in, and the variables that hold beside it. -/
structure Setup where
  folder : String
  loaded : Variables
  config : Config

/-- The path of the configuration: the one that is named, or the first one found from the working
directory on. -/
def configPath : Option String → Work String
  | some path => pure path
  | none => do
    match ← (Config.candidates ".").findM? fun path => ask (.present path) with
    | some path => return path
    | none => throw (.config (Config.notFoundFrom "."))

def readConfig (path : String) : Work Config := do
  if ← ask (.present path) then
    match ← ask (.read path) with
    | .error reason => throw (.config (.unreadable ("Failed to read file: " ++ reason)))
    | .ok bytes => orFail (Config.parseBytes bytes)
  else throw (.config (.fileNotFound path))

/-- Reads the configuration with all that overrides it. -/
def setUp (named : Option String) : Work Setup := do
  let path ← configPath named
  let folder := (Path.parent? path).getD "."
  let loaded ← loadVariables (Path.join folder ".env")
  let config ← readConfig path
  let values ← Config.overriding.mapM fun name => do return (name, ← valueOf loaded name)
  let config ← orFail (config.override fun name => (values.lookup name).join)
  return { folder, loaded, config }

/-! ### Records -/

/-- Where the console finds records. -/
inductive Records where
  | folder (path : String)
  | bucket (place : BucketPlace)
  /-- In the memory of a process that has just begun. -/
  | none

/-- The folder of records beside a configuration that names none. -/
def recordFolder : String := ".tfbroker"

def recordsOf (setup : Setup) : Work Records :=
  let store := setup.config.store
  match store.backend with
  | .directory =>
    pure (.folder (store.path.getD (Path.join setup.folder recordFolder)))
  | .bucket =>
    match store.bucket with
    | some bucket =>
      pure (.bucket { bucket, keyPrefix := store.keyPrefix, region := store.region })
    | none => throw (.internal "S3 bucket not configured")
  | .memory => pure .none

def Records.call (records : Records) (call : StoreCall) : Work call.Reply :=
  match records with
  | .folder path => ExceptT.mk do
    let answer : call.Answer ← (DirectoryStore.perform call).embed (J := machine) (.folder path)
      fun _ reply => reply
    return answer.mapError BrokerError.store
  | .bucket place => do
    let answer : call.Answer ← ask (.bucket place call)
    orFail answer
  | .none => orFail (memoryStore.answer call []).1

end ServiceBroker.Console
