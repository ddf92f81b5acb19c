import ServiceBroker.Definition.Parameterization
import ServiceBroker.Definition.Variables
import ServiceBroker.Error

/-!
The workspace of a deployment: the definitions of its modules, the instances of these modules with
their configuration, how an imported definition gets its parameters, and the state that the tool
wrote last.
-/

namespace ServiceBroker

/-- Texts by name, in the order of the names. -/
abbrev Definitions := List (String × String)

/-- A module: its definitions by name. -/
structure Module where
  name : String
  definitions : Definitions := []

/-- An instance of a module, and the values of its variables. -/
structure ModuleInstance where
  moduleName : String
  name : String
  configuration : Params := []

/-- A workspace. -/
structure Workspace where
  modules : List Module
  instances : List ModuleInstance
  parameterization : Parameterization := {}
  /-- What the tool wrote last; nothing before it is first applied. -/
  state : Bytes := []

namespace Definitions

/-- Gives a name its text and keeps the names in order. -/
def put : Definitions → String → String → Definitions
  | [], name, text => [(name, text)]
  | (known, old) :: rest, name, text =>
    if name = known then (name, text) :: rest
    else if name < known then (name, text) :: (known, old) :: rest
    else (known, old) :: put rest name text

/-- Definitions in order; the last text of a repeated name counts. -/
def ofPairs (pairs : List (String × String)) : Definitions :=
  pairs.foldl (fun all (name, text) => put all name text) []

end Definitions

namespace Workspace

/-- The definition that an import replaces. -/
def mainDefinition : String := "main"

/-- The tool was applied at least once. -/
def hasState (workspace : Workspace) : Bool :=
  !workspace.state.isEmpty

def instanceNames (workspace : Workspace) : List String :=
  workspace.instances.map (·.name)

/-- The input variables that the first module declares, sorted and each once. -/
def inputs (workspace : Workspace) : Except WorkspaceError (List String) :=
  match workspace.modules with
  | [] => throw .noModules
  | first :: _ =>
    let names := first.definitions.flatMap fun (_, text) =>
      (Definition.declared text.toList).map String.ofList
    pure ((names.mergeSort fun a b => !decide (b < a)).eraseReps)

/-- Merges variables into the configuration of the first instance. -/
def configure (workspace : Workspace) (vars : Params) : Except WorkspaceError Workspace :=
  match workspace.instances with
  | [] => throw .noInstances
  | first :: rest =>
    pure { workspace with
      instances := { first with configuration := first.configuration.merge vars } :: rest }

/-- Replaces the configuration of the first instance. -/
def reconfigure (workspace : Workspace) (vars : Params) : Except WorkspaceError Workspace :=
  match workspace.instances with
  | [] => throw .noInstances
  | first :: rest =>
    pure { workspace with instances := { first with configuration := vars } :: rest }

/-- Replaces the configuration of the first instance by the input variables alone, each with its
value in `vars` or `null`. -/
def restrict (workspace : Workspace) (vars : Params) : Except WorkspaceError Workspace := do
  let names ← workspace.inputs
  workspace.reconfigure (names.map fun name => (name, (vars.get? name).getD .null))

/-- Replaces the main definition of the first module. -/
def setMain (workspace : Workspace) (text : String) : Except WorkspaceError Workspace :=
  match workspace.modules with
  | [] => throw .noModules
  | first :: rest =>
    pure { workspace with
      modules :=
        { first with definitions := first.definitions.put mainDefinition text } :: rest }

end Workspace

end ServiceBroker
