import ServiceBroker.Workspace.State

/-!
The tool that builds and destroys what a workspace describes. The broker has several versions of
it and asks each command of a definite one.
-/

namespace ServiceBroker

/-- A command of the tool. -/
inductive Command where
  /-- Builds what the workspace describes. -/
  | apply
  /-- Takes down everything that was built. -/
  | destroy
  /-- Puts existing resources into the state. -/
  | importResources
  /-- Writes the state down as a definition. -/
  | showState
  /-- Says what applying would do. -/
  | plan
deriving DecidableEq

def Command.name : Command → String
  | apply => "apply"
  | destroy => "destroy"
  | importResources => "import"
  | showState => "show"
  | plan => "plan"

def Command.ofName? (name : String) : Option Command :=
  [Command.apply, .destroy, .importResources, .showState, .plan].find? (·.name == name)

/-- A resource that exists already, and the address that it gets. -/
structure ExistingResource where
  address : String
  identifier : String
deriving DecidableEq

/-- One run of the tool. -/
structure ToolRun where
  command : Command
  version : Version
  workspace : Workspace
  /-- The resources to import. -/
  resources : List ExistingResource := []

/-- What a run leaves behind. -/
structure ToolReport where
  /-- The new state, if the command writes one. -/
  state : Option Bytes := none
  /-- What the command prints. -/
  output : String := ""

end ServiceBroker
