import ServiceBroker.Fields
import ServiceBroker.Text.Bytes
import ServiceBroker.Text.Lines

/-!
Files and folders, and what a path leads to. A path is followed part by part; every part is looked
up in a folder, two dots lead back to the folder above, and above the topmost folder there is only
that folder itself.
-/

namespace ServiceBroker

/-- A file, or a folder with what lies in it. -/
inductive FileTree where
  | file (content : Bytes)
  | folder (entries : List (String × FileTree))

namespace FileTree

/-- What lies under a sequence of names. -/
def find? : FileTree → List String → Option FileTree
  | tree, [] => some tree
  | folder entries, name :: names =>
    match entries.lookup name with
    | some entry => entry.find? names
    | none => none
  | file _, _ :: _ => none
termination_by _ names => names

/-- A folder lies here. -/
def isFolder : Option FileTree → Bool
  | some (folder _) => true
  | _ => false

/-- Changes what lies under a sequence of names, and makes the folders above it. Nothing changes
where a file stands in the way. -/
def alter (change : Option FileTree → Option FileTree) :
    List String → Option FileTree → Option FileTree
  | [], here => change here
  | name :: names, some (folder entries) =>
    match alter change names (entries.lookup name) with
    | some entry => some (folder (Fields.put entries name entry))
    | none => some (folder (Fields.erase entries name))
  | name :: names, none => (alter change names none).map fun entry => folder [(name, entry)]
  | _ :: _, some (file content) => some (file content)

/-- The names that lead to where a path leads, if every part but the last is found in a folder.
`here` are the names of the folder where the path begins. -/
def follow? (tree : FileTree) (here : List String) : List String → Option (List String)
  | [] => some here
  | part :: parts =>
    if isFolder (tree.find? here) then
      if part = "" ∨ part = "." then tree.follow? here parts
      else if part = ".." then tree.follow? here.dropLast parts
      else tree.follow? (here ++ [part]) parts
    else none

/-- The names that lead to where a path leads that is read in the folder `here`. An empty path
leads nowhere. -/
def resolve? (tree : FileTree) (here : List String) (path : String) : Option (List String) :=
  match path.toList with
  | [] => none
  | '/' :: rest => tree.follow? [] ((Text.splitAt '/' rest).map String.ofList)
  | chars => tree.follow? here ((Text.splitAt '/' chars).map String.ofList)

/-- What lies where a path leads. -/
def at? (tree : FileTree) (here : List String) (path : String) : Option FileTree :=
  (tree.resolve? here path).bind tree.find?

end FileTree

end ServiceBroker
