import ServiceBroker.Definition.Line
import ServiceBroker.Document.Decoder

/-!
Turning the definition that the tool prints for imported resources back into one with parameters.

First what only the tool needs is taken out: escape sequences, comments, identifiers of resources
and the attributes listed for removal. Then attributes that are always parameters are put in. Last,
mapped attributes get a reference to their parameter in place of the value, and the values are
handed back.
-/

namespace ServiceBroker

/-- An attribute, by its address, and the parameter that holds its value. -/
structure ParameterMapping where
  address : String
  parameter : String
deriving DecidableEq

/-- How a definition gets its parameters back. -/
structure Parameterization where
  /-- Attributes whose values become references. -/
  mappings : List ParameterMapping := []
  /-- Attributes taken out. -/
  removals : List String := []
  /-- Attributes put in as references. -/
  additions : List ParameterMapping := []
deriving DecidableEq

namespace Parameterization

open ServiceBroker.Text ServiceBroker.Definition

/-- How many characters belong to the escape sequence behind an escape character. -/
def sequenceLength (text : List Char) : Nat :=
  match text with
  | '[' :: rest =>
    let inner := rest.takeWhile fun c => c.isDigit || c == ';' || c == '?'
    if (rest.drop inner.length).head?.any Char.isAlpha then inner.length + 2 else 0
  | _ => 0

/-- The text without escape sequences; the first `skip` characters belong to one. -/
def stripEscapesFrom (skip : Nat) : List Char → List Char
  | [] => []
  | c :: rest =>
    match skip with
    | skip + 1 => stripEscapesFrom skip rest
    | 0 =>
      if c = '\x1b' then stripEscapesFrom (sequenceLength rest) rest
      else c :: stripEscapesFrom 0 rest

/-- The text without escape sequences. -/
def stripEscapes (text : List Char) : List Char :=
  stripEscapesFrom 0 text

/-- A line that is kept when a definition is cleaned. -/
def keeps (scheme : Parameterization) (line : Line) : Bool :=
  match line.kind with
  | .comment => false
  | .attribute path key _ topLevel =>
    !((topLevel && key == "id".toList) || scheme.removals.any (·.toList == path))
  | .opening _ | .other => true

/-- Takes out escape sequences, comments, identifiers and the attributes listed for removal. -/
def clean (scheme : Parameterization) (text : List Char) : List Char :=
  joinLines (((parse (stripEscapes text)).filter scheme.keeps).map (·.text))

/-- The address of a block and the attribute in it that an address stands for. -/
def splitAddress? (address : List Char) : Option (List Char × List Char) :=
  let key := (address.reverse.takeWhile (· != '.')).reverse
  if key.length < address.length then
    some (address.take (address.length - key.length - 1), key)
  else none

def indentation (line : List Char) : List Char :=
  line.takeWhile isBlank

/-- A line that gives an attribute the value of a parameter. -/
def reference (indent key parameter : List Char) : List Char :=
  indent ++ key ++ " = var.".toList ++ parameter

def addedBehind (scheme : Parameterization) (line : Line) : List (List Char) :=
  match line.kind with
  | .opening path =>
    scheme.additions.filterMap fun addition =>
      match splitAddress? addition.address.toList with
      | some (block, key) =>
        if block = path then
          some (reference (indentation line.text ++ "    ".toList) key addition.parameter.toList)
        else none
      | none => none
  | _ => []

/-- Puts in the attributes that are always parameters, right behind the opening of their block. -/
def add (scheme : Parameterization) (text : List Char) : List Char :=
  joinLines ((parse text).flatMap fun line => line.text :: scheme.addedBehind line)

/-- The value that a literal stands for: the text between quotes as it is, or a JSON value, or else
the literal itself. -/
def literalValue (literal : List Char) : Json :=
  match literal with
  | '"' :: inner =>
    if inner.getLast? = some '"' then .string (String.ofList inner.dropLast)
    else jsonOr literal
  | _ => jsonOr literal
where
  /-- The JSON value that is written, or the text of what is no JSON. -/
  jsonOr (literal : List Char) : Json :=
    match Json.parse (String.ofList literal) with
    | .ok value => value
    | .error _ => .string (String.ofList literal)

/-- What a line becomes, and the value that it gave up. -/
def replaceLine (scheme : Parameterization) (line : Line) : List Char × Option (String × Json) :=
  match line.kind with
  | .attribute path key value _ =>
    match scheme.mappings.find? (·.address.toList == path) with
    | some mapping =>
      (reference (indentation line.text) key mapping.parameter.toList,
        some (mapping.parameter, literalValue value))
    | none => (line.text, none)
  | _ => (line.text, none)

/-- Puts references in place of mapped values, and hands the values back by parameter. -/
def replace (scheme : Parameterization) (text : List Char) : List Char × Params :=
  let replaced := (parse text).map scheme.replaceLine
  (joinLines (replaced.map (·.1)), Fields.ofPairs (replaced.filterMap (·.2)))

/-- All three steps. -/
def apply (scheme : Parameterization) (text : List Char) : List Char × Params :=
  scheme.replace (scheme.add (scheme.clean text))

open Decoder in
def mappingDecoder : Decoder ParameterMapping :=
  record ["tf_variable", "parameter_name"] fun dialect form => do
    return {
      address := ← required form dialect "tf_variable" text
      parameter := ← required form dialect "parameter_name" text }

open Decoder in
/-- Reads how a definition gets its parameters back. -/
def decoder : Decoder Parameterization :=
  record ["parameter_mappings", "parameters_to_remove", "parameters_to_add"] fun dialect form => do
    return {
      mappings := ← defaulted form dialect "parameter_mappings" (list mappingDecoder) []
      removals := ← defaulted form dialect "parameters_to_remove" (list text) []
      additions := ← defaulted form dialect "parameters_to_add" (list mappingDecoder) [] }

def mappingToJson (mapping : ParameterMapping) : Json :=
  .object [("tf_variable", .string mapping.address), ("parameter_name", .string mapping.parameter)]

/-- How a definition gets its parameters back, as a JSON value. -/
def toJson (scheme : Parameterization) : Json :=
  .object [
    ("parameter_mappings", .array (scheme.mappings.map mappingToJson)),
    ("parameters_to_remove", .array (scheme.removals.map .string)),
    ("parameters_to_add", .array (scheme.additions.map mappingToJson))]

end Parameterization

end ServiceBroker
