import ServiceBroker.Definition.Line
import ServiceBroker.Text.Digits
import ServiceBroker.Error

/-!
The guard before an import is applied: what the tool plans to do must delete nothing.

A plan reports each resource that it deletes or replaces on a comment line of its own, and sums up
how many it will delete. Either report blocks the import.
-/

namespace ServiceBroker.DeletionGuard

open ServiceBroker.Text ServiceBroker.Definition

/-- What a plan says of a resource that it deletes. -/
def phrases : List (List Char) :=
  ["will be destroyed".toList, "must be replaced".toList]

/-- Blanks up to the end of a line or of the text. -/
def endsLine (text : List Char) : Bool :=
  let blanks := text.takeWhile isBlank
  blanks.contains '\n' || blanks.length == text.length

/-- The text from the last line end on among the blanks that it begins with. -/
def fromLastLineEnd (text : List Char) : List Char :=
  let blanks := text.takeWhile isBlank
  if blanks.length = text.length then []
  else text.drop (blanks.length - 1 - (blanks.reverse.takeWhile (· != '\n')).length)

/-- The report of a deletion that a text begins with: the address, and what follows the report. -/
def report? (text : List Char) : Option (List Char × List Char) :=
  match trimLeft text with
  | '#' :: text => do
    let text ← afterBlanks? text
    let address := text.takeWhile (fun c => !isBlank c)
    if address.isEmpty then none
    let text ← afterBlanks? (text.drop address.length)
    let text ← phrases.findSome? fun phrase => after? phrase text
    if endsLine text then some (address, fromLastLineEnd text) else none
  | _ => none

/-- The addresses reported in a text of which the first `skip` characters were read already. -/
def reportedFrom (skip : Nat) (lineStart : Bool) : List Char → List (List Char)
  | [] => []
  | c :: rest =>
    match skip with
    | skip + 1 => reportedFrom skip (c == '\n') rest
    | 0 =>
      if lineStart then
        match report? (c :: rest) with
        | some (address, after) =>
          address :: reportedFrom (rest.length - after.length) (c == '\n') rest
        | none => reportedFrom 0 (c == '\n') rest
      else reportedFrom 0 (c == '\n') rest

/-- The addresses of the resources that a plan deletes or replaces, in order. -/
def reported (plan : List Char) : List (List Char) :=
  reportedFrom 0 true plan

/-- The digits before the first `to destroy` on the rest of a line. -/
def countOnLine? : List Char → Option (List Char)
  | [] => none
  | c :: rest =>
    if c = '\n' then none
    else
      let ds := (c :: rest).takeWhile isDecimal
      if !ds.isEmpty && (after? " to destroy".toList ((c :: rest).drop ds.length)).isSome then
        some ds
      else countOnLine? rest

/-- The digits of the summary, in a text that begins a line or not. -/
def summaryFrom? (lineStart : Bool) : List Char → Option (List Char)
  | [] => none
  | c :: rest =>
    let here := if lineStart then
        (after? "Plan:".toList (trimLeft (c :: rest))).bind countOnLine?
      else none
    match here with
    | some ds => some ds
    | none => summaryFrom? (c == '\n') rest

/-- The number of resources that a plan deletes according to its summary, if that is a number
of 64 bits in ASCII digits. -/
def destroyCount? (plan : List Char) : Option Nat := do
  let ds ← summaryFrom? true plan
  let n := natOfDigits ds
  if ds.all Char.isDigit && n < UInt64.size then some n else none

/-- The resources for which a plan is blocked: those reported by address, or else their number. -/
def blocked (plan : List Char) : List String :=
  match reported plan with
  | [] =>
    match destroyCount? plan with
    | some (n + 1) => [toString (n + 1) ++ " resource(s)"]
    | _ => []
  | addresses => addresses.map String.ofList

/-- Blocks a plan that deletes or replaces a resource. -/
def check (plan : String) : Except JobError Unit :=
  match blocked plan.toList with
  | [] => pure ()
  | addresses => throw (.deletionBlocked addresses)

end ServiceBroker.DeletionGuard
