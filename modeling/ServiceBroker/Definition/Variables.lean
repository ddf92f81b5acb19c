import ServiceBroker.Definition.Line

/-!
The input variables that a definition declares: `variable "name"` at the beginning of a line, up to
blanks and empty lines before it.
-/

namespace ServiceBroker.Definition

open ServiceBroker.Text

/-- The declaration that a text begins with: the name, and what follows the closing quote. -/
def declaration? (text : List Char) : Option (List Char × List Char) := do
  let text ← after? "variable".toList (trimLeft text)
  label? (← afterBlanks? text)

/-- The names declared in a text of which the first `skip` characters were read already. -/
def declaredFrom (skip : Nat) (lineStart : Bool) : List Char → List (List Char)
  | [] => []
  | c :: rest =>
    match skip with
    | skip + 1 => declaredFrom skip (c == '\n') rest
    | 0 =>
      if lineStart then
        match declaration? (c :: rest) with
        | some (name, after) => name :: declaredFrom (rest.length - after.length) (c == '\n') rest
        | none => declaredFrom 0 (c == '\n') rest
      else declaredFrom 0 (c == '\n') rest

/-- The names declared in a text, in order. -/
def declared (text : List Char) : List (List Char) :=
  declaredFrom 0 true text

end ServiceBroker.Definition
