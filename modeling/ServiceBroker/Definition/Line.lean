import ServiceBroker.Text.Blank
import ServiceBroker.Text.Lines

/-!
The lines of a definition as the tool prints it.

A definition consists of blocks that open with a brace at the end of a line and close with one at
the beginning of a line. An attribute is addressed by the blocks that it stands in:
`type.name.block.attribute`. Lines are told apart by their form alone, in a fixed order.
-/

namespace ServiceBroker.Definition

open ServiceBroker.Text

/-- What a line is. -/
inductive Kind where
  /-- It opens the block at `path`. -/
  | opening (path : List Char)
  /-- It gives an attribute a value. -/
  | attribute (path key value : List Char) (topLevel : Bool)
  | comment
  | other
deriving DecidableEq

/-- A line and what it is. -/
structure Line where
  text : List Char
  kind : Kind
deriving DecidableEq

/-- The first characters of a text, if it begins with `start`: what follows them. -/
def after? : List Char → List Char → Option (List Char)
  | [], text => some text
  | c :: start, d :: text => if c = d then after? start text else none
  | _ :: _, [] => none

/-- The text behind at least one blank. -/
def afterBlanks? (text : List Char) : Option (List Char) :=
  if text.head?.any isBlank then some (trimLeft text) else none

/-- The text behind a quote, if there is one. -/
def dropQuote : List Char → List Char
  | '"' :: rest => rest
  | rest => rest

/-- A label in quotes, not empty, and what follows it. -/
def label? : List Char → Option (List Char × List Char)
  | '"' :: rest =>
    match rest.takeWhile (· != '"'), rest.dropWhile (· != '"') with
    | c :: label, '"' :: rest => some (c :: label, rest)
    | _, _ => none
  | _ => none

/-- Nothing but blanks. -/
def isAllBlank (text : List Char) : Bool :=
  text.all isBlank

/-- A brace and nothing behind it but blanks. -/
def isOpeningBrace : List Char → Bool
  | '{' :: rest => isAllBlank rest
  | _ => false

/-- The first character that is no blank is a number sign. -/
def isComment (line : List Char) : Bool :=
  (trimLeft line).head? == some '#'

/-- The first character that is no blank is a closing brace. -/
def isClosing (line : List Char) : Bool :=
  (trimLeft line).head? == some '}'

/-- The two labels of a header behind its keyword, and the brace. -/
def headerLabels? (text : List Char) : Option (List Char) := do
  let text ← afterBlanks? text
  let (type, text) ← label? text
  let text ← afterBlanks? text
  let (name, text) ← label? text
  if isOpeningBrace (trimLeft text) then some (type ++ '.' :: name) else none

/-- The address of a resource or data source whose header the line is. -/
def headerAddress? (line : List Char) : Option (List Char) :=
  let text := trimLeft line
  match after? "resource".toList text, after? "data".toList text with
  | some rest, _ => headerLabels? rest
  | none, some rest => (headerLabels? rest).map ("data.".toList ++ ·)
  | none, none => none

def isKeyChar (c : Char) : Bool :=
  c != '"' && c != '=' && !isBlank c

/-- A line without its leading blanks and quote: the key and what follows it. -/
def keyAndRest (line : List Char) : List Char × List Char :=
  let text := dropQuote (trimLeft line)
  (text.takeWhile isKeyChar, text.dropWhile isKeyChar)

/-- The text behind an equals sign, if there is one. -/
def dropEquals : List Char → List Char
  | '=' :: rest => rest
  | rest => rest

/-- The key of a nested block or map that the line opens. The brace may follow the key at once. -/
def nestedKey? (line : List Char) : Option (List Char) :=
  let (key, rest) := keyAndRest line
  if key.isEmpty then none
  else if isOpeningBrace (trimLeft (dropEquals (trimLeft (dropQuote rest)))) then some key
  else if key.getLast? = some '{' && isAllBlank rest && 1 < key.length then some key.dropLast
  else none

def attribute? (line : List Char) : Option (List Char × List Char) :=
  let (key, rest) := keyAndRest line
  if key.isEmpty then none
  else match trimLeft (dropQuote rest) with
    | '=' :: value => some (key, trim value)
    | _ => none

/-- The keys of the blocks around, joined by dots. The innermost block comes first in `stack`. -/
def joinPath (stack : List (List Char)) : List Char :=
  List.intercalate ['.'] stack.reverse

/-- What a line is, and the blocks that stand open behind it. -/
def classify (stack : List (List Char)) (line : List Char) : Kind × List (List Char) :=
  if isComment line then (.comment, stack)
  else match headerAddress? line with
    | some address => (.opening address, [address])
    | none =>
      if isClosing line then (.other, stack.tail)
      else if stack.isEmpty then (.other, stack)
      else match nestedKey? line, attribute? line with
        | some key, _ => (.opening (joinPath (key :: stack)), key :: stack)
        | none, some (key, value) =>
          (.attribute (joinPath (key :: stack)) key value (stack.length == 1), stack)
        | none, none => (.other, stack)

/-- The lines of a text within the blocks of `stack`. -/
def classifyAll (stack : List (List Char)) : List (List Char) → List Line
  | [] => []
  | text :: rest =>
    let (kind, stack) := classify stack text
    { text, kind } :: classifyAll stack rest

def parse (text : List Char) : List Line :=
  classifyAll [] (lines text)

end ServiceBroker.Definition
