import ServiceBroker.Json.Number
import ServiceBroker.Document.Basic
import ServiceBroker.Text.Bytes

/-!
Reading JSON, one character at a time.

The reader is an automaton with a stack: the stack holds the arrays and objects that stand open,
the phase says what may come next. It accepts exactly the grammar of JSON; how deep a text may
nest, which numbers are in range, which strings are text and what a repeated key means is left to
whoever decodes the document, because parts of a document that nobody reads are not held to it.
-/

namespace ServiceBroker.Json

/-- An array or object that stands open, what it holds so far in reverse order. -/
inductive Frame where
  | array (before : List Document)
  | object (before : List (Option String × Document)) (key : Option String)

/-- Where the reader stands within an escape. -/
inductive Escape where
  | outside
  /-- Behind the backslash. -/
  | begun
  /-- Behind `\u` and some of its four digits. -/
  | unicode (digits : Nat) (code : Nat)

/-- A string that is being read. -/
structure OpenString where
  /-- It is the key of a member. -/
  isKey : Bool
  /-- What was read, in reverse order. -/
  before : List Char
  /-- It is text so far: no half of a surrogate pair stood alone, and each octet belongs to a
  character. -/
  sound : Bool
  /-- The first half of a surrogate pair, if it was read last. -/
  half : Option Nat
  escape : Escape

/-- What may come next. -/
inductive Phase where
  | value
  | itemOrEnd
  | keyOrEnd
  | key
  | colon (key : Option String)
  /-- A value has ended within an array or object. -/
  | ended
  /-- The value of the whole text has ended. -/
  | complete (document : Document)
  /-- Within one of the words `null`, `true` and `false`: the letters still to come. -/
  | word (rest : List Char) (meaning : Scalar)
  /-- Within a number, its characters in reverse order. -/
  | number (before : List Char)
  | string (s : OpenString)

/-- The state of the reader. -/
structure Reader where
  phase : Phase
  stack : List Frame

namespace Reader

/-- The state before the first character. -/
def start : Reader :=
  { phase := .value, stack := [] }

/-- The blanks between tokens. -/
def isSpace (c : Char) : Bool :=
  c = ' ' || c = '\n' || c = '\t' || c = '\r'

def isNumberChar (c : Char) : Bool :=
  c.isDigit || c = '-' || c = '+' || c = '.' || c = 'e' || c = 'E'

/-- Puts a value that has ended where it belongs. -/
def give (document : Document) : List Frame → Reader
  | [] => { phase := .complete document, stack := [] }
  | .array before :: rest => { phase := .ended, stack := .array (document :: before) :: rest }
  | .object before key :: rest =>
    { phase := .ended, stack := .object ((key, document) :: before) none :: rest }

def beginValue (stack : List Frame) (c : Char) : Option Reader :=
  if c = '"' then
    some { phase := .string { isKey := false, before := [], sound := true, half := none,
                              escape := .outside }, stack }
  else if c = '[' then some { phase := .itemOrEnd, stack := .array [] :: stack }
  else if c = '{' then some { phase := .keyOrEnd, stack := .object [] none :: stack }
  else if c = 'n' then some { phase := .word ['u', 'l', 'l'] .ofNull, stack }
  else if c = 't' then some { phase := .word ['r', 'u', 'e'] (.ofBool true), stack }
  else if c = 'f' then some { phase := .word ['a', 'l', 's', 'e'] (.ofBool false), stack }
  else if c.isDigit || c = '-' then some { phase := .number [c], stack }
  else none

/-- The quote before a key. -/
def beginKey (stack : List Frame) (c : Char) : Option Reader :=
  if c = '"' then
    some { phase := .string { isKey := true, before := [], sound := true, half := none,
                              escape := .outside }, stack }
  else none

/-- The end of the innermost array or object. -/
def close (stack : List Frame) (c : Char) : Option Reader :=
  match stack with
  | .array before :: rest =>
    if c = ']' then some (give (.sequence before.reverse) rest) else none
  | .object before _ :: rest =>
    if c = '}' then some (give (.mapping before.reverse) rest) else none
  | [] => none

/-- What follows a value: a comma or the end of the array or object. -/
def afterValue (stack : List Frame) (c : Char) : Option Reader :=
  if c = ',' then
    match stack with
    | .array _ :: _ => some { phase := .value, stack }
    | .object _ _ :: _ => some { phase := .key, stack }
    | [] => none
  else close stack c

def afterKey (key : Option String) (stack : List Frame) (c : Char) : Option Reader :=
  match stack with
  | .object before _ :: rest =>
    if c = ':' then some { phase := .value, stack := .object before key :: rest } else none
  | _ => none

def numberDocument? (before : List Char) : Option Document :=
  (Number.Written.ofText? before.reverse).map fun written =>
    .scalar (.ofNumber written.number?)

def hexValue? (c : Char) : Option Nat :=
  if c.isDigit then some (c.toNat - '0'.toNat)
  else if 'a' ≤ c && c ≤ 'f' then some (c.toNat - 'a'.toNat + 10)
  else if 'A' ≤ c && c ≤ 'F' then some (c.toNat - 'A'.toNat + 10)
  else none

/-- Adds a character; a half of a surrogate pair before it stays alone. -/
def push (s : OpenString) (c : Char) : OpenString :=
  { s with before := c :: s.before, sound := s.sound && s.half.isNone, half := none,
           escape := .outside }

/-- Adds a code unit that was given by its number: a character, or half of a surrogate pair. -/
def pushUnit (s : OpenString) (code : Nat) : OpenString :=
  if 0xD800 ≤ code ∧ code < 0xDC00 then
    { s with sound := s.sound && s.half.isNone, half := some code, escape := .outside }
  else if 0xDC00 ≤ code ∧ code < 0xE000 then
    match s.half with
    | some high =>
      { s with before :=
                 Char.ofNat (0x10000 + (high - 0xD800) * 0x400 + (code - 0xDC00)) :: s.before,
               half := none, escape := .outside }
    | none => { s with sound := false, escape := .outside }
  else push s (Char.ofNat code)

/-- The character that a letter behind a backslash stands for. -/
def escaped? (c : Char) : Option Char :=
  if c = '"' || c = '\\' || c = '/' then some c
  else if c = 'b' then some '\x08'
  else if c = 'f' then some '\x0c'
  else if c = 'n' then some '\n'
  else if c = 'r' then some '\r'
  else if c = 't' then some '\t'
  else none

/-- The text of a string that has ended, if it is sound. -/
def OpenString.text? (s : OpenString) : Option String :=
  if s.sound && s.half.isNone then some (String.ofList s.before.reverse) else none

def withinString (s : OpenString) (stack : List Frame) (c : Char) : Option Reader :=
  match s.escape with
  | .outside =>
    if c = '"' then
      let text := OpenString.text? s
      if s.isKey then some { phase := .colon text, stack }
      else some (give (.scalar ((text.map Scalar.ofText).getD {})) stack)
    else if c = '\\' then some { phase := .string { s with escape := .begun }, stack }
    else if c.toNat < 32 then none
    else some { phase := .string (push s c), stack }
  | .begun =>
    if c = 'u' then some { phase := .string { s with escape := .unicode 0 0 }, stack }
    else (escaped? c).map fun c => { phase := .string (push s c), stack }
  | .unicode digits code => do
    let code := code * 16 + (← hexValue? c)
    if digits < 3 then
      return { phase := .string { s with escape := .unicode (digits + 1) code }, stack }
    else
      return { phase := .string (pushUnit s code), stack }

/-- One character outside a number. -/
def stepPlain (phase : Phase) (stack : List Frame) (c : Char) : Option Reader :=
  match phase with
  | .string s => withinString s stack c
  | .word (expected :: rest) meaning =>
    if c = expected then
      some (if rest.isEmpty then give (.scalar meaning) stack
            else { phase := .word rest meaning, stack })
    else none
  | .word [] _ => none
  | .number _ => none
  | phase =>
    if isSpace c then some { phase, stack }
    else match phase with
      | .value => beginValue stack c
      | .itemOrEnd => (close stack c).or (beginValue stack c)
      | .keyOrEnd => (close stack c).or (beginKey stack c)
      | .key => beginKey stack c
      | .colon key => afterKey key stack c
      | .ended => afterValue stack c
      | _ => none

/-- One character. The character behind a number ends it. -/
def step (r : Reader) (c : Char) : Option Reader :=
  match r.phase with
  | .number before =>
    if isNumberChar c then some { r with phase := .number (c :: before) }
    else do
      let document ← numberDocument? before
      let r := give document r.stack
      stepPlain r.phase r.stack c
  | phase => stepPlain phase r.stack c

/-- An octet that belongs to no character. It may stand in a string, which then is not sound. -/
def spoil (r : Reader) : Option Reader :=
  match r.phase with
  | .string s =>
    match s.escape with
    | .outside => some { r with phase := .string { s with sound := false } }
    | _ => none
  | _ => none

/-- One character, or one octet that belongs to none. -/
def advance (r : Reader) : Option Char → Option Reader
  | some c => r.step c
  | none => r.spoil

/-- The document that was read, if the text may end here. -/
def finish (r : Reader) : Option Document :=
  match r.phase, r.stack with
  | .complete document, [] => some document
  | .number before, [] => numberDocument? before
  | _, _ => none

end Reader

def readDocument? (text : List Char) : Option Document := do
  let r ← text.foldlM Reader.step Reader.start
  r.finish

/-- What octets are read as, which need not be text where a string stands. -/
def readOctets? (bytes : Bytes) : Option Document := do
  let r ← bytes.characters.foldlM Reader.advance Reader.start
  r.finish

end ServiceBroker.Json
