import ServiceBroker.Error
import ServiceBroker.Text.Alphanumeric
import ServiceBroker.Text.Blank
import ServiceBroker.Text.Bytes

/-!
The file of variables beside a configuration.

Each line assigns a value to a name. The value may stand in quotes, in which it may go on over
several lines, and may refer to variables. A line is cut out first, and what it says is read then;
the two steps take quotes and comments by rules of their own.
-/

namespace ServiceBroker.EnvironmentFile

/-- A part of a value. -/
inductive Piece where
  | literal (c : Char)
  /-- The value of a variable, or nothing if it has none. -/
  | variable (name : String)
deriving DecidableEq

/-- What a line assigns. -/
structure Assignment where
  name : String
  value : List Piece
deriving DecidableEq

/-! ### Lines -/

/-- Where in a line a character stands, as far as the end of the line depends on it. -/
inductive Place where
  | plain
  /-- Behind a blank, where a comment may begin. -/
  | afterBlank
  | escaped
  | single
  | singleEscaped
  | double
  | doubleEscaped
deriving DecidableEq

namespace Place

/-- The place behind a character that stands outside of quotes. -/
def outside (c : Char) (other : Place) : Place :=
  if c = '\\' then escaped
  else if c = '"' then double
  else if c = '\'' then single
  else other

/-- The place behind a character. A second blank does not begin a comment. -/
def after : Place → Char → Place
  | plain, c => outside c (if Text.isBlank c && c != '\n' && c != '\r' then afterBlank else plain)
  | afterBlank, c => outside c plain
  | escaped, _ => plain
  | single, c => if c = '\\' then singleEscaped else if c = '\'' then plain else single
  | singleEscaped, _ => single
  | double, c => if c = '\\' then doubleEscaped else if c = '"' then plain else double
  | doubleEscaped, _ => double

end Place

/-- Reads a piece of text up to its end or to a comment: what was read, and the place behind it,
none if a comment begins there. -/
def scan : Place → List Char → List Char × Option Place
  | place, [] => ([], some place)
  | place, c :: rest =>
    if place = .afterBlank ∧ c = '#' then ([], none)
    else
      let (read, place) := scan (place.after c) rest
      (c :: read, place)

/-- Cuts a text behind every line feed. -/
def rows : List Char → List (List Char)
  | [] => []
  | c :: rest =>
    if c = '\n' then [c] :: rows rest
    else match rows rest with
      | [] => [[c]]
      | row :: more => (c :: row) :: more

def dropEnd (line : List Char) : List Char :=
  match line.reverse with
  | '\n' :: '\r' :: before => before.reverse
  | '\n' :: before => before.reverse
  | _ => line

/-- The lines of a text. A line goes on where a row ends within quotes; the last row must not end
so, and not with a blank or a backslash either. -/
def lines : Place → (before : List Char) → List (List Char) → Option (List (List Char))
  | place, _, [] => if place = .plain then some [] else none
  | place, before, row :: more =>
    if (Text.trimLeft (before ++ row)).head? = some '#' then (lines .plain [] more).map ([] :: ·)
    else match scan place row with
      | (read, none) => (lines .plain [] more).map ((before ++ read) :: ·)
      | (_, some .plain) => (lines .plain [] more).map (dropEnd (before ++ row) :: ·)
      | (_, some place) => lines place (before ++ row) more

/-! ### Values -/

/-- How far a value has been read. -/
inductive ValuePlace where
  | plain
  | escaped
  | single
  /-- In the name of a variable. -/
  | name (chars : List Char)
  /-- In the name of a variable that stands in braces. -/
  | braced (chars : List Char)
  /-- Behind a blank that ended the value. -/
  | ended

/-- What a character behind a backslash stands for. -/
def unescape? (c : Char) : Option Char :=
  if c = '\\' ∨ c = '\'' ∨ c = '"' ∨ c = '$' ∨ c = ' ' then some c
  else if c = 'n' then some '\n'
  else none

/-- The parts of a value. `double` holds within double quotes. A character that cannot be in the
name of a variable ends it and stands for itself, be it a quote. -/
def value : (double : Bool) → ValuePlace → List Char → Option (List Piece)
  | double, .plain, [] | double, .escaped, [] => if double then none else some []
  | double, .name chars, [] =>
    if double then none else some [.variable (String.ofList chars)]
  | _, .single, [] | _, .braced _, [] => none
  | _, .ended, [] => some []
  | double, .plain, c :: rest =>
    if c = '$' then value double (.name []) rest
    else if c = '\\' then value double .escaped rest
    else if c = '"' then value (!double) .plain rest
    else if !double && c = '\'' then value double .single rest
    else if !double && (c = ' ' || c = '\t') then value double .ended rest
    else (value double .plain rest).map (.literal c :: ·)
  | double, .escaped, c :: rest =>
    (unescape? c).bind fun c => (value double .plain rest).map (.literal c :: ·)
  | double, .single, c :: rest =>
    if c = '\'' then value double .plain rest
    else (value double .single rest).map (.literal c :: ·)
  | double, .name chars, c :: rest =>
    if Text.isAlphanumeric c then value double (.name (chars ++ [c])) rest
    else if c = '{' && chars.isEmpty then value double (.braced []) rest
    else
      let reference : Piece := .variable (String.ofList chars)
      if c = '$' then (value double (.name []) rest).map (reference :: ·)
      else (value double .plain rest).map fun pieces => reference :: .literal c :: pieces
  | double, .braced chars, c :: rest =>
    if c = '}' then (value double .plain rest).map (.variable (String.ofList chars) :: ·)
    else value double (.braced (chars ++ [c])) rest
  | double, .ended, c :: rest =>
    if c = ' ' || c = '\t' then value double .ended rest
    else if c = '#' then some []
    else none

/-! ### Assignments -/

/-- A name may begin with this character. -/
def startsName (c : Char) : Bool :=
  c.isAlpha || c == '_'

/-- A name may go on with this character. -/
def continuesName (c : Char) : Bool :=
  c.isAlphanum || c == '_' || c == '.'

/-- Takes a name off the beginning of a text, and the blanks behind it. -/
def takeName : List Char → Option (String × List Char)
  | [] => none
  | c :: rest =>
    if startsName c then
      let chars := c :: rest
      some (String.ofList (chars.takeWhile continuesName),
        Text.trimLeft (chars.dropWhile continuesName))
    else none

/-- Takes an equals sign off the beginning of a text. -/
def takeEquals : List Char → Option (List Char)
  | '=' :: rest => some rest
  | _ => none

/-- The name that is assigned to, and what stands behind the equals sign. The word `export` may
stand before the name, and may be the name. -/
def takeTarget (line : List Char) : Option (String × List Char) := do
  let (name, rest) ← takeName line
  match takeEquals rest with
  | some rest => return (name, rest)
  | none =>
    if name = "export" then
      let (name, rest) ← takeName rest
      return (name, ← takeEquals rest)
    else none

/-- What a line assigns; a blank line and a comment assign nothing. -/
def assignment? (line : List Char) : Option (Option Assignment) :=
  match Text.trim line with
  | [] | '#' :: _ => some none
  | line => do
    let (name, rest) ← takeTarget line
    match Text.trimLeft rest with
    | [] | '#' :: _ => return some { name, value := [] }
    | rest => return some { name, value := ← value false .plain rest }

/-- The text without a byte-order mark. -/
def dropMark : List Char → List Char
  | '\uFEFF' :: rest => rest
  | text => text

/-- The assignments of a text, if all its lines can be read. -/
def assignments? (text : String) : Option (List Assignment) := do
  let found ← (← lines .plain [] (rows (dropMark text.toList))).mapM assignment?
  return found.filterMap id

/-- The file cannot be used. -/
def unusable (reason : String) : ConfigError :=
  .unreadable ("Failed to load .env file: " ++ reason)

def parse (bytes : Bytes) : Except ConfigError (List Assignment) :=
  match bytes.text? with
  | none => throw (unusable "stream did not contain valid UTF-8")
  | some text =>
    match assignments? text with
    | some found => pure found
    | none => throw (unusable "Error parsing line")

end ServiceBroker.EnvironmentFile
