import ServiceBroker.Yaml.Cursor

/-!
The five ways to write a scalar: plain, in single or double quotes, and as a literal or folded
block. Lines of the first three are folded: a single line end between two words reads as a blank,
more of them read as one line end less.
-/

namespace ServiceBroker.Yaml

/-- How a scalar is written. -/
inductive Style where
  | plain
  | singleQuoted
  | doubleQuoted
  | literal
  | folded
deriving DecidableEq

/-- The blanks and line ends between two words. -/
structure Gap where
  /-- The blanks before the first line end, in reverse order. -/
  blanks : List Char := []
  /-- What the first line end stands for. -/
  first : List Char := []
  /-- What the further line ends stand for. -/
  further : List Char := []
  /-- A line has ended. -/
  broken : Bool := false

def Gap.text (gap : Gap) : List Char :=
  if gap.broken then
    if gap.first.head? = some '\n' then
      if gap.further.isEmpty then [' '] else gap.further
    else gap.first ++ gap.further
  else gap.blanks.reverse

/-- Reads a gap. A tab before column `indent` of a further line is an error. -/
def scanGap (indent : Nat) : Nat → Cursor → Gap → Except SyntaxError (Gap × Cursor)
  | 0, cursor, gap => pure (gap, cursor)
  | fuel + 1, cursor, gap =>
    match cursor.rest with
    | [] => pure (gap, cursor)
    | c :: _ =>
      if isGap c then
        if gap.broken then
          if c = '\t' && cursor.column < indent then throw .tabInIndentation
          else scanGap indent fuel cursor.skip gap
        else scanGap indent fuel cursor.skip { gap with blanks := c :: gap.blanks }
      else if isBreak c then
        if gap.broken then
          scanGap indent fuel cursor.skipLine { gap with further := gap.further ++ cursor.lineEnd }
        else
          scanGap indent fuel cursor.skipLine
            { gap with blanks := [], first := cursor.lineEnd, broken := true }
      else pure (gap, cursor)

/-- A word of a plain scalar, and whether something ended it that is no blank. Within brackets the
marks of collections end it. -/
def plainWord (inFlow : Bool) : List Char → Except SyntaxError (List Char × Bool)
  | [] => pure ([], true)
  | c :: rest =>
    if isGap c || isBreak c then pure ([], false)
    else if inFlow && c = ':' && [',', '?', '[', ']', '{', '}'].any (rest.head? == some ·) then
      throw .unexpectedCharacter
    else if (c = ':' && atGap rest) || (inFlow && [',', '[', ']', '{', '}'].contains c) then
      pure ([], true)
    else do
      let (word, ended) ← plainWord inFlow rest
      return (c :: word, ended)

/-- Reads a plain scalar. Also tells whether a line has ended behind its last word. -/
def scanPlain (inFlow : Bool) (indent : Nat) :
    Nat → Cursor → List Char → Gap → Except SyntaxError (List Char × Bool × Cursor)
  | 0, cursor, text, gap => pure (text, gap.broken, cursor)
  | fuel + 1, cursor, text, gap =>
    if cursor.atAnyDocumentMark || cursor.isAt '#' then pure (text, gap.broken, cursor)
    else do
      let (word, ended) ← plainWord inFlow cursor.rest
      let (text, gap) :=
        if word.isEmpty then (text, gap) else (text ++ gap.text ++ word, {})
      let cursor := cursor.skip word.length
      if ended then return (text, gap.broken, cursor)
      let (gap, cursor) ← scanGap indent cursor.rest.length cursor {}
      if !inFlow && cursor.column < indent then return (text, gap.broken, cursor)
      scanPlain inFlow indent fuel cursor text gap

/-- The value of a hexadecimal digit. -/
def hexDigit? (c : Char) : Option Nat :=
  if c.isDigit then some (c.toNat - '0'.toNat)
  else if 'a' ≤ c && c ≤ 'f' then some (c.toNat - 'a'.toNat + 10)
  else if 'A' ≤ c && c ≤ 'F' then some (c.toNat - 'A'.toNat + 10)
  else none

/-- The character with the code point that some hexadecimal digits give. -/
def codePoint? (digits : List Char) : Option Char := do
  let values ← digits.mapM hexDigit?
  let n := values.foldl (fun n d => n * 16 + d) 0
  if n < 0xD800 || (0xE000 ≤ n && n < 0x110000) then some (Char.ofNat n) else none

/-- What stands behind a backslash: the character it means, and how long it is. -/
def escape? : List Char → Option (Char × Nat)
  | [] => none
  | c :: rest =>
    let coded (count : Nat) : Option (Char × Nat) :=
      if rest.length < count then none
      else (codePoint? (rest.take count)).map (·, count + 1)
    match c with
    | '0' => some ('\x00', 1)
    | 'a' => some ('\x07', 1)
    | 'b' => some ('\x08', 1)
    | 't' | '\t' => some ('\t', 1)
    | 'n' => some ('\n', 1)
    | 'v' => some ('\x0b', 1)
    | 'f' => some ('\x0c', 1)
    | 'r' => some ('\r', 1)
    | 'e' => some ('\x1b', 1)
    | ' ' => some (' ', 1)
    | '"' => some ('"', 1)
    | '/' => some ('/', 1)
    | '\\' => some ('\\', 1)
    | 'N' => some ('\x85', 1)
    | '_' => some ('\xa0', 1)
    | 'L' => some ('\u2028', 1)
    | 'P' => some ('\u2029', 1)
    | 'x' => coded 2
    | 'u' => coded 4
    | 'U' => coded 8
    | _ => none

/-- Reads a quoted scalar from behind its opening quote. `text` is in reverse order. -/
def scanQuoted (quote : Char) : Nat → Cursor → List Char → Except SyntaxError (List Char × Cursor)
  | 0, _, _ => throw .unexpectedEnd
  | fuel + 1, cursor, text =>
    if cursor.atAnyDocumentMark then throw .unexpectedDocumentMark
    else match cursor.rest with
      | [] => throw .unexpectedEnd
      | c :: rest =>
        if isGap c || isBreak c then do
          let (gap, cursor) ← scanGap 0 cursor.rest.length cursor {}
          scanQuoted quote fuel cursor (gap.text.reverse ++ text)
        else if c = quote then
          if quote = '\'' && rest.head? = some '\'' then
            scanQuoted quote fuel (cursor.skip 2) ('\'' :: text)
          else pure (text.reverse, cursor.skip)
        else if quote = '"' && c = '\\' then
          if rest.head?.any isBreak then do
            let cursor := cursor.skip.skipLine
            let (gap, cursor) ← scanGap 0 cursor.rest.length cursor { broken := true }
            scanQuoted quote fuel cursor (gap.text.reverse ++ text)
          else match escape? rest with
            | some (meant, length) =>
              scanQuoted quote fuel (cursor.skip (length + 1)) (meant :: text)
            | none => throw .badEscape
        else scanQuoted quote fuel cursor.skip (c :: text)

/-- What happens to the line ends at the end of a block. -/
inductive Chomping where
  | strip
  | clip
  | keep
deriving DecidableEq

/-- The header of a block: the chomping and the explicit indentation, in either order. -/
def blockHeader (cursor : Cursor) : Except SyntaxError (Chomping × Nat × Cursor) :=
  let chomping? (cursor : Cursor) : Option Chomping :=
    if cursor.isAt '+' then some .keep else if cursor.isAt '-' then some .strip else none
  let indent? (cursor : Cursor) : Option Nat :=
    match cursor.rest with
    | c :: _ => if c.isDigit then some (c.toNat - '0'.toNat) else none
    | [] => none
  match chomping? cursor with
  | some chomping =>
    match indent? cursor.skip with
    | some 0 => throw .badBlockHeader
    | some n => pure (chomping, n, cursor.skip 2)
    | none => pure (chomping, 0, cursor.skip)
  | none =>
    match indent? cursor with
    | some 0 => throw .badBlockHeader
    | some n =>
      match chomping? cursor.skip with
      | some chomping => pure (chomping, n, cursor.skip 2)
      | none => pure (.clip, n, cursor.skip)
    | none => pure (.clip, 0, cursor)

/-- Skips indentation and empty lines. Where `indent` is zero the indentation is not known yet;
`widest` is the widest one seen. -/
def scanBlockBreaks (indent : Nat) :
    Nat → Cursor → Nat → List Char → Except SyntaxError (Nat × List Char × Cursor)
  | 0, cursor, widest, breaks => pure (widest, breaks, cursor)
  | fuel + 1, cursor, widest, breaks =>
    let spaces := (cursor.rest.takeWhile (· == ' ')).length
    let cursor := cursor.skip (if indent = 0 then spaces else min spaces (indent - cursor.column))
    let widest := max widest cursor.column
    if (indent = 0 || cursor.column < indent) && cursor.isAt '\t' then throw .tabInIndentation
    else if cursor.rest.head?.any isBreak then
      scanBlockBreaks indent fuel cursor.skipLine widest (breaks ++ cursor.lineEnd)
    else pure (widest, breaks, cursor)

/-- The part of a block that was read last. -/
structure BlockTail where
  /-- What the end of the last line stands for. -/
  first : List Char := []
  /-- What the empty lines behind it stand for. -/
  further : List Char := []
  /-- The last line begins with a blank. -/
  blank : Bool := false

def scanBlockLines (folded : Bool) (indent : Nat) :
    Nat → Cursor → List Char → BlockTail → Except SyntaxError (List Char × BlockTail × Cursor)
  | 0, cursor, text, tail => pure (text, tail, cursor)
  | fuel + 1, cursor, text, tail =>
    if cursor.column = indent && !cursor.rest.isEmpty then do
      let blank := cursor.rest.head?.any isGap
      let joint :=
        if folded && tail.first.head? = some '\n' && !tail.blank && !blank then
          if tail.further.isEmpty then [' '] else []
        else tail.first
      let line := cursor.rest.takeWhile (fun c => !isBreak c)
      let cursor := cursor.skip line.length
      let first := cursor.lineEnd
      let (_, further, cursor) ←
        scanBlockBreaks indent (cursor.rest.length + 1) cursor.skipLine 0 []
      scanBlockLines folded indent fuel cursor (text ++ joint ++ tail.further ++ line)
        { first, further, blank }
    else pure (text, tail, cursor)

/-- Reads a block from behind its mark, within a collection that is indented to `outer`. -/
def scanBlock (folded : Bool) (outer : Int) (cursor : Cursor) :
    Except SyntaxError (List Char × Cursor) := do
  let (chomping, explicit, cursor) ← blockHeader cursor
  let cursor := cursor.skipWhile isGap
  let cursor := if cursor.isAt '#' then cursor.skipWhile (fun c => !isBreak c) else cursor
  if !atLineEnd cursor.rest then throw .badBlockHeader
  let cursor := cursor.skipLine
  let given := if explicit = 0 then 0 else (max outer 0).toNat + explicit
  let (widest, breaks, cursor) ← scanBlockBreaks given (cursor.rest.length + 1) cursor 0 []
  let indent := if given = 0 then max widest (max (outer + 1) 1).toNat else given
  let (text, tail, cursor) ←
    scanBlockLines folded indent (cursor.rest.length + 1) cursor [] { further := breaks }
  let ending := match chomping with
    | .strip => []
    | .clip => tail.first
    | .keep => tail.first ++ tail.further
  return (text ++ ending, cursor)

end ServiceBroker.Yaml
