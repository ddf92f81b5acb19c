/-!
A position in a YAML text: what is still to be read, and where in the text it stands.
-/

namespace ServiceBroker.Yaml

/-- Why a text is not YAML. -/
inductive SyntaxError where
  | controlCharacter
  | unexpectedCharacter
  | unexpectedEnd
  | unexpectedDocumentMark
  | keyExpected
  | keyNotAllowed
  | valueNotAllowed
  | entryNotAllowed
  | badDirective
  | badAnchor
  | badTag
  | badEscape
  | badBlockHeader
  | tabInIndentation
  | nodeExpected
  | separatorExpected
  | documentStartExpected
  | unknownAnchor
  | severalDocuments

/-- What is still to be read, and its place. -/
structure Cursor where
  rest : List Char
  index : Nat
  line : Nat
  column : Nat

/-- The characters that end a line. -/
def isBreak (c : Char) : Bool :=
  c = '\n' || c = '\r' || c = '\x85' || c = '\u2028' || c = '\u2029'

/-- Spaces and tabs. -/
def isGap (c : Char) : Bool :=
  c = ' ' || c = '\t'

/-- Nothing follows, or a blank, or the end of a line. -/
def atGap : List Char → Bool
  | [] => true
  | c :: _ => isGap c || isBreak c

/-- Nothing follows, or the end of a line. -/
def atLineEnd : List Char → Bool
  | [] => true
  | c :: _ => isBreak c

def isAllowed (c : Char) : Bool :=
  let n := c.toNat
  n == 9 || n == 10 || n == 13 || (32 ≤ n && n ≤ 126) || n == 0x85 || (0xA0 ≤ n && n ≤ 0xFFFD) ||
    0x10000 ≤ n

namespace Cursor

/-- The beginning of a text. A byte-order mark before it does not count. -/
def start (text : List Char) : Cursor :=
  let rest := match text with
    | '\ufeff' :: rest => rest
    | rest => rest
  { rest, index := 0, line := 0, column := 0 }

/-- Behind the next `n` characters of the line. -/
def skip (cursor : Cursor) (n : Nat := 1) : Cursor :=
  { cursor with rest := cursor.rest.drop n, index := cursor.index + n, column := cursor.column + n }

/-- Behind the characters of the line that satisfy `p`. -/
def skipWhile (cursor : Cursor) (p : Char → Bool) : Cursor :=
  cursor.skip (cursor.rest.takeWhile p).length

/-- Behind the end of the line; a carriage return and a line feed are one line end. -/
def skipLine (cursor : Cursor) : Cursor :=
  let next (n : Nat) : Cursor :=
    { rest := cursor.rest.drop n, index := cursor.index + n, line := cursor.line + 1, column := 0 }
  match cursor.rest with
  | '\r' :: '\n' :: _ => next 2
  | _ :: _ => next 1
  | [] => cursor

/-- What the line end stands for in a scalar: a line feed, except for the two separators. -/
def lineEnd (cursor : Cursor) : List Char :=
  match cursor.rest with
  | '\u2028' :: _ => ['\u2028']
  | '\u2029' :: _ => ['\u2029']
  | _ :: _ => ['\n']
  | [] => []

/-- A mark of three characters that separates documents stands here. -/
def atDocumentMark (cursor : Cursor) (c : Char) : Bool :=
  cursor.column == 0 && cursor.rest.take 3 == [c, c, c] && atGap (cursor.rest.drop 3)

/-- A mark between documents stands here. -/
def atAnyDocumentMark (cursor : Cursor) : Bool :=
  cursor.atDocumentMark '-' || cursor.atDocumentMark '.'

/-- The next character is `c`. -/
def isAt (cursor : Cursor) (c : Char) : Bool :=
  cursor.rest.head? == some c

end Cursor

end ServiceBroker.Yaml
