import ServiceBroker.Yaml.Scalar
import ServiceBroker.Text.Digits

/-!
The tokens of a YAML text. Indentation becomes brackets: where a line is indented further than the
one before it and begins a sequence or mapping, a start token is put in, and an end token where the
indentation goes back.

A mapping key without a mark of its own is only known to be one when its colon is found. So the
scanner remembers where such a key may have begun, and puts the key token there afterwards.
-/

namespace ServiceBroker.Yaml

/-- A token. -/
inductive Token where
  | versionDirective (major minor : Nat)
  | tagDirective (handle expansion : List Char)
  | documentStart
  | documentEnd
  | blockSequenceStart
  | blockMappingStart
  | blockEnd
  | flowSequenceStart
  | flowSequenceEnd
  | flowMappingStart
  | flowMappingEnd
  | blockEntry
  | flowEntry
  | key
  | value
  | alias (name : List Char)
  | anchor (name : List Char)
  | tag (handle suffix : List Char)
  | scalar (style : Style) (text : List Char)
deriving DecidableEq

/-- A place where a mapping key may have begun. -/
structure Candidate where
  /-- There is no other way to read what stands there. -/
  required : Bool
  /-- The number of the token that it begins with. -/
  token : Nat
  index : Nat
  line : Nat
  column : Nat

/-- The state of the scanner. -/
structure Scanner where
  cursor : Cursor
  tokens : Array Token := #[]
  /-- The indentation of the innermost block, `-1` outside all blocks. -/
  indent : Int := -1
  /-- The indentations around it. -/
  outer : List Int := []
  /-- A key without a mark may begin here. -/
  keyAllowed : Bool := true
  /-- The candidate outside all brackets, or within the innermost ones. -/
  candidate : Option Candidate := none
  /-- The candidates of the brackets around, and of the text outside them. -/
  around : List (Option Candidate) := []

namespace Scanner

/-- The scanner stands within brackets. -/
def inFlow (s : Scanner) : Bool :=
  !s.around.isEmpty

def emit (s : Scanner) (t : Token) : Scanner :=
  { s with tokens := s.tokens.push t }

/-- Puts a token before the one with the given number. -/
def insert (s : Scanner) (position : Nat) (t : Token) : Scanner :=
  { s with
    tokens := s.tokens.extract 0 position ++ #[t] ++ s.tokens.extract position s.tokens.size }

/-- Opens a block at a column that is indented further than the blocks around. -/
def openBlock (s : Scanner) (column : Nat) (position : Nat) (t : Token) : Scanner :=
  if !s.inFlow && s.indent < column then
    { s.insert position t with indent := column, outer := s.indent :: s.outer }
  else s

/-- Closes blocks that are indented further than a column, from the innermost one on. -/
def closeBlocks (column : Int) : Nat → Scanner → Scanner
  | 0, s => s
  | fuel + 1, s =>
    if !s.inFlow && column < s.indent then
      match s.outer with
      | indent :: outer => closeBlocks column fuel { s.emit .blockEnd with indent, outer }
      | [] => s
    else s

/-- Closes all blocks that are indented further than a column. -/
def unindent (s : Scanner) (column : Int) : Scanner :=
  closeBlocks column (s.outer.length + 1) s

/-- Gives up the candidate; an error if it had to be a key. -/
def dropCandidate (s : Scanner) : Except SyntaxError Scanner :=
  if s.candidate.any (·.required) then throw .keyExpected else pure { s with candidate := none }

/-- Remembers that a key may begin here. -/
def noteCandidate (s : Scanner) : Except SyntaxError Scanner := do
  if s.keyAllowed then
    let s ← s.dropCandidate
    return { s with candidate := some {
      required := !s.inFlow && s.indent == s.cursor.column, token := s.tokens.size,
      index := s.cursor.index, line := s.cursor.line, column := s.cursor.column } }
  else return s

/-- A candidate that began on an earlier line, or too far back, is none. -/
def refresh (cursor : Cursor) (candidate : Option Candidate) :
    Except SyntaxError (Option Candidate) :=
  match candidate with
  | some c =>
    if c.line < cursor.line || c.index + 1024 < cursor.index then
      if c.required then throw .keyExpected else pure none
    else pure (some c)
  | none => pure none

/-- Gives up the candidates that are none any more. -/
def refreshCandidates (s : Scanner) : Except SyntaxError Scanner := do
  let around ← s.around.mapM (refresh s.cursor)
  let candidate ← refresh s.cursor s.candidate
  return { s with candidate, around }

/-- Skips blanks, comments and line ends before a token. Outside brackets a tab is a blank only
where no key may begin. -/
def skipToToken : Nat → Scanner → Scanner
  | 0, s => s
  | fuel + 1, s =>
    let cursor := if s.cursor.column = 0 && s.cursor.isAt '\ufeff' then s.cursor.skip else s.cursor
    let tabs := s.inFlow || !s.keyAllowed
    let cursor := cursor.skipWhile fun c => c = ' ' || (tabs && c = '\t')
    let cursor := if cursor.isAt '#' then cursor.skipWhile (fun c => !isBreak c) else cursor
    if cursor.rest.head?.any isBreak then
      skipToToken fuel
        { s with cursor := cursor.skipLine, keyAllowed := if s.inFlow then s.keyAllowed else true }
    else { s with cursor }

def isNameChar (c : Char) : Bool :=
  c.isAlphanum || c = '_' || c = '-'

/-- The characters of tags besides those of names. -/
def isTagChar (c : Char) : Bool :=
  isNameChar c || [';', '/', '?', ':', '@', '&', '=', '+', '$', '.', '%', '!', '~', '*', '\'', '(',
    ')'].contains c

/-- The characters of a tag that stands between angle brackets. -/
def isVerbatimTagChar (c : Char) : Bool :=
  isTagChar c || [',', '[', ']'].contains c

/-- Reads `%` escapes in a tag as the octets they stand for, ASCII only. -/
def unescapeTag : List Char → Option (List Char)
  | [] => some []
  | '%' :: a :: b :: rest => do
    let c ← codePoint? [a, b]
    if c.toNat < 128 then return c :: (← unescapeTag rest) else none
  | '%' :: _ => none
  | c :: rest => (unescapeTag rest).map (c :: ·)

def endDirective (s : Scanner) (t : Token) : Except SyntaxError Scanner :=
  let cursor := s.cursor.skipWhile isGap
  let cursor := if cursor.isAt '#' then cursor.skipWhile (fun c => !isBreak c) else cursor
  if atLineEnd cursor.rest then pure { s.emit t with cursor := cursor.skipLine }
  else throw .badDirective

/-- The value of a sequence of at most nine digits. -/
def directiveNumber? (digits : List Char) : Option Nat :=
  if digits.isEmpty || 9 < digits.length then none
  else some (Text.natOfDigits digits)

/-- A handle: exclamation marks with a name between them, or one alone. -/
def handle? (cursor : Cursor) : Option (List Char × Cursor) :=
  if cursor.isAt '!' then
    let name := cursor.skip.rest.takeWhile isNameChar
    let cursor := cursor.skip (name.length + 1)
    if cursor.isAt '!' then some ('!' :: name ++ ['!'], cursor.skip) else some ('!' :: name, cursor)
  else none

/-- A directive. -/
def scanDirective (s : Scanner) : Except SyntaxError Scanner := do
  let s := s.unindent (-1)
  let s ← s.dropCandidate
  let s := { s with keyAllowed := false }
  let name := s.cursor.skip.rest.takeWhile isNameChar
  let cursor := s.cursor.skip (name.length + 1)
  if name.isEmpty || !atGap cursor.rest then throw .badDirective
  let cursor := cursor.skipWhile isGap
  if name = ['Y', 'A', 'M', 'L'] then
    let major := cursor.rest.takeWhile Char.isDigit
    let cursor := cursor.skip major.length
    if !cursor.isAt '.' then throw .badDirective
    let minor := cursor.skip.rest.takeWhile Char.isDigit
    let cursor := cursor.skip (minor.length + 1)
    match directiveNumber? major, directiveNumber? minor with
    | some major, some minor => endDirective { s with cursor } (.versionDirective major minor)
    | _, _ => throw .badDirective
  else if name = ['T', 'A', 'G'] then
    match handle? cursor with
    | some (handle, cursor) =>
      if handle.length ≠ 1 && handle.getLast? ≠ some '!' then throw .badDirective
      if !cursor.rest.head?.any isGap then throw .badDirective
      let cursor := cursor.skipWhile isGap
      let expansion := cursor.rest.takeWhile isVerbatimTagChar
      let cursor := cursor.skip expansion.length
      match unescapeTag expansion with
      | some meant =>
        if expansion.isEmpty || !atGap cursor.rest then throw .badDirective
        endDirective { s with cursor } (.tagDirective handle meant)
      | none => throw .badDirective
    | none => throw .badDirective
  else throw .badDirective

def scanDocumentMark (s : Scanner) (t : Token) : Except SyntaxError Scanner := do
  let s := s.unindent (-1)
  let s ← s.dropCandidate
  return { s.emit t with keyAllowed := false, cursor := s.cursor.skip 3 }

/-- An opening bracket. -/
def scanFlowStart (s : Scanner) (t : Token) : Except SyntaxError Scanner := do
  let s ← s.noteCandidate
  return { s.emit t with
    around := s.candidate :: s.around, candidate := none, keyAllowed := true,
    cursor := s.cursor.skip }

/-- A closing bracket. -/
def scanFlowEnd (s : Scanner) (t : Token) : Except SyntaxError Scanner := do
  let s ← s.dropCandidate
  let s := match s.around with
    | candidate :: around => { s with candidate, around }
    | [] => s
  return { s.emit t with keyAllowed := false, cursor := s.cursor.skip }

/-- A comma within brackets. -/
def scanFlowEntry (s : Scanner) : Except SyntaxError Scanner := do
  let s ← s.dropCandidate
  return { s.emit .flowEntry with keyAllowed := true, cursor := s.cursor.skip }

/-- The dash before an entry of a sequence. -/
def scanBlockEntry (s : Scanner) : Except SyntaxError Scanner := do
  if !s.inFlow && !s.keyAllowed then throw .entryNotAllowed
  let s := s.openBlock s.cursor.column s.tokens.size .blockSequenceStart
  let s ← s.dropCandidate
  return { s.emit .blockEntry with keyAllowed := true, cursor := s.cursor.skip }

/-- The question mark before a key. -/
def scanKey (s : Scanner) : Except SyntaxError Scanner := do
  if !s.inFlow && !s.keyAllowed then throw .keyNotAllowed
  let s := s.openBlock s.cursor.column s.tokens.size .blockMappingStart
  let s ← s.dropCandidate
  return { s.emit .key with keyAllowed := !s.inFlow, cursor := s.cursor.skip }

/-- The colon before a value. If a key may have begun on this line, it is one now. -/
def scanValue (s : Scanner) : Except SyntaxError Scanner := do
  match s.candidate with
  | some c =>
    let s := s.insert c.token .key
    let s := s.openBlock c.column c.token .blockMappingStart
    return { s.emit .value with candidate := none, keyAllowed := false, cursor := s.cursor.skip }
  | none =>
    if !s.inFlow && !s.keyAllowed then throw .valueNotAllowed
    let s := s.openBlock s.cursor.column s.tokens.size .blockMappingStart
    return { s.emit .value with keyAllowed := !s.inFlow, cursor := s.cursor.skip }

def scanAnchor (s : Scanner) (t : List Char → Token) : Except SyntaxError Scanner := do
  let s ← s.noteCandidate
  let name := s.cursor.skip.rest.takeWhile isNameChar
  let cursor := s.cursor.skip (name.length + 1)
  let ended := atGap cursor.rest ||
    ['?', ':', ',', ']', '}', '%', '@', '`'].any (cursor.rest.head? == some ·)
  if name.isEmpty || !ended then throw .badAnchor
  return { s.emit (t name) with keyAllowed := false, cursor }

/-- A tag. -/
def scanTag (s : Scanner) : Except SyntaxError Scanner := do
  let s ← s.noteCandidate
  let finish (cursor : Cursor) (handle suffix : List Char) : Except SyntaxError Scanner :=
    if atGap cursor.rest || (s.inFlow && cursor.isAt ',') then
      pure { s.emit (.tag handle suffix) with keyAllowed := false, cursor }
    else throw .badTag
  if s.cursor.skip.isAt '<' then
    let cursor := s.cursor.skip 2
    let suffix := cursor.rest.takeWhile isVerbatimTagChar
    let cursor := cursor.skip suffix.length
    match unescapeTag suffix with
    | some meant =>
      if suffix.isEmpty || !cursor.isAt '>' then throw .badTag
      finish cursor.skip [] meant
    | none => throw .badTag
  else
    let suffixOf (cursor : Cursor) : List Char :=
      cursor.rest.takeWhile fun c =>
        isTagChar c || (!s.inFlow && [',', '[', ']'].contains c)
    match handle? s.cursor with
    | some (handle, cursor) =>
      if handle.length ≠ 1 && handle.getLast? = some '!' then
        let suffix := suffixOf cursor
        match unescapeTag suffix with
        | some meant =>
          if suffix.isEmpty then throw .badTag
          finish (cursor.skip suffix.length) handle meant
        | none => throw .badTag
      else
        let suffix := suffixOf s.cursor.skip
        match unescapeTag suffix with
        | some [] => finish s.cursor.skip [] ['!']
        | some meant => finish (s.cursor.skip (suffix.length + 1)) ['!'] meant
        | none => throw .badTag
    | none => throw .badTag

def scanBlockScalar (s : Scanner) (folded : Bool) : Except SyntaxError Scanner := do
  let s ← s.dropCandidate
  let (text, cursor) ← scanBlock folded s.indent s.cursor.skip
  return { s.emit (.scalar (if folded then .folded else .literal) text) with
    keyAllowed := true, cursor }

def scanQuotedScalar (s : Scanner) (quote : Char) (style : Style) :
    Except SyntaxError Scanner := do
  let s ← s.noteCandidate
  let (text, cursor) ← scanQuoted quote (s.cursor.rest.length + 1) s.cursor.skip []
  return { s.emit (.scalar style text) with keyAllowed := false, cursor }

/-- A plain scalar. -/
def scanPlainScalar (s : Scanner) : Except SyntaxError Scanner := do
  let s ← s.noteCandidate
  let (text, broken, cursor) ←
    scanPlain s.inFlow (s.indent + 1).toNat (s.cursor.rest.length + 1) s.cursor [] {}
  return { s.emit (.scalar .plain text) with keyAllowed := broken, cursor }

/-- A plain scalar may begin with `c` when `rest` follows. -/
def beginsPlain (inFlow : Bool) (c : Char) (rest : List Char) : Bool :=
  let indicators := ['-', '?', ':', ',', '[', ']', '{', '}', '#', '&', '*', '!', '|', '>', '\'',
    '"', '%', '@', '`']
  !(isGap c || isBreak c || indicators.contains c) || (c = '-' && !rest.head?.any isGap) ||
    (!inFlow && (c = '?' || c = ':') && !atGap rest)

def scanToken (s : Scanner) : Except SyntaxError Scanner :=
  match s.cursor.rest with
  | [] => pure s
  | c :: rest =>
    if s.cursor.column = 0 && c = '%' then s.scanDirective
    else if s.cursor.atDocumentMark '-' then s.scanDocumentMark .documentStart
    else if s.cursor.atDocumentMark '.' then s.scanDocumentMark .documentEnd
    else if c = '[' then s.scanFlowStart .flowSequenceStart
    else if c = '{' then s.scanFlowStart .flowMappingStart
    else if c = ']' then s.scanFlowEnd .flowSequenceEnd
    else if c = '}' then s.scanFlowEnd .flowMappingEnd
    else if c = ',' then s.scanFlowEntry
    else if c = '-' && atGap rest then s.scanBlockEntry
    else if c = '?' && (s.inFlow || atGap rest) then s.scanKey
    else if c = ':' && (s.inFlow || atGap rest) then s.scanValue
    else if c = '*' then s.scanAnchor .alias
    else if c = '&' then s.scanAnchor .anchor
    else if c = '!' then s.scanTag
    else if c = '|' && !s.inFlow then s.scanBlockScalar false
    else if c = '>' && !s.inFlow then s.scanBlockScalar true
    else if c = '\'' then s.scanQuotedScalar '\'' .singleQuoted
    else if c = '"' then s.scanQuotedScalar '"' .doubleQuoted
    else if beginsPlain s.inFlow c rest then s.scanPlainScalar
    else throw .unexpectedCharacter

/-- All tokens up to the end of the text; each one takes at least a character. -/
def scanAll : Nat → Scanner → Except SyntaxError Scanner
  | 0, s => pure s
  | fuel + 1, s => do
    let s := skipToToken (s.cursor.rest.length + 1) s
    let s ← s.refreshCandidates
    if s.cursor.rest.isEmpty then
      (s.unindent (-1)).dropCandidate
    else
      let s := s.unindent s.cursor.column
      scanAll fuel (← s.scanToken)

end Scanner

def tokens (text : List Char) : Except SyntaxError (List Token) := do
  if !text.all isAllowed then throw .controlCharacter
  let s ← Scanner.scanAll (text.length + 1) { cursor := .start text }
  return s.tokens.toList

end ServiceBroker.Yaml
