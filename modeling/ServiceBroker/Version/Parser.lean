import ServiceBroker.Version.Basic
import ServiceBroker.Text.Digits
import ServiceBroker.Text.Quoted

/-!
Reading versions. The text is read from left to right; the first thing that is wrong is reported.
-/

namespace ServiceBroker.Version

/-- The part of a version that is being read. -/
inductive Part where
  | major
  | minor
  | patch
  | pre
  | build
deriving DecidableEq

def Part.name : Part → String
  | .major => "major version number"
  | .minor => "minor version number"
  | .patch => "patch version number"
  | .pre => "pre-release identifier"
  | .build => "build metadata"

/-- Why a text is not a version. -/
inductive ParseError where
  | empty
  | unexpectedEnd (part : Part)
  | unexpectedChar (part : Part) (c : Char)
  /-- Something follows a part that cannot follow it. -/
  | unexpectedCharAfter (part : Part) (c : Char)
  | leadingZero (part : Part)
  | overflow (part : Part)
  | emptySegment (part : Part)
deriving DecidableEq

def quoted (c : Char) : String :=
  String.ofList (Text.quoteChar c)

/-- The reason in words. -/
def ParseError.message : ParseError → String
  | .empty => "empty string, expected a semver version"
  | .unexpectedEnd part => "unexpected end of input while parsing " ++ part.name
  | .unexpectedChar part c =>
    "unexpected character " ++ quoted c ++ " while parsing " ++ part.name
  | .unexpectedCharAfter part c => "unexpected character " ++ quoted c ++ " after " ++ part.name
  | .leadingZero part => "invalid leading zero in " ++ part.name
  | .overflow part => "value of " ++ part.name ++ " exceeds u64::MAX"
  | .emptySegment part => "empty identifier segment in " ++ part.name

/-- Reads a number without a zero in front. -/
def parseNumber (part : Part) (cs : List Char) : Except ParseError (UInt64 × List Char) :=
  match cs.takeWhile Char.isDigit, cs.dropWhile Char.isDigit with
  | [], [] => throw (.unexpectedEnd part)
  | [], c :: _ => throw (.unexpectedChar part c)
  | '0' :: _ :: _, _ => throw (.leadingZero part)
  | ds, rest =>
    if Text.natOfDigits ds < UInt64.size then pure (UInt64.ofNat (Text.natOfDigits ds), rest)
    else throw (.overflow part)

/-- Reads the dot behind a number. -/
def parseDot (part : Part) : List Char → Except ParseError (List Char)
  | '.' :: rest => pure rest
  | c :: _ => throw (.unexpectedCharAfter part c)
  | [] => throw (.unexpectedEnd part)

/-- Cuts a text at its dots. -/
def segments : List Char → List (List Char)
  | [] => [[]]
  | c :: rest =>
    if c = '.' then [] :: segments rest
    else match segments rest with
      | [] => [[c]]
      | segment :: more => (c :: segment) :: more

/-- A non-empty word as an identifier. -/
def Identifier.ofChars? (cs : List Char) : Option Identifier :=
  if h : cs ≠ [] ∧ cs.all isWordChar = true then some ⟨cs, h.1, h.2⟩ else none

/-- Makes identifiers of segments; `part` says which rules they obey. -/
def identifiers (part : Part) : List (List Char) → Except ParseError (List Identifier)
  | [] => pure []
  | segment :: more =>
    match Identifier.ofChars? segment with
    | none => throw (.emptySegment part)
    | some i =>
      if part = .pre ∧ i.hasLeadingZero then throw (.leadingZero part)
      else return i :: (← identifiers part more)

/-- Reads identifiers with dots between them. -/
def parseIdentifiers (part : Part) (cs : List Char) :
    Except ParseError (List Identifier × List Char) := do
  let inPart (c : Char) : Bool := isWordChar c || c == '.'
  let found ← identifiers part (segments (cs.takeWhile inPart))
  return (found, cs.dropWhile inPart)

/-- Reads the identifiers that `mark` announces, if it stands there. -/
def parseMarked (mark : Char) (part : Part) : List Char →
    Except ParseError (Option (List Identifier) × List Char)
  | [] => pure (none, [])
  | c :: rest =>
    if c = mark then do
      let (found, rest) ← parseIdentifiers part rest
      return (some found, rest)
    else pure (none, c :: rest)

/-- Refuses whatever follows the last part. -/
def parseEnd (part : Part) : List Char → Except ParseError Unit
  | [] => pure ()
  | c :: _ => throw (.unexpectedCharAfter part c)

def parseChars (cs : List Char) : Except ParseError Version := do
  if cs.isEmpty then throw .empty
  let (major, cs) ← parseNumber .major cs
  let cs ← parseDot .major cs
  let (minor, cs) ← parseNumber .minor cs
  let cs ← parseDot .minor cs
  let (patch, cs) ← parseNumber .patch cs
  let (pre, cs) ← parseMarked '-' .pre cs
  let (build, cs) ← parseMarked '+' .build cs
  parseEnd (if build.isSome then .build else if pre.isSome then .pre else .patch) cs
  if h : (pre.getD []).all (fun i => !i.hasLeadingZero) = true then
    return { major, minor, patch, pre := pre.getD [], build := build.getD [], pre_canonical := h }
  else throw (.leadingZero .pre)

def parse (text : String) : Except ParseError Version :=
  parseChars text.toList

/-- Reads a version, with the reason in words if it is none. -/
def parseText (text : String) : Except String Version :=
  (parse text).mapError ParseError.message

end ServiceBroker.Version
