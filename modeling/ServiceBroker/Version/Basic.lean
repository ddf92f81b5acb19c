/-!
Semantic versions: three numbers, a list of pre-release identifiers and a list of build identifiers.

An identifier is a non-empty word of ASCII letters, digits and hyphens; a numeric one among the
pre-release identifiers has no leading zero. Both conditions are part of the types, so a version
has exactly one written form.
-/

namespace ServiceBroker

namespace Version

def isWordChar (c : Char) : Bool :=
  c.isDigit || ('a' ≤ c && c ≤ 'z') || ('A' ≤ c && c ≤ 'Z') || c == '-'

/-- An identifier, a non-empty word. -/
structure Identifier where
  chars : List Char
  ne_nil : chars ≠ []
  all_word : chars.all isWordChar = true
deriving DecidableEq

namespace Identifier

def isNumeric (i : Identifier) : Bool :=
  i.chars.all Char.isDigit

/-- The identifier is a number with a zero in front. -/
def hasLeadingZero (i : Identifier) : Bool :=
  i.isNumeric && i.chars.head? == some '0' && i.chars.length != 1

end Identifier

end Version

/-- A semantic version. -/
structure Version where
  major : UInt64
  minor : UInt64
  patch : UInt64
  pre : List Version.Identifier := []
  build : List Version.Identifier := []
  /-- No numeric pre-release identifier has a zero in front. -/
  pre_canonical : pre.all (fun i => !i.hasLeadingZero) = true := by decide
deriving DecidableEq

namespace Version

/-- Identifiers with dots between them. -/
def joinIdentifiers : List Identifier → List Char
  | [] => []
  | [i] => i.chars
  | i :: rest => i.chars ++ '.' :: joinIdentifiers rest

/-- Identifiers behind the mark that announces them. -/
def marked (mark : Char) : List Identifier → List Char
  | [] => []
  | is => mark :: joinIdentifiers is

/-- The written form of a number. -/
def numberChars (n : UInt64) : List Char :=
  Nat.toDigits 10 n.toNat

/-- The written form of a version. -/
def chars (v : Version) : List Char :=
  numberChars v.major ++ '.' :: (numberChars v.minor ++ '.' :: (numberChars v.patch ++
    (marked '-' v.pre ++ marked '+' v.build)))

/-- The written form of a version. -/
def text (v : Version) : String :=
  String.ofList v.chars

end Version

end ServiceBroker
