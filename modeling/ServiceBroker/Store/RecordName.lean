/-!
The names under which records are kept: the id, in a form that a file name may have, and an
ending that tells records from other things.

In a file name a percent sign and two hexadecimal digits stand for a character that file systems
give a meaning of its own.
-/

namespace ServiceBroker.RecordName

def ending : List Char := ".json".toList

def withoutEnding? (name : List Char) : Option (List Char) :=
  if ending.isSuffixOf name then some (name.take (name.length - ending.length)) else none

/-- Adding the ending is undone. -/
@[simp]
theorem withoutEnding?_append (name : List Char) : withoutEnding? (name ++ ending) = some name := by
  have h : ending.isSuffixOf (name ++ ending) = true :=
    List.isSuffixOf_iff_suffix.2 (List.suffix_append name ending)
  simp [withoutEnding?, h]

/-- A character as it stands in a file name. -/
def escapeChar : Char → List Char
  | '%' => ['%', '2', '5']
  | ':' => ['%', '3', 'A']
  | '/' => ['%', '2', 'F']
  | '\\' => ['%', '5', 'C']
  | c => [c]

def escape (id : List Char) : List Char :=
  id.flatMap escapeChar

/-- Puts a character wherever a percent sign and its two digits stand. -/
def unescapeOne (high low c : Char) : List Char → List Char
  | '%' :: x :: y :: rest =>
    if x = high ∧ y = low then c :: unescapeOne high low c rest
    else '%' :: unescapeOne high low c (x :: y :: rest)
  | x :: rest => x :: unescapeOne high low c rest
  | [] => []

/-- The id of a file name. The percent sign comes last, so that it makes no new escapes. -/
def unescape (name : List Char) : List Char :=
  unescapeOne '2' '5' '%' (unescapeOne '5' 'C' '\\' (unescapeOne '2' 'F' '/'
    (unescapeOne '3' 'A' ':' name)))

def file (id : String) : String :=
  String.ofList (escape id.toList ++ ending)

/-- The name of the file into which a record is written before it takes its place: the ending is
replaced, or added to where nothing stands before it. A single dot before the ending makes the name
of the folder above, in which nothing can be written. -/
def temporary (id : String) : String :=
  match escape id.toList with
  | [] => String.ofList (ending ++ ".tmp".toList)
  | ['.'] => ".."
  | name => String.ofList (name ++ ".tmp".toList)

/-- The id of the record that a file holds, if it holds one. -/
def idOfFile? (name : String) : Option String :=
  (withoutEnding? name.toList).map fun stem => String.ofList (unescape stem)

end ServiceBroker.RecordName
