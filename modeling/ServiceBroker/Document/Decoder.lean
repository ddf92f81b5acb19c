import ServiceBroker.Json.Reader

/-!
Decoding documents into values with a known shape.

A decoder is told by which dialect the document was written: how many more sequences and mappings
may be opened, and whether a record may be given as the sequence of its fields. Only what a decoder
looks at has to be in order; members that a record does not know are skipped unseen.
-/

namespace ServiceBroker

/-- Why a document does not decode. -/
inductive DecodeError where
  /-- The text does not follow the grammar of its language. -/
  | malformed (language : String)
  | tooDeep
  | unexpected (wanted : String)
  | missing (field : String)
  | repeated (field : String)
  | surplus
  /-- A text that does not have the form its field wants. -/
  | invalid (reason : String)

/-- The reason in words. -/
def DecodeError.message : DecodeError → String
  | .malformed language => "not a valid " ++ language ++ " document"
  | .tooDeep => "nested too deeply"
  | .unexpected wanted => "expected " ++ wanted
  | .missing field => "missing field " ++ field
  | .repeated field => "repeated field " ++ field
  | .surplus => "too many elements for a record"
  | .invalid reason => reason

/-- What a language lets a document do. -/
structure Dialect where
  /-- How many sequences and mappings may still be opened, one within the other. -/
  room : Nat
  /-- A record may be written as the sequence of its fields, and a bare choice as a mapping from
  its name to nothing. -/
  positional : Bool

namespace Dialect

/-- JSON documents nest to a depth of 127. -/
def json : Dialect := { room := 127, positional := true }

/-- YAML documents nest to a depth of 128. -/
def yaml : Dialect := { room := 128, positional := false }

/-- The dialect within a sequence or mapping. -/
def enter (dialect : Dialect) : Except DecodeError Dialect :=
  if dialect.room = 0 then throw .tooDeep else pure { dialect with room := dialect.room - 1 }

end Dialect

/-- Reads values of a kind from documents. -/
abbrev Decoder (α : Type) := Dialect → Document → Except DecodeError α

namespace Decoder

variable {α β : Type}

/-- The reading of a scalar, or an error that names what was wanted. -/
def reading (wanted : String) (read : Scalar → Option α) : Decoder α
  | _, .scalar s => (read s).elim (throw (.unexpected wanted)) pure
  | _, _ => throw (.unexpected wanted)

/-- A text. -/
def text : Decoder String :=
  reading "a text" Scalar.text

/-- A truth value. -/
def flag : Decoder Bool :=
  reading "a truth value" Scalar.flag

/-- A natural number that fits 64 bits. -/
def count : Decoder Nat :=
  reading "a number" Scalar.count

/-- A text of some form. -/
def parsed (parse : String → Except String α) : Decoder α := fun dialect document => do
  match parse (← text dialect document) with
  | .ok value => pure value
  | .error reason => throw (.invalid reason)

mutual

/-- A free-form value. In a mapping a repeated key keeps its place and takes the last value. -/
def value (room : Nat) : Document → Except DecodeError Json
  | .scalar s => s.value.elim (throw (.unexpected "a value")) pure
  | .sequence items =>
    match room with
    | 0 => throw .tooDeep
    | room + 1 => .array <$> values room items
  | .mapping members =>
    match room with
    | 0 => throw .tooDeep
    | room + 1 => (.object ∘ Fields.ofPairs) <$> valueMembers room members
  | .unreadable => throw (.unexpected "a value")

/-- Free-form items. -/
def values (room : Nat) : List Document → Except DecodeError (List Json)
  | [] => pure []
  | item :: items => return (← value room item) :: (← values room items)

/-- Free-form members. -/
def valueMembers (room : Nat) :
    List (Option String × Document) → Except DecodeError (List (String × Json))
  | [] => pure []
  | (some key, document) :: members =>
    return (key, ← value room document) :: (← valueMembers room members)
  | (none, _) :: _ => throw (.unexpected "a key")

end

/-- A free-form value. -/
def json : Decoder Json := fun dialect document =>
  value dialect.room document

/-- A value that may be left out. -/
def option (decoder : Decoder α) : Decoder (Option α)
  | dialect, document@(.scalar s) =>
    if s.absent then pure none else some <$> decoder dialect document
  | dialect, document => some <$> decoder dialect document

def list (decoder : Decoder α) : Decoder (List α)
  | dialect, .sequence items => do
    let inner ← dialect.enter
    items.mapM (decoder inner)
  | _, .scalar s => if s.empty then pure [] else throw (.unexpected "a sequence")
  | _, _ => throw (.unexpected "a sequence")

/-- Values by name; the last value of a repeated name counts. -/
def fields (decoder : Decoder α) : Decoder (Fields α)
  | dialect, .mapping members => do
    let inner ← dialect.enter
    let pairs ← members.mapM fun (key, document) => do
      match key with
      | some key => return (key, ← decoder inner document)
      | none => throw (.unexpected "a key")
    return Fields.ofPairs pairs
  | _, .scalar s => if s.empty then pure [] else throw (.unexpected "a mapping")
  | _, _ => throw (.unexpected "a mapping")

/-- Free-form values by name. -/
def params : Decoder Params :=
  fields json

/-- One of several names. -/
def choice (named : String → Option α) : Decoder α
  | _, .scalar s =>
    match s.name.bind named with
    | some value => pure value
    | none => throw (.unexpected "one of the known names")
  | dialect, .mapping [(some name, .scalar s)] => do
    if dialect.positional && s.absent then
      let _ ← dialect.enter
      match named name with
      | some value => pure value
      | none => throw (.unexpected "one of the known names")
    else throw (.unexpected "a name")
  | _, _ => throw (.unexpected "a name")

abbrev Form := Fields Document

/-- Collects the members that a record knows. -/
def known (names : List String) :
    List (Option String × Document) → Form → Except DecodeError Form
  | [], form => pure form
  | (none, _) :: _, _ => throw (.unexpected "a field name")
  | (some key, document) :: members, form =>
    if names.contains key then
      if (form.get? key).isSome then throw (.repeated key)
      else known names members (form ++ [(key, document)])
    else known names members form

def record (names : List String) (build : Dialect → Form → Except DecodeError α) : Decoder α
  | dialect, .mapping members => do
    let inner ← dialect.enter
    build inner (← known names members [])
  | dialect, .sequence items => do
    if dialect.positional then
      let inner ← dialect.enter
      if names.length < items.length then throw .surplus
      build inner (names.zip items)
    else throw (.unexpected "a mapping")
  | dialect, .scalar s => if s.empty then build dialect [] else throw (.unexpected "a mapping")
  | _, _ => throw (.unexpected "a mapping")

/-- A field that must be given. -/
def required (form : Form) (dialect : Dialect) (name : String) (decoder : Decoder α) :
    Except DecodeError α :=
  match form.get? name with
  | some document => decoder dialect document
  | none => throw (.missing name)

/-- A field with a default. -/
def defaulted (form : Form) (dialect : Dialect) (name : String) (decoder : Decoder α) (value : α) :
    Except DecodeError α :=
  match form.get? name with
  | some document => decoder dialect document
  | none => pure value

/-- A field that may be left out or have no value. -/
def optional (form : Form) (dialect : Dialect) (name : String) (decoder : Decoder α) :
    Except DecodeError (Option α) :=
  defaulted form dialect name (option decoder) none

end Decoder

def Json.decode {α : Type} (decoder : Decoder α) (text : String) : Except DecodeError α :=
  match Json.readDocument? text.toList with
  | some document => decoder .json document
  | none => throw (.malformed "JSON")

def Json.decodeBytes {α : Type} (decoder : Decoder α) (bytes : Bytes) : Except DecodeError α :=
  match Json.readOctets? bytes with
  | some document => decoder .json document
  | none => throw (.malformed "JSON")

/-- Reads a JSON text as a free-form value. -/
def Json.parse (text : String) : Except DecodeError Json :=
  Json.decode Decoder.json text

end ServiceBroker
