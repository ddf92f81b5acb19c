import ServiceBroker.Yaml.Node
import ServiceBroker.Document.Decoder

/-!
YAML texts as documents.

A plain scalar reads as whatever a field wants it to be; one in quotes or in a block is a text and
nothing else. References to anchors are followed, as long as that comes to an end.
-/

namespace ServiceBroker.Yaml

/-- The prefix of the tags of the language itself. -/
def standardTag (name : String) : String :=
  "tag:yaml.org,2002:" ++ name

/-- A plain scalar that stands for nothing. -/
def isNullWord (s : String) : Bool :=
  s = "null" || s = "Null" || s = "NULL" || s = "~"

/-- The truth value of a plain scalar. -/
def flag? (s : String) : Option Bool :=
  if s = "true" || s = "True" || s = "TRUE" then some true
  else if s = "false" || s = "False" || s = "FALSE" then some false
  else none

/-- The value of the digits of a number to a base. -/
def digits? (base : Nat) (cs : List Char) : Option Nat :=
  if cs.isEmpty then none
  else cs.foldlM (fun n c => do
    let d ← hexDigit? c
    if d < base then return n * base + d else none) 0

/-- The value of digits, to the base that their beginning names. Behind a zero there may be no
further decimal digit. -/
def magnitude? (cs : List Char) : Option Nat :=
  let based := match cs with
    | '0' :: 'x' :: rest => digits? 16 rest
    | '0' :: 'o' :: rest => digits? 8 rest
    | '0' :: 'b' :: rest => digits? 2 rest
    | _ => none
  match based, cs with
  | some n, _ => some n
  | none, '0' :: _ :: _ => none
  | none, cs => digits? 10 cs

def integer? : List Char → Option Int
  | '+' :: rest => (magnitude? rest).map Int.ofNat
  | '-' :: rest => (magnitude? rest).map fun n => -(n : Int)
  | rest => (magnitude? rest).map Int.ofNat

/-- Digits with a sign and a zero in front, which are no number. -/
def isZeroPadded (cs : List Char) : Bool :=
  let ds := match cs with
    | '+' :: rest => rest
    | '-' :: rest => rest
    | rest => rest
  1 < ds.length && ds.head? == some '0' && ds.all Char.isDigit

/-- The double-precision number nearest to `digits · 10 ^ exponent`, if that is finite. -/
def nearestDouble? (digits : Nat) (exponent : Int) : Option Float :=
  let size : Int := (Nat.toDigits 10 digits).length + exponent
  if digits = 0 || size < -400 then some 0
  else if 400 < size then none
  else
    let x :=
      if 0 ≤ exponent then
        Float.ofScientific (digits * Decimal.powerOfTen exponent.toNat) false 0
      else Float.ofScientific digits true exponent.natAbs
    if x.isFinite then some x else none

/-- A decimal number with a point or an exponent. -/
def decimal? (cs : List Char) : Option Float := do
  let (negative, cs) := match cs with
    | '+' :: rest => (false, rest)
    | '-' :: rest => (true, rest)
    | rest => (false, rest)
  let whole := cs.takeWhile Char.isDigit
  let cs := cs.drop whole.length
  let (fraction, cs) := match cs with
    | '.' :: rest => (rest.takeWhile Char.isDigit, rest.dropWhile Char.isDigit)
    | rest => ([], rest)
  if whole.isEmpty && fraction.isEmpty then none
  let power ← match cs with
    | [] => some 0
    | mark :: rest =>
      if mark ≠ 'e' && mark ≠ 'E' then none
      else
        let (down, rest) := match rest with
          | '+' :: rest => (false, rest)
          | '-' :: rest => (true, rest)
          | rest => (false, rest)
        (digits? 10 rest).map fun n => if down then -(n : Int) else n
  let digits ← digits? 10 (whole ++ fraction)
  let x ← nearestDouble? digits (power - fraction.length)
  return if negative then -x else x

/-- The numbers that are read as integers: those of 128 bits, with or without a sign. -/
def isInteger (n : Int) : Bool :=
  -170141183460469231731687303715884105728 ≤ n && n < 340282366920938463463374607431768211456

/-- The free-form value of a plain scalar. -/
def plainValue? (s : String) : Option Json :=
  let cs := s.toList
  if s.isEmpty || isNullWord s then some .null
  else match flag? s with
    | some b => some (.bool b)
    | none =>
      let number (n : Int) : Option Json :=
        if Json.Number.keeps n then some (.number (.integer n)) else none
      match integer? cs with
      | some n =>
        if isInteger n then number n
        else (decimal? cs).map fun x => .number (.double x)
      | none =>
        if [".inf", ".Inf", ".INF", "+.inf", "+.Inf", "+.INF", "-.inf", "-.Inf", "-.INF", ".nan",
            ".NaN", ".NAN"].contains s then some .null
        else if isZeroPadded cs then some (.string s)
        else match decimal? cs with
          | some x => some (.number (.double x))
          | none => some (.string s)

/-- The readings of a scalar. A tag of the language forces the reading as a value; any other tag
leaves no reading as a value, and is itself the reading as a name. -/
def scalarOf (tag : Option String) (style : Style) (s : String) : Scalar :=
  let plain := style = .plain
  let own := tag.any fun t => 1 < t.length && t.startsWith "!"
  let value : Option Json :=
    if own then none
    else match tag with
      | none => if plain then plainValue? s else some (.string s)
      | some t =>
        if t = standardTag "bool" then (flag? s).map .bool
        else if t = standardTag "int" then
          match integer? s.toList with
          | some n => if Json.Number.keeps n then some (.number (.integer n)) else none
          | none => none
        else if t = standardTag "float" then
          (decimal? s.toList).map fun x => .number (.double x)
        else if t = standardTag "null" then if isNullWord s then some .null else none
        else if t = "!" && plain then plainValue? s
        else some (.string s)
  { text := some s
    name := if own then
        if plain && (s.isEmpty || isNullWord s) then tag.map fun t => (t.drop 1).toString else none
      else some s
    absent := plain && match tag with
      | none => s.isEmpty || isNullWord s
      | some t => t = standardTag "null" && isNullWord s
    empty := plain && s.isEmpty
    flag := if plain || (style = .literal && tag = some (standardTag "bool")) then flag? s else none
    count := if plain || (style = .literal && tag = some (standardTag "int")) then
        match s.toList with
        | '-' :: _ => none
        | cs => (integer? cs).bind fun n => if 0 ≤ n && n < UInt64.size then some n.toNat else none
      else none
    value }

/-- A node in which every reference has the number of its anchor. -/
inductive Linked where
  | reference (number : Nat)
  | scalar (reading : Scalar)
  | sequence (items : List Linked)
  | mapping (entries : List (Linked × Linked))

/-- Anchors with linked nodes, the latest first. -/
abbrev Targets := List (Nat × Linked)

/-- Gives an anchor its number: the count of the names known before, so a name that is anchored
again takes the number that the next new name takes too. -/
def anchorNumber (numbers : Fields Nat) (anchor : Option String) : Fields Nat × Option Nat :=
  match anchor with
  | some name => (numbers.put name numbers.length, some numbers.length)
  | none => (numbers, none)

/-- Enters a node with its number, of which `before` were the targets when it began. Of two nodes
with one number the one that begins later counts. -/
def Targets.enter (before after : Targets) (number : Option Nat) (node : Linked) : Targets :=
  match number with
  | none => after
  | some n =>
    if (after.take (after.length - before.length)).any (·.1 == n) then after
    else (n, node) :: after

mutual

/-- Numbers the anchors of a node in the order in which they are written, and gives every
reference the number of its anchor. -/
def link (numbers : Fields Nat) (targets : Targets) :
    Node → Except SyntaxError (Linked × Fields Nat × Targets)
  | .alias name =>
    match numbers.get? name with
    | some n => pure (.reference n, numbers, targets)
    | none => throw .unknownAnchor
  | .scalar properties style text => do
    let (numbers, number) := anchorNumber numbers properties.anchor
    let linked : Linked := .scalar (scalarOf properties.tag style text)
    return (linked, numbers, targets.enter targets number linked)
  | .sequence properties items => do
    let (numbers, number) := anchorNumber numbers properties.anchor
    let (items, numbers, inner) ← linkItems numbers targets items
    return (.sequence items, numbers, targets.enter inner number (.sequence items))
  | .mapping properties entries => do
    let (numbers, number) := anchorNumber numbers properties.anchor
    let (entries, numbers, inner) ← linkEntries numbers targets entries
    return (.mapping entries, numbers, targets.enter inner number (.mapping entries))

def linkItems (numbers : Fields Nat) (targets : Targets) :
    List Node → Except SyntaxError (List Linked × Fields Nat × Targets)
  | [] => pure ([], numbers, targets)
  | item :: items => do
    let (item, numbers, targets) ← link numbers targets item
    let (items, numbers, targets) ← linkItems numbers targets items
    return (item :: items, numbers, targets)

def linkEntries (numbers : Fields Nat) (targets : Targets) :
    List (Node × Node) → Except SyntaxError (List (Linked × Linked) × Fields Nat × Targets)
  | [] => pure ([], numbers, targets)
  | (key, value) :: entries => do
    let (key, numbers, targets) ← link numbers targets key
    let (value, numbers, targets) ← link numbers targets value
    let (entries, numbers, targets) ← linkEntries numbers targets entries
    return ((key, value) :: entries, numbers, targets)

end

/-- Follows references. At most `budget` of them are followed in all, and no deeper than a document
can be decoded; what lies beyond is unreadable. -/
def follow (targets : Targets) : Nat → Linked → StateM Nat Document
  | 0, _ => pure .unreadable
  | fuel + 1, .reference number => do
    let budget ← get
    match budget, targets.lookup number with
    | budget + 1, some target =>
      set budget
      follow targets fuel target
    | _, _ => return .unreadable
  | _ + 1, .scalar reading => pure (.scalar reading)
  | fuel + 1, .sequence items => do
    return .sequence (← items.mapM (follow targets fuel))
  | fuel + 1, .mapping entries => do
    return .mapping (← entries.mapM fun (key, value) => do
      let key ← follow targets fuel key
      let value ← follow targets fuel value
      match key with
      | .scalar reading => return (reading.text, value)
      | _ => return (none, value))

/-- Reads a text as a document; a text without a document is an empty mapping where one is
wanted. A hundred references may be followed for every token. -/
def readDocument (text : List Char) : Except SyntaxError Document := do
  let tokens ← tokens text
  match ← Node.ofTokens? tokens with
  | none => return .scalar { absent := true, empty := true, value := some .null }
  | some node =>
    let (linked, _, targets) ← link [] [] node
    return ((follow targets 400 linked).run (100 * tokens.length)).1

def decode {α : Type} (decoder : Decoder α) (text : String) : Except DecodeError α :=
  match readDocument text.toList with
  | .ok document => decoder .yaml document
  | .error _ => throw (.malformed "YAML")

end ServiceBroker.Yaml
