import ServiceBroker.Fields

/-!
JSON values. Objects keep the order of their members and have each key once; a number is an
integer or a double-precision number, and the two are told apart.
-/

namespace ServiceBroker

/-- A JSON number. Integers are those of 64 bits, with or without a sign. -/
inductive Json.Number where
  | integer (n : Int)
  | double (x : Float)

/-- The integers that stay integers. -/
def Json.Number.keeps (n : Int) : Bool :=
  -9223372036854775808 ≤ n && n < 18446744073709551616

/-- A JSON value. -/
inductive Json where
  | null
  | bool (b : Bool)
  | number (n : Json.Number)
  | string (s : String)
  | array (items : List Json)
  | object (members : List (String × Json))

instance : Inhabited Json := ⟨.null⟩

/-- Named JSON values: the variables of a request, the configuration of an instance. -/
abbrev Params := Fields Json

namespace Json

/-- An object from its members. -/
def ofParams (params : Params) : Json :=
  .object params

/-- A member of an object; anything else has no members. -/
def member? : Json → String → Option Json
  | .object members, name => members.lookup name
  | _, _ => none

mutual

/-- The number of arrays and objects that stand open at the innermost place of a value. -/
def depth : Json → Nat
  | .array items => itemsDepth items + 1
  | .object members => membersDepth members + 1
  | _ => 0

def itemsDepth : List Json → Nat
  | [] => 0
  | item :: items => max (depth item) (itemsDepth items)

/-- The greatest depth of some members' values. -/
def membersDepth : List (String × Json) → Nat
  | [] => 0
  | (_, value) :: members => max (depth value) (membersDepth members)

end

end Json

end ServiceBroker
