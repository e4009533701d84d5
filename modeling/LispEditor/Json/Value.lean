import LispEditor.Number.Binary64

/-!
# JSON values

Whole numbers of any size are apart from floating-point numbers, and the members of an object keep
the order in which their keys were first written.
-/

namespace LispEditor

/-- A JSON value. -/
inductive JsonValue where
  | null
  | bool (value : Bool)
  | integer (value : Int)
  | float (value : Binary64)
  | string (value : String)
  | array (items : List JsonValue)
  | object (members : List (String × JsonValue))
  deriving Inhabited

/-- The members of an object, with different keys. -/
abbrev JsonMembers := List (String × JsonValue)

namespace JsonMembers

/-- The value under a key. -/
def get? (members : JsonMembers) (key : String) : Option JsonValue :=
  (members.find? fun member => member.1 == key).map Prod.snd

/-- Puts a value under a key: in its old place, or last if the key is new. -/
def put (key : String) (value : JsonValue) : JsonMembers → JsonMembers
  | [] => [(key, value)]
  | member :: rest =>
      if member.1 == key then (key, value) :: rest else member :: put key value rest

/-- Members without the one under a key. -/
def erase (members : JsonMembers) (key : String) : JsonMembers :=
  members.filter fun member => member.1 != key

/-- Members with those of `newer` put in one after the other. -/
def update (members newer : JsonMembers) : JsonMembers :=
  newer.foldl (fun members member => put member.1 member.2 members) members

end JsonMembers

namespace JsonValue

/-- Whether a value counts as true: all do but null, false, zeros and what is empty. -/
def isTruthy : JsonValue → Bool
  | null => false
  | bool value => value
  | integer value => value != 0
  | float value => !value.isZero
  | string value => value != ""
  | array items => !items.isEmpty
  | object members => !members.isEmpty

mutual

/-- How many values lie inside each other, the outermost one included. -/
def height : JsonValue → Nat
  | array items => itemsHeight items + 1
  | object members => membersHeight members + 1
  | _ => 1

/-- The greatest height of some items. -/
def itemsHeight : List JsonValue → Nat
  | [] => 0
  | item :: items => max (height item) (itemsHeight items)

/-- The greatest height of the values of some members. -/
def membersHeight : List (String × JsonValue) → Nat
  | [] => 0
  | (_, value) :: members => max (height value) (membersHeight members)

end

end JsonValue

end LispEditor
