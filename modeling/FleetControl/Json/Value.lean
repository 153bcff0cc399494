import FleetControl.Decimal.Double

/-!
# JSON values

A value keeps integers that fit 64 bits exact and holds every other number as a double. An object
lists its members in increasing order of their keys; `Json.object` builds one, the last of several
members with one key winning.
-/
namespace FleetControl

/-- A number: an exact integer or a double. -/
inductive Number where
  | int (i : Int)
  | double (d : Double)
  deriving DecidableEq

/-- A JSON value. -/
inductive Json where
  | null
  | bool (b : Bool)
  | number (n : Number)
  | string (s : String)
  | array (items : List Json)
  | object (members : List (String × Json))

namespace Json

instance : Inhabited Json := ⟨null⟩

/-- Stores a member at its place in key order, replacing an earlier one of the same key. -/
def insertMember (key : String) (value : Json) : List (String × Json) → List (String × Json)
  | [] => [(key, value)]
  | (k, v) :: rest =>
    if key = k then (key, value) :: rest
    else if key < k then (key, value) :: (k, v) :: rest
    else (k, v) :: insertMember key value rest

/-- An object with these members. -/
def ofMembers (members : List (String × Json)) : Json :=
  .object (members.foldl (fun ms m => insertMember m.1 m.2 ms) [])

/-- An integer. -/
def int (i : Int) : Json := .number (.int i)

/-- The member of an object under a key. -/
def get? (value : Json) (key : String) : Option Json :=
  match value with
  | object members => (members.find? fun m => m.1 == key).map (·.2)
  | _ => none

/-- The text of a string. -/
def asString? : Json → Option String
  | string s => some s
  | _ => none

/-- The truth value of a boolean. -/
def asBool? : Json → Option Bool
  | bool b => some b
  | _ => none

/-- An integer in the signed 64-bit range. -/
def asInt64? : Json → Option Int
  | number (.int i) => if -(2 ^ 63) ≤ i ∧ i < 2 ^ 63 then some i else none
  | _ => none

/-- Whether the value is an object. -/
def isObject : Json → Bool
  | object _ => true
  | _ => false

/-- Whether the value is null. -/
def isNull : Json → Bool
  | null => true
  | _ => false

theorem get?_object_nil (key : String) : get? (object []) key = none := rfl

end Json

end FleetControl
