import FleetControl.Json.Tree
import FleetControl.Uuid

/-!
# Records in documents

A record is written as an object, members in any order, or as an array of its fields in order. A
member that the record does not know is skipped; one that it knows may not be repeated. Trailing
fields of the array form may be left out where the field has a default.
-/
namespace FleetControl.Tree

open FleetControl

/-- The allowance left inside one more level of nesting. -/
def inside : Nat → Option Nat
  | 0 => none
  | depth + 1 => some depth

/-- The members of an object, if every key denotes a text. -/
def keyed? (members : List (Option String × Tree)) : Option (List (String × Tree)) :=
  members.mapM fun m => m.1.map (·, m.2)

/-- The parts of a record, one per name, missing ones as `none`. -/
def parts? (names : List String) : Tree → Option (List (Option Tree))
  | object members => do
    let members ← keyed? members
    names.mapM fun name =>
      match members.filter fun m => m.1 == name with
      | [] => some none
      | [m] => some (some m.2)
      | _ => none
  | array items =>
    if items.length ≤ names.length then
      some ((List.range names.length).map fun i => items[i]?)
    else none
  | _ => none

/-- A part that must be there. -/
def required {α : Type} (read : Tree → Option α) : Option Tree → Option α
  | none => none
  | some tree => read tree

/-- A part with a default. -/
def withDefault {α : Type} (fallback : α) (read : Tree → Option α) : Option Tree → Option α
  | none => some fallback
  | some tree => read tree

/-- A part that may be missing or null. -/
def optional {α : Type} (read : Tree → Option α) : Option Tree → Option (Option α)
  | none => some none
  | some null => some none
  | some tree => (read tree).map some

/-- A text. -/
def asString? : Tree → Option String
  | string s => s
  | _ => none

/-- A truth value. -/
def asBool? : Tree → Option Bool
  | bool b => some b
  | _ => none

/-- An exact integer between two bounds. -/
def asInt? (low high : Int) : Tree → Option Int
  | number (some (.int i)) => if low ≤ i ∧ i ≤ high then some i else none
  | _ => none

/-- A signed 64-bit integer. -/
def asInt64? : Tree → Option Int := asInt? (-(2 ^ 63)) (2 ^ 63 - 1)

/-- A natural number of the given width in bits. -/
def asNat? (width : Nat) (tree : Tree) : Option Nat :=
  (asInt? 0 (2 ^ width - 1) tree).map Int.toNat

/-- Any number, as a double. -/
def asDouble? : Tree → Option Double
  | number (some (.double d)) => some d
  | number (some (.int i)) =>
    let d := Double.ofNat i.natAbs
    some (if i < 0 then d.negate else d)
  | _ => none

/-- An identifier in any spelling. -/
def asUuid? (tree : Tree) : Option Uuid := (asString? tree).bind Uuid.parse?

/-- A case without fields: its name, or an object that maps its name to null. -/
def asCase? : Tree → Option String
  | string s => s
  | object [(some name, null)] => some name
  | _ => none

/-- An object of values. -/
def asMembers? (depth : Nat) (tree : Tree) : Option (List (String × Json)) :=
  match value? depth tree with
  | some (.object members) => some members
  | _ => none

end FleetControl.Tree
