import FleetControl.Decimal.Double

/-!
# TOML values

The value type of configuration documents, and the tables that a document builds up line by line.
A table remembers how it came about: by a header of its own, as the parent of another header, or
by a dotted key. That decides what may still be added to it.
-/
namespace FleetControl

/-- A configuration value. -/
inductive Toml where
  | string (s : String)
  | integer (i : Int)
  | float (d : Double)
  | boolean (b : Bool)
  /-- A date or time, as it is written. -/
  | datetime (text : String)
  | array (items : List Toml)
  | table (entries : List (String × Toml))

namespace Toml

instance : Inhabited Toml := ⟨boolean false⟩

/-- A node of a document under construction. -/
inductive Node where
  /-- A finished value; inline tables are finished too. -/
  | leaf (value : Toml)
  /-- A table. `implicit`: no header named it so far. `dotted`: a dotted key made it. -/
  | table (implicit dotted : Bool) (entries : List (String × Node))
  /-- The rows of an array of tables. -/
  | rows (tables : List Node)

namespace Node

instance : Inhabited Node := ⟨.leaf default⟩

/-- The entry under a key. -/
def find? (entries : List (String × Node)) (key : String) : Option Node :=
  (entries.find? fun e => e.1 == key).map (·.2)

/-- Stores an entry, in place if the key is there. -/
def store (entries : List (String × Node)) (key : String) (node : Node) : List (String × Node) :=
  if (find? entries key).isSome then entries.map fun e => if e.1 = key then (key, node) else e
  else entries ++ [(key, node)]

/-- Changes the table at the end of a path, making missing tables on the way. A path leads through
the last row of an array of tables; a dotted key may not reach into a table that has a header. -/
def descend (dotted : Bool) (f : Node → Option Node) : List String → Node → Option Node
  | [], node => f node
  | key :: path, .table implicit made entries =>
    match (find? entries key).getD (.table true dotted []) with
    | .leaf _ => none
    | .rows tables =>
      match tables.getLast? with
      | none => none
      | some last =>
        (descend dotted f path last).map fun last =>
          .table implicit made (store entries key (.rows (tables.dropLast ++ [last])))
    | .table i d es =>
      if dotted && !i then none
      else
        (descend dotted f path (.table i d es)).map fun child =>
          .table implicit made (store entries key child)
  | _ :: _, _ => none

/-- Stores a value under a dotted key. The table that holds it must have come about by a dotted
key exactly if the key has more than one part, and must not have the last part yet. -/
def assign (node : Node) (path : List String) (key : String) (value : Node) : Option Node :=
  descend (!path.isEmpty) (fun t =>
    match t with
    | .table implicit dotted entries =>
      if dotted == path.isEmpty || (find? entries key).isSome then none
      else some (.table implicit dotted (entries ++ [(key, value)]))
    | _ => none) path node

mutual

/-- The value of a finished node. -/
def toValue : Node → Toml
  | leaf value => value
  | table _ _ entries => .table (toEntries entries)
  | rows tables => .array (toValues tables)

/-- The values of entries. -/
def toEntries : List (String × Node) → List (String × Toml)
  | [] => []
  | (key, node) :: rest => (key, toValue node) :: toEntries rest

/-- The values of rows. -/
def toValues : List Node → List Toml
  | [] => []
  | node :: rest => toValue node :: toValues rest

end

end Node

end Toml

end FleetControl
