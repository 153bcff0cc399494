import FleetControl.Toml.Scalar

/-!
# TOML documents

A document is a sequence of lines: assignments to dotted keys, headers of tables, and headers of
rows of arrays of tables. Nothing may be defined twice.
-/
namespace FleetControl.Toml

/-- Values, arrays and dotted keys nest less deeply than this. -/
def nestingLimit : Nat := 80

/-- A character of a bare key. -/
def isBare (c : Char) : Bool := c.isAlphanum || c = '_' || c = '-'

/-- Reads one part of a key. -/
def keyPart? (cs : List Char) : Option (String × Rest) :=
  match cs with
  | '"' :: rest => basic "" (rest.length + 1) rest
  | '\'' :: rest => literal "" rest
  | _ =>
    match cs.takeWhile isBare with
    | [] => none
    | part => some (String.ofList part, cs.dropWhile isBare)

/-- Reads a dotted key with the blanks around its parts. -/
def key? (done : List String) : Nat → List Char → Option (List String × Rest)
  | 0, _ => none
  | fuel + 1, cs =>
    match keyPart? (skipBlanks cs) with
    | none => none
    | some (part, rest) =>
      match skipBlanks rest with
      | '.' :: rest => key? (part :: done) fuel rest
      | rest => if done.length + 1 < nestingLimit then some ((part :: done).reverse, rest) else none

/-- Reads a dotted key, split at its last part. -/
def path? (cs : List Char) : Option (List String × String × Rest) :=
  match key? [] (cs.length + 1) cs with
  | some (parts, rest) => parts.getLast?.map fun last => (parts.dropLast, last, rest)
  | none => none

/-- Skips blanks, line ends and comments between the items of an array. -/
def skipTrivia? : Nat → List Char → Option Rest
  | 0, _ => none
  | fuel + 1, cs =>
    match skipBlanks cs with
    | '#' :: rest =>
      match skipComment rest with
      | [] => some []
      | r => (lineEnd? r).bind (skipTrivia? fuel)
    | '\n' :: rest => skipTrivia? fuel rest
    | '\r' :: '\n' :: rest => skipTrivia? fuel rest
    | rest => some rest

mutual

/-- Reads a value. `depth` counts the arrays and inline tables around it. -/
def value? : Nat → Nat → List Char → Option (Toml × Rest)
  | 0, _, _ => none
  | fuel + 1, depth, cs =>
    match cs with
    | '"' :: _ => (string? cs).map fun (s, r) => (.string s, r)
    | '\'' :: _ => (string? cs).map fun (s, r) => (.string s, r)
    | '[' :: rest => if depth + 1 < nestingLimit then items? fuel (depth + 1) [] rest else none
    | '\x7b' :: rest =>
      if depth + 1 < nestingLimit then
        match skipBlanks rest with
        | '\x7d' :: r => some (.table [], r)
        | r => pairs? fuel (depth + 1) (.table false false []) r
      else none
    | 't' :: rest => (word? "rue".toList rest).map (.boolean true, ·)
    | 'f' :: rest => (word? "alse".toList rest).map (.boolean false, ·)
    | _ => numeric? cs

/-- Reads the rest of an array; a comma may stand behind the last item. -/
def items? : Nat → Nat → List Toml → List Char → Option (Toml × Rest)
  | 0, _, _, _ => none
  | fuel + 1, depth, done, cs =>
    match skipTrivia? (cs.length + 1) cs with
    | none => none
    | some (']' :: rest) => some (.array done.reverse, rest)
    | some cs =>
      match value? fuel depth cs with
      | none => none
      | some (item, rest) =>
        match skipTrivia? (rest.length + 1) rest with
        | some (',' :: rest) => items? fuel depth (item :: done) rest
        | some (']' :: rest) => some (.array (item :: done).reverse, rest)
        | _ => none

/-- Reads the rest of an inline table, which stays on its line. -/
def pairs? : Nat → Nat → Node → List Char → Option (Toml × Rest)
  | 0, _, _, _ => none
  | fuel + 1, depth, node, cs =>
    match path? cs with
    | none => none
    | some (path, key, rest) =>
      match rest with
      | '=' :: rest =>
        match value? fuel depth (skipBlanks rest) with
        | none => none
        | some (item, rest) =>
          match node.assign path key (.leaf item) with
          | none => none
          | some node =>
            match skipBlanks rest with
            | ',' :: rest => pairs? fuel depth node rest
            | '\x7d' :: rest => some (node.toValue, rest)
            | _ => none
      | _ => none

end

/-- A document that is being read: the finished part, and the table of the last header. -/
structure Draft where
  root : Node := .table false false []
  current : Node := .table false false []
  path : List String := []
  isRow : Bool := false

namespace Draft

/-- Puts the table of the last header into its place. -/
def finish? (d : Draft) : Option Node :=
  match d.path.getLast? with
  | none => some d.current
  | some key =>
    Node.descend false (fun t =>
      match t with
      | .table i m entries =>
        if d.isRow then
          match (Node.find? entries key).getD (.rows []) with
          | .rows tables =>
            some (.table i m (Node.store entries key (.rows (tables ++ [d.current]))))
          | _ => none
        else
          match Node.find? entries key with
          | none => some (.table i m (entries ++ [(key, d.current)]))
          | some (.table true _ _) => some (.table i m (Node.store entries key d.current))
          | some _ => none
      | _ => none) d.path.dropLast d.root

/-- Runs a change of the entries at a path, and hands out what it finds there. -/
def entriesAt? (root : Node) (path : List String) : Option (List (String × Node)) :=
  match path, root with
  | [], .table _ _ entries => some entries
  | key :: path, .table _ _ entries =>
    match (Node.find? entries key).getD (.table true false []) with
    | .rows tables => tables.getLast?.bind (entriesAt? · path)
    | .table i m es => entriesAt? (.table i m es) path
    | .leaf _ => none
  | _, _ => none

/-- Starts the table of a header. A table that only was the parent of another header is continued;
any other entry of that name is in the way. -/
def startTable? (d : Draft) (path : List String) (key : String) : Option Draft := do
  let root ← d.finish?
  let entries ← entriesAt? root path
  let whole := path ++ [key]
  match Node.find? entries key with
  | none => pure { root := root, current := .table false false [], path := whole, isRow := false }
  | some (.table true false es) =>
    let root ← Node.descend false (fun t =>
      match t with
      | .table i m entries => some (.table i m (entries.filter fun e => e.1 ≠ key))
      | _ => none) path root
    pure { root := root, current := .table false false es, path := whole, isRow := false }
  | some _ => none

/-- Starts a row of an array of tables. -/
def startRow? (d : Draft) (path : List String) (key : String) : Option Draft := do
  let root ← d.finish?
  let entries ← entriesAt? root path
  match (Node.find? entries key).getD (.rows []) with
  | .rows _ =>
    pure { root := root, current := .table false false [], path := path ++ [key], isRow := true }
  | _ => none

/-- Reads one line that is not empty. -/
def line? (d : Draft) (cs : List Char) : Option (Draft × Rest) :=
  match cs with
  | '[' :: '[' :: rest => do
    let (path, key, rest) ← path? rest
    let rest ← word? [']', ']'] rest
    let rest ← lineRest? rest
    let d ← d.startRow? path key
    pure (d, rest)
  | '[' :: rest => do
    let (path, key, rest) ← path? rest
    let rest ← word? [']'] rest
    let rest ← lineRest? rest
    let d ← d.startTable? path key
    pure (d, rest)
  | cs => do
    let (path, key, rest) ← path? cs
    let rest ← word? ['='] rest
    let (item, rest) ← value? (rest.length + 1) 0 (skipBlanks rest)
    let rest ← lineRest? rest
    let current ← d.current.assign path key (.leaf item)
    pure ({ d with current := current }, rest)

/-- Reads the lines of a document. -/
def lines? (d : Draft) : Nat → List Char → Option Draft
  | 0, _ => none
  | fuel + 1, cs =>
    match skipBlanks cs with
    | [] => some d
    | '#' :: rest =>
      match lineRest? ('#' :: rest) with
      | none => none
      | some rest => lines? d fuel rest
    | '\n' :: rest => lines? d fuel rest
    | '\r' :: '\n' :: rest => lines? d fuel rest
    | cs =>
      match d.line? cs with
      | none => none
      | some (d, rest) => lines? d fuel rest

end Draft

/-- Reads a document; a byte order mark at its start is skipped. -/
def parse? (text : String) : Option Toml :=
  let cs := match text.toList with
    | '\ufeff' :: rest => rest
    | cs => cs
  do
    let draft ← Draft.lines? {} (cs.length + 1) cs
    let root ← draft.finish?
    pure root.toValue

/-- The parts of a record, one per name: of a table by key, of an array by position. -/
def parts? (names : List String) : Toml → Option (List (Option Toml))
  | table entries => some (names.map fun n => (entries.find? fun e => e.1 == n).map (·.2))
  | datetime _ => some (names.map fun _ => none)
  | array items => some ((List.range names.length).map fun i => items[i]?)
  | _ => none

/-- A text. -/
def asString? : Toml → Option String
  | string s => some s
  | _ => none

/-- A truth value. -/
def asBool? : Toml → Option Bool
  | boolean b => some b
  | _ => none

/-- A natural number of the given width in bits. -/
def asNat? (width : Nat) : Toml → Option Nat
  | integer i => if 0 ≤ i ∧ i < 2 ^ width then some i.toNat else none
  | _ => none

/-- A case without fields: its name, or a table that maps its name to something empty. -/
def asCase? : Toml → Option String
  | string s => some s
  | table [(name, .table [])] => some name
  | table [(name, .array [])] => some name
  | _ => none

/-- A part that must be there. -/
def required {α : Type} (read : Toml → Option α) : Option Toml → Option α
  | none => none
  | some v => read v

/-- A part with a default. -/
def withDefault {α : Type} (fallback : α) (read : Toml → Option α) : Option Toml → Option α
  | none => some fallback
  | some v => read v

/-- A part that may be missing. -/
def optional {α : Type} (read : Toml → Option α) : Option Toml → Option (Option α)
  | none => some none
  | some v => (read v).map some

end FleetControl.Toml
