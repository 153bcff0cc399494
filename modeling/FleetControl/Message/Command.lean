import FleetControl.Json.Decode
import FleetControl.Json.Writer

/-!
# Commands

Everything that the controller can ask of a device. A command is written as its name and its
arguments; an argument that is not given is left out.
-/
namespace FleetControl

/-- Arguments of a file write; the content follows in binary frames. -/
structure FileWrite where
  path : String
  /-- The length of the content as it is sent. -/
  size : Nat
  /-- Where this chunk stands in the file. -/
  offset : Option Nat := none
  /-- The length of the whole file. -/
  total : Option Nat := none
  deriving DecidableEq, Repr

/-- An HTTP request that the device performs against its own server. -/
structure HttpRequest where
  method : String
  path : String
  headers : Option (List (String × Json)) := none
  body : Option String := none

/-- A command for a device. -/
inductive Command where
  | shell (cmd : String)
  | fileRead (path : String)
  | fileWrite (write : FileWrite)
  | fileDelete (path : String)
  | fileMkdir (path : String)
  | fileRename (src dst : String)
  | assetsList (path : String)
  | http (request : HttpRequest)

namespace Command

/-- The wire name. -/
def name : Command → String
  | shell _ => "shell"
  | fileRead _ => "file_read"
  | fileWrite _ => "file_write"
  | fileDelete _ => "file_delete"
  | fileMkdir _ => "file_mkdir"
  | fileRename _ _ => "file_rename"
  | assetsList _ => "assets_list"
  | http _ => "http"

/-- Whether binary frames may come with the reply. -/
def expectsBinary : Command → Bool
  | fileRead _ => true
  | http _ => true
  | _ => false

/-- A member that is left out when its value is missing. -/
def given {α : Type} (key : String) (value : Option α) (write : α → Json) :
    List (String × Json) :=
  match value with
  | none => []
  | some v => [(key, write v)]

/-- The arguments in the order in which they are written. -/
def args : Command → List (String × Json)
  | shell cmd => [("cmd", .string cmd)]
  | fileRead path => [("path", .string path)]
  | fileWrite w =>
    [("path", .string w.path), ("size", .int w.size)] ++
      given "offset" w.offset (fun n => .int n) ++ given "total" w.total (fun n => .int n)
  | fileDelete path => [("path", .string path)]
  | fileMkdir path => [("path", .string path)]
  | fileRename src dst => [("src", .string src), ("dst", .string dst)]
  | assetsList path => [("path", .string path)]
  | http r =>
    [("method", .string r.method), ("path", .string r.path)] ++
      given "headers" r.headers Json.object ++ given "body" r.body Json.string

/-- The wire text: name first, arguments in their own order. -/
def text (c : Command) : String :=
  "\x7b\"name\":" ++ Json.quoted c.name ++ ",\"args\":" ++
    Json.compact (.object c.args) ++ "\x7d"

/-- The command as a value. -/
def toJson (c : Command) : Json :=
  Json.ofMembers [("name", .string c.name), ("args", Json.ofMembers c.args)]

/-- The payload of the envelope that carries the command under an identifier. -/
def payload (c : Command) (id : Uuid) : Json :=
  Json.ofMembers [("type", .string "cmd"), ("name", .string c.name),
    ("args", Json.ofMembers c.args), ("id", .string id.text)]

/-- A command with a single text argument. -/
def oneText? (field : String) (make : String → Command) (args : Tree) : Option Command := do
  match ← args.parts? [field] with
  | [text] => (Tree.required Tree.asString? text).map make
  | _ => none

/-- Reads the arguments of a file write. -/
def fileWrite? (args : Tree) : Option Command := do
  match ← args.parts? ["path", "size", "offset", "total"] with
  | [path, size, offset, total] =>
    let path ← Tree.required Tree.asString? path
    let size ← Tree.required (Tree.asNat? 64) size
    let offset ← Tree.optional (Tree.asNat? 64) offset
    let total ← Tree.optional (Tree.asNat? 64) total
    pure (.fileWrite ⟨path, size, offset, total⟩)
  | _ => none

/-- Reads the arguments of a rename. -/
def fileRename? (args : Tree) : Option Command := do
  match ← args.parts? ["src", "dst"] with
  | [src, dst] =>
    let src ← Tree.required Tree.asString? src
    let dst ← Tree.required Tree.asString? dst
    pure (.fileRename src dst)
  | _ => none

/-- Reads the arguments of a request. -/
def http? (depth : Nat) (args : Tree) : Option Command := do
  match ← args.parts? ["method", "path", "headers", "body"] with
  | [method, path, headers, body] =>
    let method ← Tree.required Tree.asString? method
    let path ← Tree.required Tree.asString? path
    let headers ← Tree.optional (Tree.asMembers? depth) headers
    let body ← Tree.optional Tree.asString? body
    pure (.http ⟨method, path, headers, body⟩)
  | _ => none

/-- Reads the arguments that belong to a name. -/
def ofParts? (depth : Nat) (name : String) (args : Tree) : Option Command := do
  let inner ← Tree.inside depth
  if name = "shell" then oneText? "cmd" shell args
  else if name = "file_read" then oneText? "path" fileRead args
  else if name = "file_write" then fileWrite? args
  else if name = "file_delete" then oneText? "path" fileDelete args
  else if name = "file_mkdir" then oneText? "path" fileMkdir args
  else if name = "file_rename" then fileRename? args
  else if name = "assets_list" then oneText? "path" assetsList args
  else if name = "http" then http? inner args
  else none

/-- Whether a name comes before another one among the members. -/
def comesFirst (first second : String) : List (String × Tree) → Bool
  | [] => false
  | (key, _) :: rest =>
    if key = first then true else if key = second then false else comesFirst first second rest

/-- Reads a command from a document. Arguments that come before the name are read as a value
first, so even parts of them that are skipped must denote values. -/
def ofTree? (depth : Nat) (tree : Tree) : Option Command := do
  let inner ← Tree.inside depth
  match ← tree.parts? ["name", "args"] with
  | [name, args] =>
    let name ← Tree.required Tree.asCase? name
    let args ← args
    let early := match tree with
      | .object members => (Tree.keyed? members).elim false (comesFirst "args" "name")
      | _ => false
    if early && (Tree.value? inner args).isNone then none else ofParts? inner name args
  | _ => none

/-- Reads a command from its wire text. -/
def parse? (raw : String) : Option Command :=
  (Tree.parse? raw).bind (ofTree? Tree.nestingLimit)

end Command

end FleetControl
