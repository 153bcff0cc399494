import FleetControl.Decimal.Shortest
import FleetControl.Json.Value
import FleetControl.Text.Hex

/-!
# Written forms of JSON values

Two forms without blanks, which differ only in what strings escape. `Json.canonical` is pure
ASCII: it is the form that signatures cover, so two peers agree on it byte for byte.
`Json.compact` escapes only what the grammar requires.
-/
namespace FleetControl.Json

open FleetControl

/-- A `\u` escape of one 16-bit unit. -/
def unitEscape (n : Nat) : List Char := '\\' :: 'u' :: Hex.ofUnit n

/-- The escapes of a character by its one or two 16-bit units. -/
def unitEscapes (c : Char) : List Char :=
  let n := c.toNat
  if n < 0x10000 then unitEscape n
  else unitEscape (0xd800 + (n - 0x10000) / 0x400) ++ unitEscape (0xdc00 + (n - 0x10000) % 0x400)

/-- The two-character escape of a character that has one. -/
def shortEscape? (c : Char) : Option (List Char) :=
  if c = '"' then some ['\\', '"']
  else if c = '\\' then some ['\\', '\\']
  else if c = '\n' then some ['\\', 'n']
  else if c = '\r' then some ['\\', 'r']
  else if c = '\t' then some ['\\', 't']
  else if c = '\x08' then some ['\\', 'b']
  else if c = '\x0c' then some ['\\', 'f']
  else none

/-- How the canonical form writes a character of a string. -/
def canonicalEscape (c : Char) : List Char :=
  match shortEscape? c with
  | some cs => cs
  | none => if c.toNat < 0x20 ∨ c.toNat > 0x7f then unitEscapes c else [c]

/-- How the compact form writes a character of a string. -/
def compactEscape (c : Char) : List Char :=
  match shortEscape? c with
  | some cs => cs
  | none => if c.toNat < 0x20 then unitEscapes c else [c]

/-- Appends characters to a text. -/
def pushAll (out : String) (cs : List Char) : String := cs.foldl String.push out

/-- Appends a quoted string. -/
def writeString (escape : Char → List Char) (out : String) (s : String) : String :=
  (s.toList.foldl (fun out c => pushAll out (escape c)) (out.push '"')).push '"'

/-- The text of a number. -/
def numberText : Number → String
  | .int i => toString i
  | .double d => Shortest.text d

mutual

/-- Appends the written form of a value. -/
def write (escape : Char → List Char) (out : String) : Json → String
  | null => out ++ "null"
  | bool true => out ++ "true"
  | bool false => out ++ "false"
  | number n => out ++ numberText n
  | string s => writeString escape out s
  | array [] => out ++ "[]"
  | array (item :: items) => (writeItems escape (write escape (out.push '[') item) items).push ']'
  | object [] => (out.push '\x7b').push '\x7d'
  | object ((key, value) :: members) =>
    (writeMembers escape
      (write escape ((writeString escape (out.push '\x7b') key).push ':') value) members).push
      '\x7d'

/-- Appends the further items of an array, each behind a comma. -/
def writeItems (escape : Char → List Char) (out : String) : List Json → String
  | [] => out
  | item :: items => writeItems escape (write escape (out.push ',') item) items

/-- Appends the further members of an object, each behind a comma. -/
def writeMembers (escape : Char → List Char) (out : String) : List (String × Json) → String
  | [] => out
  | (key, value) :: members =>
    writeMembers escape
      (write escape ((writeString escape (out.push ',') key).push ':') value) members

end

/-- The form that signatures cover: keys in order, no blanks, ASCII only. -/
def canonical (value : Json) : String := write canonicalEscape "" value

/-- The form that travels: keys in order, no blanks, text as it is. -/
def compact (value : Json) : String := write compactEscape "" value

/-- A quoted string in compact form. -/
def quoted (s : String) : String := writeString compactEscape "" s

theorem canonical_null : canonical null = "null" := rfl

end FleetControl.Json
