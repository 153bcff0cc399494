import FleetControl.Decimal.Double
import FleetControl.Json.Value
import FleetControl.Text.Hex

/-!
# JSON documents

A document is read in two stages. `Tree.parse?` checks the grammar alone: it keeps every member in
its place, duplicates included, sets no bound on nesting, and marks a leaf that denotes nothing (a
number out of range, a string with an unpaired surrogate). `Tree.value?` then demands that every
leaf denotes a value and that nesting stays within a bound. A decoder of a record uses the second
stage only on the members that it reads, so members that it skips need be grammatical only.
-/
namespace FleetControl

/-- A document whose leaves may fail to denote a value. -/
inductive Tree where
  | null
  | bool (b : Bool)
  | number (n : Option Number)
  | string (s : Option String)
  | array (items : List Tree)
  | object (members : List (Option String × Tree))

namespace Tree

instance : Inhabited Tree := ⟨null⟩

/-- The characters that are not read yet. -/
abbrev Rest := List Char

/-- The four characters that may stand between tokens. -/
def isBlank (c : Char) : Bool := c == ' ' || c == '\t' || c == '\n' || c == '\r'

/-- Skips blanks. -/
def skip : List Char → Rest
  | [] => []
  | c :: cs => if isBlank c then skip cs else c :: cs

/-- The value of four hexadecimal digits of either case. -/
def unit? (a b c d : Char) : Option Nat :=
  match Hex.value? a, Hex.value? b, Hex.value? c, Hex.value? d with
  | some w, some x, some y, some z => some (((w * 16 + x) * 16 + y) * 16 + z)
  | _, _, _, _ => none

/-- What a simple escape stands for. -/
def escaped? (c : Char) : Option Char :=
  if c = '"' then some '"'
  else if c = '\\' then some '\\'
  else if c = '/' then some '/'
  else if c = 'b' then some '\x08'
  else if c = 'f' then some '\x0c'
  else if c = 'n' then some '\n'
  else if c = 'r' then some '\r'
  else if c = 't' then some '\t'
  else none

/-- The first half of a surrogate pair. -/
def isHigh (n : Nat) : Bool := 0xd800 ≤ n && n < 0xdc00

/-- The second half of a surrogate pair. -/
def isLow (n : Nat) : Bool := 0xdc00 ≤ n && n < 0xe000

/-- The character of a surrogate pair. -/
def pair (high low : Nat) : Char :=
  Char.ofNat (0x10000 + (high - 0xd800) * 0x400 + (low - 0xdc00))

/-- Reads a string up to its closing quote. `denotes` turns false at an unpaired surrogate. -/
def readString (text : String) (denotes : Bool) : List Char → Option (Option String × Rest)
  | [] => none
  | '"' :: rest => some (if denotes then some text else none, rest)
  | '\\' :: 'u' :: a :: b :: c :: d :: rest =>
    match unit? a b c d with
    | none => none
    | some n =>
      if isHigh n then
        match rest with
        | '\\' :: 'u' :: e :: f :: g :: h :: rest =>
          match unit? e f g h with
          | none => none
          | some m =>
            if isLow m then readString (text.push (pair n m)) denotes rest
            else readString text false rest
        | rest => readString text false rest
      else if isLow n then readString text false rest
      else readString (text.push (Char.ofNat n)) denotes rest
  | '\\' :: c :: rest =>
    match escaped? c with
    | none => none
    | some x => readString (text.push x) denotes rest
  | c :: rest => if c.toNat < 0x20 then none else readString (text.push c) denotes rest
termination_by structural cs => cs

/-- The digits at the front. -/
def digitsOf : List Char → List Nat × Rest
  | [] => ([], [])
  | c :: cs =>
    if c.isDigit then
      let (ds, rest) := digitsOf cs
      ((c.toNat - '0'.toNat) :: ds, rest)
    else ([], c :: cs)

/-- The significand that fits 64 bits, and the digits from the first one that would not fit. -/
def accumulate (significand : Nat) : List Nat → Nat × List Nat
  | [] => (significand, [])
  | d :: ds =>
    if significand * 10 + d < 2 ^ 64 then accumulate (significand * 10 + d) ds
    else (significand, d :: ds)

/-- A written exponent: its sign and digits. -/
structure Exponent where
  negative : Bool
  digits : List Nat

/-- The literal of a number, split at its point and exponent mark. -/
structure Literal where
  negative : Bool
  whole : List Nat
  fraction : Option (List Nat)
  exponent : Option Exponent

/-- A written exponent above this bound is only compared with it. -/
def exponentBound : Nat := 2 ^ 31 - 1

/-- The exponent's magnitude while it stays within the bound. -/
def Exponent.magnitude? (e : Exponent) : Option Nat :=
  e.digits.foldl (fun acc d => acc.bind fun n =>
    if n * 10 + d ≤ exponentBound then some (n * 10 + d) else none) (some 0)

/-- Clamps to the signed 32-bit range. -/
def clamp (i : Int) : Int :=
  if i > 2 ^ 31 - 1 then 2 ^ 31 - 1 else if i < -(2 ^ 31) then -(2 ^ 31) else i

/-- The number that a literal denotes. Digits beyond a 64-bit significand count only by their
places; an integer that fits stays exact; a double too large is refused. -/
def Literal.number? (l : Literal) : Option Number :=
  let signed (d : Double) : Number := .double (if l.negative then d.negate else d)
  let (whole, dropped) := accumulate 0 l.whole
  match l.fraction, l.exponent, dropped with
  | none, none, [] =>
    if l.negative then
      if whole ≠ 0 ∧ whole ≤ 2 ^ 63 then some (.int (-(whole : Int)))
      else some (signed (Double.ofNat whole))
    else some (.int whole)
  | fraction, exponent, dropped =>
    let (significand, unread) := accumulate whole (fraction.getD [])
    let read := (fraction.getD []).length - unread.length
    let start : Int := (dropped.length : Int) - (read : Int)
    match exponent with
    | none => (Double.ofDecimal? significand start).map signed
    | some e =>
      match e.magnitude? with
      | none =>
        if significand ≠ 0 ∧ ¬ e.negative then none else some (signed Double.zero)
      | some n =>
        let total := clamp (if e.negative then start - n else start + n)
        (Double.ofDecimal? significand total).map signed

/-- Reads a fraction if a point follows; a point needs a digit behind it. -/
def readFraction : List Char → Option (Option (List Nat) × Rest)
  | '.' :: cs =>
    match digitsOf cs with
    | ([], _) => none
    | (ds, rest) => some (some ds, rest)
  | cs => some (none, cs)

/-- Reads an exponent if its mark follows; the mark needs a digit behind it. -/
def readExponent : List Char → Option (Option Exponent × Rest)
  | [] => some (none, [])
  | c :: cs =>
    if c = 'e' ∨ c = 'E' then
      let (negative, body) := match cs with
        | '+' :: r => (false, r)
        | '-' :: r => (true, r)
        | r => (false, r)
      match digitsOf body with
      | ([], _) => none
      | (ds, rest) => some (some ⟨negative, ds⟩, rest)
    else some (none, c :: cs)

/-- Reads a number behind its sign. A leading zero stands alone. -/
def readNumber (negative : Bool) (cs : List Char) : Option (Option Number × Rest) := do
  let (whole, rest) := digitsOf cs
  match whole with
  | [] => none
  | 0 :: _ :: _ => none
  | _ =>
    let (fraction, rest) ← readFraction rest
    let (exponent, rest) ← readExponent rest
    pure (Literal.number? ⟨negative, whole, fraction, exponent⟩, rest)

/-- Takes an expected word off the front. -/
def word? : List Char → List Char → Option Rest
  | [], cs => some cs
  | w :: ws, c :: cs => if w = c then word? ws cs else none
  | _ :: _, [] => none

mutual

/-- Reads one value. The fuel bounds the characters left to read. -/
def readValue : Nat → List Char → Option (Tree × Rest)
  | 0, _ => none
  | fuel + 1, cs =>
    match skip cs with
    | [] => none
    | '"' :: rest => (readString "" true rest).map fun (s, r) => (string s, r)
    | '[' :: rest =>
      match skip rest with
      | ']' :: r => some (array [], r)
      | r => readItems fuel [] r
    | '\x7b' :: rest =>
      match skip rest with
      | '\x7d' :: r => some (object [], r)
      | r => readMembers fuel [] r
    | '-' :: rest => (readNumber true rest).map fun (n, r) => (number n, r)
    | 'n' :: rest => (word? "ull".toList rest).map (null, ·)
    | 't' :: rest => (word? "rue".toList rest).map (bool true, ·)
    | 'f' :: rest => (word? "alse".toList rest).map (bool false, ·)
    | rest => (readNumber false rest).map fun (n, r) => (number n, r)

/-- Reads the items of an array up to its end. -/
def readItems : Nat → List Tree → List Char → Option (Tree × Rest)
  | 0, _, _ => none
  | fuel + 1, items, cs =>
    match readValue fuel cs with
    | none => none
    | some (item, rest) =>
      match skip rest with
      | ',' :: r => readItems fuel (item :: items) r
      | ']' :: r => some (array (item :: items).reverse, r)
      | _ => none

/-- Reads the members of an object up to its end. -/
def readMembers : Nat → List (Option String × Tree) → List Char → Option (Tree × Rest)
  | 0, _, _ => none
  | fuel + 1, members, cs =>
    match skip cs with
    | '"' :: rest =>
      match readString "" true rest with
      | none => none
      | some (key, rest) =>
        match skip rest with
        | ':' :: rest =>
          match readValue fuel rest with
          | none => none
          | some (item, rest) =>
            match skip rest with
            | ',' :: r => readMembers fuel ((key, item) :: members) r
            | '\x7d' :: r => some (object ((key, item) :: members).reverse, r)
            | _ => none
        | _ => none
    | _ => none

end

/-- Reads a whole document. -/
def ofChars? (cs : List Char) : Option Tree :=
  match readValue (cs.length + 1) cs with
  | some (tree, rest) => if (skip rest).isEmpty then some tree else none
  | none => none

/-- Reads a whole document. -/
def parse? (text : String) : Option Tree := ofChars? text.toList

mutual

/-- The value that a tree denotes, if nesting stays below `depth` levels. -/
def value? (depth : Nat) : Tree → Option Json
  | null => some .null
  | bool b => some (.bool b)
  | number n => n.map .number
  | string s => s.map .string
  | array items =>
    match depth with
    | 0 => none
    | inner + 1 => (values? inner [] items).map .array
  | object members =>
    match depth with
    | 0 => none
    | inner + 1 => (members? inner [] members).map .object

/-- The values of items, behind those collected already in reverse. -/
def values? (depth : Nat) (done : List Json) : List Tree → Option (List Json)
  | [] => some done.reverse
  | item :: items =>
    match value? depth item with
    | none => none
    | some v => values? depth (v :: done) items

/-- The members with their values, in key order, the last of one key winning. -/
def members? (depth : Nat) (done : List (String × Json)) :
    List (Option String × Tree) → Option (List (String × Json))
  | [] => some done
  | (key, item) :: rest =>
    match key, value? depth item with
    | some k, some v => members? depth (Json.insertMember k v done) rest
    | _, _ => none

end

/-- The deepest nesting of arrays and objects that a value may have. -/
def nestingLimit : Nat := 127

end Tree

/-- Reads a whole text as one value. -/
def Json.parse? (text : String) : Option Json :=
  (Tree.parse? text).bind (Tree.value? Tree.nestingLimit)

end FleetControl
