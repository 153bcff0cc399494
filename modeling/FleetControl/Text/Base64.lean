/-!
# Base64 text

The standard alphabet with padding. Reading accepts exactly what writing produces: padding is
required, nothing may follow it, and the bits that padding leaves unused are zero.
-/
namespace FleetControl.Base64

/-- The symbol of a six-bit value. -/
def symbol (n : Nat) : Char :=
  let n := n % 64
  if n < 26 then Char.ofNat ('A'.toNat + n)
  else if n < 52 then Char.ofNat ('a'.toNat + (n - 26))
  else if n < 62 then Char.ofNat ('0'.toNat + (n - 52))
  else if n = 62 then '+'
  else '/'

/-- The six-bit value of a symbol. -/
def value? (c : Char) : Option Nat :=
  if 'A' ≤ c ∧ c ≤ 'Z' then some (c.toNat - 'A'.toNat)
  else if 'a' ≤ c ∧ c ≤ 'z' then some (c.toNat - 'a'.toNat + 26)
  else if '0' ≤ c ∧ c ≤ '9' then some (c.toNat - '0'.toNat + 52)
  else if c = '+' then some 62
  else if c = '/' then some 63
  else none

/-- Appends the text of the given bytes, three at a time. -/
def encodeOnto (text : String) : List UInt8 → String
  | [] => text
  | [a] =>
    let n := a.toNat * 16
    (((text.push (symbol (n / 64))).push (symbol n)).push '=').push '='
  | [a, b] =>
    let n := (a.toNat * 256 + b.toNat) * 4
    (((text.push (symbol (n / 4096))).push (symbol (n / 64))).push (symbol n)).push '='
  | a :: b :: c :: rest =>
    let n := (a.toNat * 256 + b.toNat) * 256 + c.toNat
    encodeOnto ((((text.push (symbol (n / 262144))).push (symbol (n / 4096))).push
      (symbol (n / 64))).push (symbol n)) rest

/-- The padded text of the given bytes. -/
def encode (bytes : ByteArray) : String := encodeOnto "" bytes.toList

/-- Appends the bytes of a text, four symbols at a time; padding ends the text. -/
def decodeOnto (bytes : ByteArray) : List Char → Option ByteArray
  | [] => some bytes
  | a :: b :: c :: d :: rest =>
    match value? a, value? b with
    | some x, some y =>
      if c = '=' then
        if d = '=' ∧ rest.isEmpty ∧ y % 16 = 0 then
          some (bytes.push (UInt8.ofNat (x * 4 + y / 16)))
        else none
      else
        match value? c with
        | none => none
        | some z =>
          if d = '=' then
            if rest.isEmpty ∧ z % 4 = 0 then
              some ((bytes.push (UInt8.ofNat (x * 4 + y / 16))).push
                (UInt8.ofNat (y % 16 * 16 + z / 4)))
            else none
          else
            match value? d with
            | none => none
            | some w =>
              decodeOnto (((bytes.push (UInt8.ofNat (x * 4 + y / 16))).push
                (UInt8.ofNat (y % 16 * 16 + z / 4))).push (UInt8.ofNat (z % 4 * 64 + w))) rest
    | _, _ => none
  | _ => none

/-- The bytes that a padded text stands for. -/
def decode? (text : String) : Option ByteArray := decodeOnto ByteArray.empty text.toList

theorem decode_empty : decode? "" = some ByteArray.empty := rfl

end FleetControl.Base64
