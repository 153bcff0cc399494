import FleetControl.Gzip.Crc32
import FleetControl.Gzip.Deflate
import FleetControl.Gzip.Inflate

/-!
# Gzip members

A header, a DEFLATE stream and a trailer with checksum and length. Reading takes the first member
and ignores what follows it; checksum and length must agree with the content.
-/
namespace FleetControl.Gzip

open FleetControl.Inflate (byteAt)

/-- The little-endian number of `n` bytes. -/
def little (bytes : ByteArray) (start n : Nat) : Nat :=
  (List.range n).foldl (fun acc i => acc + (byteAt bytes (start + i)).toNat * 256 ^ i) 0

/-- The most bytes that a name or a comment may have. -/
def maxField : Nat := 65535

/-- The position behind the next zero byte. -/
def behindZero (bytes : ByteArray) (i : Nat) : Nat → Option Nat
  | 0 => none
  | fuel + 1 =>
    if i ≥ bytes.size then none
    else if byteAt bytes i = 0 then some (i + 1)
    else behindZero bytes (i + 1) fuel

/-- Whether a flag of the header is set. -/
def flag (flags n : Nat) : Bool := flags / 2 ^ n % 2 = 1

/-- Where the stream behind a header starts. -/
def header? (bytes : ByteArray) : Option Nat := do
  if bytes.size < 10 then none
  else if byteAt bytes 0 ≠ 0x1f ∨ byteAt bytes 1 ≠ 0x8b ∨ byteAt bytes 2 ≠ 8 then none
  else
    let flags := (byteAt bytes 3).toNat
    if flags ≥ 32 then none
    else
      let i ←
        if flag flags 2 then
          let n := 12 + little bytes 10 2
          if n ≤ bytes.size then some n else none
        else some 10
      let i ← if flag flags 3 then behindZero bytes i (maxField + 1) else some i
      let i ← if flag flags 4 then behindZero bytes i (maxField + 1) else some i
      if flag flags 1 then
        if i + 2 ≤ bytes.size ∧
            little bytes i 2 = (Crc32.checksum (bytes.extract 0 i)).toNat % 65536 then
          some (i + 2)
        else none
      else some i

/-- The content of the first member. -/
def decode? (bytes : ByteArray) : Option ByteArray := do
  let start ← header? bytes
  let (content, stop) ← Inflate.stream? bytes start
  if stop + 8 ≤ bytes.size ∧ little bytes stop 4 = (Crc32.checksum content).toNat ∧
      little bytes (stop + 4) 4 = content.size % 2 ^ 32 then
    pure content
  else none

/-- Appends a 32-bit number, low byte first. -/
def pushLittle (out : ByteArray) (n : Nat) : ByteArray :=
  (List.range 4).foldl (fun out i => out.push (UInt8.ofNat (n / 256 ^ i))) out

/-- A member with the given content. -/
def encode (content : ByteArray) : ByteArray :=
  let header : ByteArray := [0x1f, 0x8b, 8, 0, 0, 0, 0, 0, 0, 0xff].toByteArray
  pushLittle (pushLittle (Deflate.streamOnto header content) (Crc32.checksum content).toNat)
    (content.size % 2 ^ 32)

end FleetControl.Gzip
