import FleetControl.Power

/-!
# SHA-256

The digest over byte arrays, in 32-bit words.
-/
namespace FleetControl.Sha256

/-- The round constants. -/
def constants : Array UInt32 := #[
  0x428a2f98, 0x71374491, 0xb5c0fbcf, 0xe9b5dba5, 0x3956c25b, 0x59f111f1, 0x923f82a4, 0xab1c5ed5,
  0xd807aa98, 0x12835b01, 0x243185be, 0x550c7dc3, 0x72be5d74, 0x80deb1fe, 0x9bdc06a7, 0xc19bf174,
  0xe49b69c1, 0xefbe4786, 0x0fc19dc6, 0x240ca1cc, 0x2de92c6f, 0x4a7484aa, 0x5cb0a9dc, 0x76f988da,
  0x983e5152, 0xa831c66d, 0xb00327c8, 0xbf597fc7, 0xc6e00bf3, 0xd5a79147, 0x06ca6351, 0x14292967,
  0x27b70a85, 0x2e1b2138, 0x4d2c6dfc, 0x53380d13, 0x650a7354, 0x766a0abb, 0x81c2c92e, 0x92722c85,
  0xa2bfe8a1, 0xa81a664b, 0xc24b8b70, 0xc76c51a3, 0xd192e819, 0xd6990624, 0xf40e3585, 0x106aa070,
  0x19a4c116, 0x1e376c08, 0x2748774c, 0x34b0bcb5, 0x391c0cb3, 0x4ed8aa4a, 0x5b9cca4f, 0x682e6ff3,
  0x748f82ee, 0x78a5636f, 0x84c87814, 0x8cc70208, 0x90befffa, 0xa4506ceb, 0xbef9a3f7, 0xc67178f2]

/-- The eight words of a chaining value. -/
structure State where
  a : UInt32
  b : UInt32
  c : UInt32
  d : UInt32
  e : UInt32
  f : UInt32
  g : UInt32
  h : UInt32
  deriving DecidableEq

/-- The chaining value before the first block. -/
def State.start : State :=
  ⟨0x6a09e667, 0xbb67ae85, 0x3c6ef372, 0xa54ff53a, 0x510e527f, 0x9b05688c, 0x1f83d9ab, 0x5be0cd19⟩

/-- Rotates a word to the right; the amount is between 1 and 31. -/
def rotate (x : UInt32) (n : UInt32) : UInt32 := (x >>> n) ||| (x <<< (32 - n))

/-- The byte at an index, zero behind the end. -/
def byteAt (bytes : ByteArray) (i : Nat) : UInt8 := if h : i < bytes.size then bytes[i] else 0

/-- The word at an index, zero behind the end. -/
def wordAt (ws : Array UInt32) (i : Nat) : UInt32 := ws.getD i 0

/-- The big-endian word at an offset. -/
def word (bytes : ByteArray) (i : Nat) : UInt32 :=
  ((byteAt bytes i).toUInt32 <<< 24) ||| ((byteAt bytes (i + 1)).toUInt32 <<< 16) |||
    ((byteAt bytes (i + 2)).toUInt32 <<< 8) ||| (byteAt bytes (i + 3)).toUInt32

/-- Extends the message schedule by further words. -/
def extend (ws : Array UInt32) : Nat → Array UInt32
  | 0 => ws
  | n + 1 =>
    let t := ws.size
    let x := wordAt ws (t - 15)
    let y := wordAt ws (t - 2)
    let s0 := rotate x 7 ^^^ rotate x 18 ^^^ (x >>> 3)
    let s1 := rotate y 17 ^^^ rotate y 19 ^^^ (y >>> 10)
    extend (ws.push (wordAt ws (t - 16) + s0 + wordAt ws (t - 7) + s1)) n

/-- The message schedule of the block at an offset. -/
def schedule (bytes : ByteArray) (offset : Nat) : Array UInt32 :=
  extend ((List.range 16).foldl (fun ws i => ws.push (word bytes (offset + 4 * i)))
    (Array.mkEmpty 64)) 48

/-- One round. -/
def round (s : State) (k w : UInt32) : State :=
  let s1 := rotate s.e 6 ^^^ rotate s.e 11 ^^^ rotate s.e 25
  let ch := (s.e &&& s.f) ^^^ ((~~~ s.e) &&& s.g)
  let t1 := s.h + s1 + ch + k + w
  let s0 := rotate s.a 2 ^^^ rotate s.a 13 ^^^ rotate s.a 22
  let maj := (s.a &&& s.b) ^^^ (s.a &&& s.c) ^^^ (s.b &&& s.c)
  ⟨t1 + (s0 + maj), s.a, s.b, s.c, s.d + t1, s.e, s.f, s.g⟩

/-- The rounds from the `t`-th on. -/
def rounds (ws : Array UInt32) (s : State) (t : Nat) : Nat → State
  | 0 => s
  | n + 1 => rounds ws (round s (wordAt constants t) (wordAt ws t)) (t + 1) n

/-- Takes one block into the chaining value. -/
def compress (s : State) (bytes : ByteArray) (offset : Nat) : State :=
  let r := rounds (schedule bytes offset) s 0 64
  ⟨s.a + r.a, s.b + r.b, s.c + r.c, s.d + r.d, s.e + r.e, s.f + r.f, s.g + r.g, s.h + r.h⟩

/-- Appends zero bytes. -/
def zeros (bytes : ByteArray) : Nat → ByteArray
  | 0 => bytes
  | n + 1 => zeros (bytes.push 0) n

/-- The message with its padding: a set bit, zeros, and the length in bits. -/
def pad (bytes : ByteArray) : ByteArray :=
  let marked := bytes.push 0x80
  let filled := zeros marked ((120 - marked.size % 64) % 64)
  (List.range 8).foldl (fun out i => out.push (UInt8.ofNat (bytes.size * 8 / 256 ^ (7 - i)))) filled

/-- Takes further blocks. -/
def blocks (bytes : ByteArray) (s : State) (offset : Nat) : Nat → State
  | 0 => s
  | n + 1 => blocks bytes (compress s bytes offset) (offset + 64) n

/-- Appends a word, high byte first. -/
def pushWord (out : ByteArray) (w : UInt32) : ByteArray :=
  (((out.push (w >>> 24).toUInt8).push (w >>> 16).toUInt8).push (w >>> 8).toUInt8).push w.toUInt8

/-- The 32 bytes of a chaining value. -/
def State.toBytes (s : State) : ByteArray :=
  [s.a, s.b, s.c, s.d, s.e, s.f, s.g, s.h].foldl pushWord ByteArray.empty

/-- The digest of a message. -/
def digest (message : ByteArray) : ByteArray :=
  let padded := pad message
  (blocks padded State.start 0 (padded.size / 64)).toBytes

end FleetControl.Sha256
