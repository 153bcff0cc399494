import FleetControl.Gzip.Inflate

/-!
# Deflating

One block with the fixed codes. A run that occurred before is replaced by a reference to its last
occurrence, which is looked up by the three bytes that it starts with.
-/
namespace FleetControl.Deflate

open FleetControl.Inflate (byteAt lengthCodes distanceCodes)

/-- What is written so far; the bits of an unfinished byte stand in `pending`. -/
structure Sink where
  out : ByteArray
  pending : Nat
  count : Nat

/-- Moves full bytes out. -/
def Sink.flush (s : Sink) : Nat → Sink
  | 0 => s
  | fuel + 1 =>
    if s.count ≥ 8 then
      flush ⟨s.out.push (UInt8.ofNat s.pending), s.pending / 256, s.count - 8⟩ fuel
    else s

/-- Appends `n` bits of a number, low bit first. -/
def Sink.put (s : Sink) (value n : Nat) : Sink :=
  ({ s with pending := s.pending + value * 2 ^ s.count, count := s.count + n }).flush 4

/-- The number with its `n` low bits in reverse order. -/
def reverseBits (value : Nat) (acc : Nat) : Nat → Nat
  | 0 => acc
  | n + 1 => reverseBits (value / 2) (2 * acc + value % 2) n

/-- Appends a Huffman code of `n` bits, high bit first. -/
def Sink.code (s : Sink) (value n : Nat) : Sink := s.put (reverseBits value 0 n) n

/-- Appends a symbol of the fixed literal code. -/
def Sink.literal (s : Sink) (symbol : Nat) : Sink :=
  if symbol < 144 then s.code (0x30 + symbol) 8
  else if symbol < 256 then s.code (0x190 + (symbol - 144)) 9
  else if symbol < 280 then s.code (symbol - 256) 7
  else s.code (0xc0 + (symbol - 280)) 8

/-- The last entry whose base is not above a number. -/
def entry (codes : Array (Nat × Nat)) (n : Nat) : Nat :=
  codes.foldl (fun i e => if e.1 ≤ n then i + 1 else i) 0 - 1

/-- Appends a reference of a length and a distance. -/
def Sink.reference (s : Sink) (length distance : Nat) : Sink :=
  let i := entry lengthCodes length
  let (base, bits) := lengthCodes.getD i (3, 0)
  let j := entry distanceCodes distance
  let (dbase, dbits) := distanceCodes.getD j (1, 0)
  (((s.literal (257 + i)).put (length - base) bits).code j 5).put (distance - dbase) dbits

/-- How far two positions agree. -/
def agree (bytes : ByteArray) (i j n : Nat) : Nat → Nat
  | 0 => n
  | fuel + 1 =>
    if j + n < bytes.size ∧ byteAt bytes (i + n) = byteAt bytes (j + n) then
      agree bytes i j (n + 1) fuel
    else n

/-- The slot of the three bytes at a position. -/
def slot (bytes : ByteArray) (i : Nat) : Nat :=
  ((byteAt bytes i).toNat * 1031 + (byteAt bytes (i + 1)).toNat * 89 +
    (byteAt bytes (i + 2)).toNat) % 32768

/-- Writes the bytes from a position on. `seen` holds one more than the last position per slot. -/
def symbols (bytes : ByteArray) (seen : Array Nat) (s : Sink) (i : Nat) : Nat → Sink
  | 0 => s
  | fuel + 1 =>
    if i ≥ bytes.size then s
    else
      let k := slot bytes i
      let before := seen.getD k 0
      let seen := seen.setIfInBounds k (i + 1)
      let distance := i + 1 - before
      let length := if before = 0 ∨ distance > 32768 then 0 else agree bytes (before - 1) i 0 258
      if length ≥ 3 then symbols bytes seen (s.reference length distance) (i + length) fuel
      else symbols bytes seen (s.literal (byteAt bytes i).toNat) (i + 1) fuel

/-- A stream with the given content behind some bytes. -/
def streamOnto (out bytes : ByteArray) : ByteArray :=
  let body := symbols bytes (Array.replicate 32768 0) ((Sink.mk out 0 0).put 3 3) 0 bytes.size
  let closed := body.literal 256
  if closed.count = 0 then closed.out else closed.out.push (UInt8.ofNat closed.pending)

end FleetControl.Deflate
