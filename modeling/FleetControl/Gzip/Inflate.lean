import FleetControl.Power

/-!
# Inflating

Decoding of a DEFLATE stream: stored blocks, and blocks coded with fixed or transmitted Huffman
codes. Every symbol takes a bit of input, so the bits of the input bound the work.
-/
namespace FleetControl.Inflate

/-- Where reading stands, in bits. -/
structure Source where
  bytes : ByteArray
  bit : Nat

/-- The bits that are left. -/
def Source.left (s : Source) : Nat := 8 * s.bytes.size - s.bit

/-- The byte at an index, zero behind the end. -/
def byteAt (bytes : ByteArray) (i : Nat) : UInt8 := if h : i < bytes.size then bytes[i] else 0

/-- The next bit. -/
def Source.bit? (s : Source) : Option (Nat × Source) :=
  if s.bit < 8 * s.bytes.size then
    let b := ((byteAt s.bytes (s.bit / 8)).toNat >>> (s.bit % 8)) % 2
    some (b, { s with bit := s.bit + 1 })
  else none

/-- The next bits as a number, low bit first, added to `acc` at weight `2 ^ place`. -/
def Source.bitsOnto (s : Source) (acc place : Nat) : Nat → Option (Nat × Source)
  | 0 => some (acc, s)
  | n + 1 =>
    match s.bit? with
    | none => none
    | some (b, s) => bitsOnto s (acc + b * 2 ^ place) (place + 1) n

/-- The next `n` bits as a number, low bit first. -/
def Source.bits? (s : Source) (n : Nat) : Option (Nat × Source) := s.bitsOnto 0 0 n

/-- Moves to the next byte boundary. -/
def Source.align (s : Source) : Source := { s with bit := (s.bit + 7) / 8 * 8 }

/-- A canonical Huffman code: how many codes there are of each length, and the symbols in the
order of their codes. -/
structure Code where
  counts : Array Nat
  symbols : Array Nat

/-- How many of the lengths equal `n`. -/
def countOf (lengths : List Nat) (n : Nat) : Nat := lengths.countP (· == n)

/-- The codes that stay free behind the lengths 1 to 15, negative if there are too many codes. -/
def free (counts : Array Nat) : Int :=
  (List.range 15).foldl (fun left i => 2 * left - (counts.getD (i + 1) 0 : Int)) 1

/-- The code of the given lengths per symbol. A code with free places is accepted only if it codes
nothing, or a single symbol by a single bit. -/
def Code.ofLengths? (lengths : List Nat) : Option Code :=
  let counts := ((List.range 16).map fun n => if n = 0 then 0 else countOf lengths n).toArray
  let indexed := lengths.zipIdx
  let symbols := ((List.range 16).drop 1).flatMap fun n =>
    (indexed.filter fun e => e.1 == n).map (·.2)
  let left := free counts
  if left < 0 then none
  else if left > 0 ∧ symbols.length > counts.getD 1 0 then none
  else some ⟨counts, symbols.toArray⟩

/-- Reads one symbol: code, first code and first index of the current length. -/
def Code.symbolFrom? (c : Code) (s : Source) (code first index length : Nat) :
    Nat → Option (Nat × Source)
  | 0 => none
  | fuel + 1 =>
    match s.bit? with
    | none => none
    | some (b, s) =>
      let code := code + b
      let count := c.counts.getD length 0
      if code < first + count then
        (c.symbols[index + (code - first)]?).map (·, s)
      else
        symbolFrom? c s (2 * code) (2 * (first + count)) (index + count) (length + 1) fuel

/-- Reads one symbol. -/
def Code.symbol? (c : Code) (s : Source) : Option (Nat × Source) := c.symbolFrom? s 0 0 0 1 15

/-- Base and extra bits of the length symbols from 257 on. -/
def lengthCodes : Array (Nat × Nat) := #[
  (3, 0), (4, 0), (5, 0), (6, 0), (7, 0), (8, 0), (9, 0), (10, 0), (11, 1), (13, 1), (15, 1),
  (17, 1), (19, 2), (23, 2), (27, 2), (31, 2), (35, 3), (43, 3), (51, 3), (59, 3), (67, 4),
  (83, 4), (99, 4), (115, 4), (131, 5), (163, 5), (195, 5), (227, 5), (258, 0)]

/-- Base and extra bits of the distance symbols. -/
def distanceCodes : Array (Nat × Nat) := #[
  (1, 0), (2, 0), (3, 0), (4, 0), (5, 1), (7, 1), (9, 2), (13, 2), (17, 3), (25, 3), (33, 4),
  (49, 4), (65, 5), (97, 5), (129, 6), (193, 6), (257, 7), (385, 7), (513, 8), (769, 8),
  (1025, 9), (1537, 9), (2049, 10), (3073, 10), (4097, 11), (6145, 11), (8193, 12), (12289, 12),
  (16385, 13), (24577, 13)]

/-- Reads the extra bits of a symbol behind its base. It is irreducible so that a place in the table
that is a difference is never computed by unfolding. -/
@[irreducible] def extra? (codes : Array (Nat × Nat)) (i : Nat) (s : Source) : Option (Nat × Source) :=
  match codes[i]? with
  | none => none
  | some (base, bits) => (s.bits? bits).map fun (n, s) => (base + n, s)

/-- The byte `distance` back from the end; before the content, zeros stand. -/
def behind (out : ByteArray) (distance : Nat) : UInt8 :=
  if distance ≤ out.size then byteAt out (out.size - distance) else 0

/-- Repeats `n` bytes from `distance` back. -/
def copy (out : ByteArray) (distance : Nat) : Nat → ByteArray
  | 0 => out
  | n + 1 => copy (out.push (behind out distance)) distance n

/-- Reads symbols up to the end of the block. -/
def symbols? (literals distances : Code) (out : ByteArray) (s : Source) :
    Nat → Option (ByteArray × Source)
  | 0 => none
  | fuel + 1 =>
    match literals.symbol? s with
    | none => none
    | some (symbol, s) =>
      if symbol < 256 then symbols? literals distances (out.push (UInt8.ofNat symbol)) s fuel
      else if symbol = 256 then some (out, s)
      else
        match extra? lengthCodes (symbol - 257) s with
        | none => none
        | some (length, s) =>
          match distances.symbol? s with
          | none => none
          | some (d, s) =>
            match extra? distanceCodes d s with
            | none => none
            | some (distance, s) =>
              symbols? literals distances (copy out distance length) s fuel

/-- The fixed code of literals and lengths. -/
def fixedLiterals : List Nat :=
  List.replicate 144 8 ++ List.replicate 112 9 ++ List.replicate 24 7 ++ List.replicate 8 8

/-- The fixed code of distances. -/
def fixedDistances : List Nat := List.replicate 32 5

/-- The order in which lengths of the length code are sent. -/
def lengthOrder : List Nat := [16, 17, 18, 0, 8, 7, 9, 6, 10, 5, 11, 4, 12, 3, 13, 2, 14, 1, 15]

/-- Reads `n` three-bit lengths. -/
def threeBits? (s : Source) (done : List Nat) : Nat → Option (List Nat × Source)
  | 0 => some (done.reverse, s)
  | n + 1 =>
    match s.bits? 3 with
    | none => none
    | some (v, s) => threeBits? s (v :: done) n

/-- Reads the lengths of both codes, in reverse, with their repetitions. -/
def lengths? (code : Code) (want : Nat) (done : List Nat) (s : Source) :
    Nat → Option (List Nat × Source)
  | 0 => none
  | fuel + 1 =>
    if done.length = want then some (done.reverse, s)
    else if done.length > want then none
    else
      match code.symbol? s with
      | none => none
      | some (symbol, s) =>
        if symbol < 16 then lengths? code want (symbol :: done) s fuel
        else if symbol = 16 then
          match done.head?, s.bits? 2 with
          | some last, some (n, s) =>
            lengths? code want (List.replicate (3 + n) last ++ done) s fuel
          | _, _ => none
        else if symbol = 17 then
          match s.bits? 3 with
          | some (n, s) => lengths? code want (List.replicate (3 + n) 0 ++ done) s fuel
          | none => none
        else
          match s.bits? 7 with
          | some (n, s) => lengths? code want (List.replicate (11 + n) 0 ++ done) s fuel
          | none => none

/-- Reads the two codes of a block. -/
def codes? (s : Source) : Option (Code × Code × Source) := do
  let (hlit, s) ← s.bits? 5
  let (hdist, s) ← s.bits? 5
  let (hclen, s) ← s.bits? 4
  let literals := hlit + 257
  let distances := hdist + 1
  if literals > 286 ∨ distances > 30 then none
  else
    let (sent, s) ← threeBits? s [] (hclen + 4)
    let table := lengthOrder.zip (sent ++ List.replicate 19 0)
    let lengths := (List.range 19).map fun i => ((table.find? fun e => e.1 == i).map (·.2)).getD 0
    let code ← Code.ofLengths? lengths
    let (all, s) ← lengths? code (literals + distances) [] s (literals + distances + 1)
    let literalCode ← Code.ofLengths? (all.take literals)
    let distanceCode ← Code.ofLengths? (all.drop literals)
    pure (literalCode, distanceCode, s)

/-- Reads a stored block. -/
def stored? (out : ByteArray) (s : Source) : Option (ByteArray × Source) := do
  let s := s.align
  let (len, s) ← s.bits? 16
  let (complement, s) ← s.bits? 16
  if len + complement ≠ 0xffff then none
  else if s.left < 8 * len then none
  else
    let start := s.bit / 8
    pure (out ++ s.bytes.extract start (start + len), { s with bit := s.bit + 8 * len })

/-- Reads one block behind its kind. -/
def block? (kind : Nat) (out : ByteArray) (s : Source) : Option (ByteArray × Source) := do
  if kind = 0 then stored? out s
  else if kind = 1 then
    let literals ← Code.ofLengths? fixedLiterals
    let distances ← Code.ofLengths? fixedDistances
    symbols? literals distances out s (s.left + 1)
  else if kind = 2 then
    let (literals, distances, s) ← codes? s
    symbols? literals distances out s (s.left + 1)
  else none

/-- Reads blocks up to the last one. -/
def blocks? (out : ByteArray) (s : Source) : Nat → Option (ByteArray × Source)
  | 0 => none
  | fuel + 1 =>
    match s.bits? 3 with
    | none => none
    | some (header, s) =>
      match block? (header / 2) out s with
      | none => none
      | some (out, s) => if header % 2 = 1 then some (out, s) else blocks? out s fuel

/-- The content of a stream that starts at a byte, and the byte behind its end. -/
def stream? (bytes : ByteArray) (start : Nat) : Option (ByteArray × Nat) :=
  (blocks? ByteArray.empty ⟨bytes, 8 * start⟩ (8 * bytes.size + 1)).map fun (out, s) =>
    (out, (s.bit + 7) / 8)

end FleetControl.Inflate
