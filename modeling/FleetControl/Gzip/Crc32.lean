/-!
# CRC-32

The checksum in the trailer of a gzip member.
-/
namespace FleetControl.Crc32

/-- One step of the register over a zero bit. -/
def shift (c : UInt32) : UInt32 :=
  if c &&& 1 = 1 then (c >>> 1) ^^^ 0xedb88320 else c >>> 1

/-- The register after eight zero bits, by its low byte. -/
def table : Array UInt32 :=
  ((List.range 256).map fun n =>
    (List.range 8).foldl (fun c _ => shift c) (UInt32.ofNat n)).toArray

/-- Takes one byte into the register. -/
def step (c : UInt32) (b : UInt8) : UInt32 :=
  table.getD ((c ^^^ b.toUInt32) &&& 0xff).toNat 0 ^^^ (c >>> 8)

/-- The checksum of some bytes. -/
def checksum (bytes : ByteArray) : UInt32 := (bytes.foldl step 0xffffffff) ^^^ 0xffffffff

end FleetControl.Crc32
