import CloudProvider.Text.Utf8

/-! The checksum of gzip: the remainder of the bytes, as a polynomial over two elements, by a fixed
one of degree 32. Bits are in the order in which they are stored, the lowest first. -/

namespace CloudProvider.Archive

def crcPolynomial : UInt32 := 0xEDB88320

/-- Takes in `n` bits of zero. -/
def crcShift : Nat → UInt32 → UInt32
  | 0, r => r
  | n + 1, r => crcShift n (if r &&& 1 = 1 then (r >>> 1) ^^^ crcPolynomial else r >>> 1)

def crcByte (r : UInt32) (b : UInt8) : UInt32 :=
  crcShift 8 (r ^^^ b.toUInt32)

def crc32 (bytes : Bytes) : UInt32 :=
  bytes.foldl crcByte 0xFFFFFFFF ^^^ 0xFFFFFFFF

end CloudProvider.Archive
