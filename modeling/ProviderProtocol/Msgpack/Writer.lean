import ProviderProtocol.Msgpack.Basic
/-!
# Writing msgpack

Every header takes the shortest format that holds it.  Integers are those of 64 bits, signed or unsigned, and lengths
are below `2 ^ 32`; a float is written with eight bytes, one that is not finite as a quiet NaN.
-/
namespace ProviderProtocol.Msgpack

def intBytes (n : Int) : Bytes :=
  if 0 ≤ n then
    let k := n.toNat
    if k < 0x80 then [UInt8.ofNat k]
    else if k < 0x100 then 0xcc :: bigEndian 1 k
    else if k < 0x10000 then 0xcd :: bigEndian 2 k
    else if k < 0x100000000 then 0xce :: bigEndian 4 k
    else 0xcf :: bigEndian 8 k
  else if -32 ≤ n then [UInt8.ofNat (n + 256).toNat]
  else if -128 ≤ n then 0xd0 :: bigEndian 1 (n + 0x100).toNat
  else if -32768 ≤ n then 0xd1 :: bigEndian 2 (n + 0x10000).toNat
  else if -2147483648 ≤ n then 0xd2 :: bigEndian 4 (n + 0x100000000).toNat
  else 0xd3 :: bigEndian 8 (n + 0x10000000000000000).toNat

def stringHeader (n : Nat) : Bytes :=
  if n < 32 then [UInt8.ofNat (0xa0 + n)]
  else if n < 0x100 then 0xd9 :: bigEndian 1 n
  else if n < 0x10000 then 0xda :: bigEndian 2 n
  else 0xdb :: bigEndian 4 n

def binaryHeader (n : Nat) : Bytes :=
  if n < 0x100 then 0xc4 :: bigEndian 1 n
  else if n < 0x10000 then 0xc5 :: bigEndian 2 n
  else 0xc6 :: bigEndian 4 n

def arrayHeader (n : Nat) : Bytes :=
  if n < 16 then [UInt8.ofNat (0x90 + n)]
  else if n < 0x10000 then 0xdc :: bigEndian 2 n
  else 0xdd :: bigEndian 4 n

def mapHeader (n : Nat) : Bytes :=
  if n < 16 then [UInt8.ofNat (0x80 + n)]
  else if n < 0x10000 then 0xde :: bigEndian 2 n
  else 0xdf :: bigEndian 4 n

def extensionHeader (n : Nat) : Bytes :=
  if n = 1 then [0xd4]
  else if n = 2 then [0xd5]
  else if n = 4 then [0xd6]
  else if n = 8 then [0xd7]
  else if n = 16 then [0xd8]
  else if n < 0x100 then 0xc7 :: bigEndian 1 n
  else if n < 0x10000 then 0xc8 :: bigEndian 2 n
  else 0xc9 :: bigEndian 4 n

/-- The bits of a float that is not finite, as it is written. -/
def quietNaN : Nat := 0x7ff8000000000000

mutual

def write : Msgpack → Bytes
  | .nil                 => [0xc0]
  | .bool b              => if b then [0xc3] else [0xc2]
  | .int n               => intBytes n
  | .float x             => 0xcb :: bigEndian 8 (match x with | some y => y.bits | none => quietNaN)
  | .string s            => stringHeader s.length ++ s
  | .binary s            => binaryHeader s.length ++ s
  | .array items         => arrayHeader items.length ++ writeItems items
  | .map pairs           => mapHeader pairs.length ++ writePairs pairs
  | .extension type data => extensionHeader data.length ++ UInt8.ofNat (type % 256).toNat :: data

def writeItems : List Msgpack → Bytes
  | []      => []
  | v :: vs => v.write ++ writeItems vs

def writePairs : List (Msgpack × Msgpack) → Bytes
  | []           => []
  | (k, v) :: es => k.write ++ v.write ++ writePairs es

end

end ProviderProtocol.Msgpack
