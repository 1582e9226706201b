import ProviderProtocol.Number.Basic
import ProviderProtocol.Text.Utf8
/-!
# Msgpack values

The tree that a msgpack payload holds.  Strings are bytes, which need not be UTF-8; a map is its list of pairs, with
keys of any kind and in the order of the payload; a float of either width is a binary64 number, or `none` if it is an
infinity or no number.
-/
namespace ProviderProtocol

inductive Msgpack
  | nil
  | bool (b : Bool)
  | int (n : Int)
  | float (x : Option Binary64)
  | string (bytes : Bytes)
  | binary (bytes : Bytes)
  | array (items : List Msgpack)
  | map (pairs : List (Msgpack × Msgpack))
  | extension (type : Int) (data : Bytes)

namespace Msgpack

/-- What kind of value it is, as messages name it. -/
def kind : Msgpack → String
  | .nil           => "nil"
  | .bool _        => "bool"
  | .int _         => "integer"
  | .float _       => "float"
  | .string _      => "string"
  | .binary _      => "binary"
  | .array _       => "array"
  | .map _         => "map"
  | .extension _ _ => "extension"

/-- The string with this text. -/
def ofText (s : String) : Msgpack := .string (Text.Utf8.encode s)

/-! ## Numbers in bytes, the most significant first -/

def bigEndian : Nat → Nat → Bytes
  | 0, _         => []
  | width + 1, n => bigEndian width (n / 256) ++ [UInt8.ofNat n]

def ofBigEndian (bytes : Bytes) : Nat := bytes.foldl (fun n b => 256 * n + b.toNat) 0

/-- The first `n` bytes, if there are that many, and the rest. -/
def takeBytes? : Nat → Bytes → Option (Bytes × Bytes)
  | 0, bytes         => some ([], bytes)
  | _ + 1, []        => none
  | n + 1, b :: rest => (takeBytes? n rest).map fun (front, r) => (b :: front, r)

/-- A number of this many bytes at the front. -/
def readNat? (width : Nat) (bytes : Bytes) : Option (Nat × Bytes) :=
  (takeBytes? width bytes).map fun (front, rest) => (ofBigEndian front, rest)

/-- The signed number that an unsigned one of `width` bytes stands for in two's complement. -/
def signed (width n : Nat) : Int :=
  let range := Nat.pow 256 width
  if 2 * n < range then n else (n : Int) - range

end Msgpack

end ProviderProtocol
