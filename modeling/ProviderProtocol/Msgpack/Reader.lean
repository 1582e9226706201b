import ProviderProtocol.Msgpack.Basic
/-!
# Reading msgpack

Every value begins with a header: a lead byte and, for the longer formats, a number.  A header is a whole value or says
how much is to follow.  All formats are read, also longer ones than needed; the one unused lead byte reads as nil.

A budget bounds the nesting: each value takes one unit, the body of an array or a map one more, of a binary one, and of
a string or an extension two.  What runs out of bytes or of budget is no value.
-/
namespace ProviderProtocol.Msgpack

/-- The budget for a payload. -/
def depthBudget : Nat := 1024

inductive Header
  | value (v : Msgpack)
  | string (length : Nat)
  | binary (length : Nat)
  | array (count : Nat)
  | map (count : Nat)
  | extension (length : Nat)

def readHeader? : Bytes → Option (Header × Bytes)
  | []           => none
  | lead :: rest =>
    let n := lead.toNat
    let sized (width : Nat) (make : Nat → Header) := (readNat? width rest).map fun (k, r) => (make k, r)
    if n < 0x80 then some (.value (.int n), rest)
    else if n < 0x90 then some (.map (n - 0x80), rest)
    else if n < 0xa0 then some (.array (n - 0x90), rest)
    else if n < 0xc0 then some (.string (n - 0xa0), rest)
    else if 0xe0 ≤ n then some (.value (.int (signed 1 n)), rest)
    else match n with
      | 0xc2 => some (.value (.bool false), rest)
      | 0xc3 => some (.value (.bool true), rest)
      | 0xc4 => sized 1 .binary
      | 0xc5 => sized 2 .binary
      | 0xc6 => sized 4 .binary
      | 0xc7 => sized 1 .extension
      | 0xc8 => sized 2 .extension
      | 0xc9 => sized 4 .extension
      | 0xca => sized 4 fun k => .value (.float (Binary64.ofSingleBits? k))
      | 0xcb => sized 8 fun k => .value (.float (Binary64.ofBits? k))
      | 0xcc => sized 1 fun k => .value (.int k)
      | 0xcd => sized 2 fun k => .value (.int k)
      | 0xce => sized 4 fun k => .value (.int k)
      | 0xcf => sized 8 fun k => .value (.int k)
      | 0xd0 => sized 1 fun k => .value (.int (signed 1 k))
      | 0xd1 => sized 2 fun k => .value (.int (signed 2 k))
      | 0xd2 => sized 4 fun k => .value (.int (signed 4 k))
      | 0xd3 => sized 8 fun k => .value (.int (signed 8 k))
      | 0xd4 => some (.extension 1, rest)
      | 0xd5 => some (.extension 2, rest)
      | 0xd6 => some (.extension 4, rest)
      | 0xd7 => some (.extension 8, rest)
      | 0xd8 => some (.extension 16, rest)
      | 0xd9 => sized 1 .string
      | 0xda => sized 2 .string
      | 0xdb => sized 4 .string
      | 0xdc => sized 2 .array
      | 0xdd => sized 4 .array
      | 0xde => sized 2 .map
      | 0xdf => sized 4 .map
      | _    => some (.value .nil, rest)

/-- `count` values, each read by the given reader. -/
def readMany? (read : Bytes → Option (α × Bytes)) : Nat → Bytes → Option (List α × Bytes)
  | 0, bytes         => some ([], bytes)
  | count + 1, bytes =>
    match read bytes with
    | none           => none
    | some (a, rest) => (readMany? read count rest).map fun (as, r) => (a :: as, r)

/-- Two values, each read by the given reader. -/
def readPair? (read : Bytes → Option (α × Bytes)) (bytes : Bytes) : Option ((α × α) × Bytes) :=
  match read bytes with
  | none           => none
  | some (a, rest) => (read rest).map fun (b, r) => ((a, b), r)

/-- The type and the data of an extension with this many bytes of data. -/
def readExtension? (length : Nat) (bytes : Bytes) : Option (Msgpack × Bytes) :=
  match bytes with
  | []           => none
  | type :: rest => (takeBytes? length rest).map fun (data, r) => (.extension (signed 1 type.toNat) data, r)

/-- One value from the front, and the bytes after it. -/
def read? : Nat → Bytes → Option (Msgpack × Bytes)
  | 0, _              => none
  | budget + 1, bytes =>
    match readHeader? bytes with
    | none => none
    | some (.value v, rest)     => some (v, rest)
    | some (.string n, rest)    =>
      if 2 ≤ budget then (takeBytes? n rest).map fun (s, r) => (.string s, r) else none
    | some (.binary n, rest)    =>
      if 1 ≤ budget then (takeBytes? n rest).map fun (s, r) => (.binary s, r) else none
    | some (.extension n, rest) => if 2 ≤ budget then readExtension? n rest else none
    | some (.array n, rest)     =>
      match budget with
      | 0         => none
      | inner + 1 => (readMany? (read? inner) n rest).map fun (items, r) => (.array items, r)
    | some (.map n, rest)       =>
      match budget with
      | 0         => none
      | inner + 1 => (readMany? (readPair? (read? inner)) n rest).map fun (pairs, r) => (.map pairs, r)

end ProviderProtocol.Msgpack
