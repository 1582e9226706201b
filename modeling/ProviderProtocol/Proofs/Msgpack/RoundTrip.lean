import Mathlib
import ProviderProtocol.Msgpack.Reader
import ProviderProtocol.Msgpack.Writer
/-!
# Msgpack: what is written is read back

A tree that the writer can represent (`Writable`) is read back from its bytes, whatever follows them, once the budget
of the reader covers its `height` (`read?_write`).  Every format has one lemma on its header, and the rest is an
induction over the tree.
-/
namespace ProviderProtocol.Msgpack

/-! ## Numbers in bytes -/

theorem length_bigEndian : ∀ width n : Nat, (bigEndian width n).length = width
  | 0, _         => rfl
  | width + 1, n => by rw [bigEndian, List.length_append, length_bigEndian width]; rfl

theorem ofBigEndian_append (xs : Bytes) (b : UInt8) : ofBigEndian (xs ++ [b]) = 256 * ofBigEndian xs + b.toNat := by
  unfold ofBigEndian
  rw [List.foldl_append]
  rfl

theorem ofBigEndian_bigEndian : ∀ (width n : Nat), n < 256 ^ width → ofBigEndian (bigEndian width n) = n
  | 0, n, h         => by
    have hn : n = 0 := by rw [Nat.pow_zero] at h; omega
    subst hn; rfl
  | width + 1, n, h => by
    have hq : n / 256 < 256 ^ width := by
      rw [Nat.pow_succ] at h
      exact Nat.div_lt_of_lt_mul (by rw [Nat.mul_comm]; exact h)
    rw [bigEndian, ofBigEndian_append, ofBigEndian_bigEndian width (n / 256) hq, UInt8.toNat_ofNat']
    omega

theorem takeBytes?_append : ∀ front rest : Bytes, takeBytes? front.length (front ++ rest) = some (front, rest)
  | [], _            => rfl
  | b :: front, rest => by
    rw [List.length_cons, List.cons_append, takeBytes?, takeBytes?_append front rest]
    rfl

theorem readNat?_bigEndian {width n : Nat} (h : n < 256 ^ width) (rest : Bytes) :
    readNat? width (bigEndian width n ++ rest) = some (n, rest) := by
  have ht := takeBytes?_append (bigEndian width n) rest
  rw [length_bigEndian] at ht
  rw [readNat?, ht, Option.map_some]
  exact congrArg (fun k => some (k, rest)) (ofBigEndian_bigEndian width n h)

theorem signed_of_neg (width : Nat) {n : Int} (hn : n < 0) (h : -(256 ^ width : Nat) ≤ 2 * n) :
    signed width (n + (256 ^ width : Nat)).toNat = n := by
  unfold signed
  have hge : ¬ 2 * (n + (256 ^ width : Nat)).toNat < Nat.pow 256 width := by
    show ¬ 2 * (n + (256 ^ width : Nat)).toNat < 256 ^ width
    omega
  rw [if_neg hge]
  show ((n + (256 ^ width : Nat)).toNat : Int) - (256 ^ width : Nat) = n
  omega

/-! ## Headers -/

theorem toNat_byte {n : Nat} (h : n < 256) : (UInt8.ofNat n).toNat = n := UInt8.toNat_ofNat_of_lt h

section Headers

variable {n : Nat} (rest : Bytes)

theorem readHeader?_positive (h : n < 0x80) : readHeader? (UInt8.ofNat n :: rest) = some (.value (.int n), rest) := by
  have hn : (UInt8.ofNat n).toNat = n := toNat_byte (by omega)
  simp only [readHeader?, hn, if_pos h]

theorem readHeader?_shortMap (h : n < 16) : readHeader? (UInt8.ofNat (0x80 + n) :: rest) = some (.map n, rest) := by
  have hn : (UInt8.ofNat (0x80 + n)).toNat = 0x80 + n := toNat_byte (by omega)
  simp only [readHeader?, hn]
  rw [if_neg (by omega), if_pos (by omega), Nat.add_sub_cancel_left]

theorem readHeader?_shortArray (h : n < 16) :
    readHeader? (UInt8.ofNat (0x90 + n) :: rest) = some (.array n, rest) := by
  have hn : (UInt8.ofNat (0x90 + n)).toNat = 0x90 + n := toNat_byte (by omega)
  simp only [readHeader?, hn]
  rw [if_neg (by omega), if_neg (by omega), if_pos (by omega), Nat.add_sub_cancel_left]

theorem readHeader?_shortString (h : n < 32) :
    readHeader? (UInt8.ofNat (0xa0 + n) :: rest) = some (.string n, rest) := by
  have hn : (UInt8.ofNat (0xa0 + n)).toNat = 0xa0 + n := toNat_byte (by omega)
  simp only [readHeader?, hn]
  rw [if_neg (by omega), if_neg (by omega), if_neg (by omega), if_pos (by omega), Nat.add_sub_cancel_left]

theorem readHeader?_negative {n : Int} (hn : n < 0) (h : -32 ≤ n) :
    readHeader? (UInt8.ofNat (n + 256).toNat :: rest) = some (.value (.int n), rest) := by
  have hb : (UInt8.ofNat (n + 256).toNat).toNat = (n + 256).toNat := toNat_byte (by omega)
  have hs : signed 1 (n + 256).toNat = n := signed_of_neg 1 hn (by simp; omega)
  simp only [readHeader?, hb, hs]
  rw [if_neg (by omega), if_neg (by omega), if_neg (by omega), if_neg (by omega), if_pos (by omega)]

theorem sized_bigEndian (width : Nat) {n : Nat} (h : n < 256 ^ width) (make : Nat → Header) :
    ((readNat? width (bigEndian width n ++ rest)).map fun (k, r) => (make k, r)) = some (make n, rest) := by
  rw [readNat?_bigEndian h]
  rfl

theorem sized_signed (width : Nat) {n : Int} (hn : n < 0) (h : -(256 ^ width : Nat) ≤ 2 * n) :
    ((readNat? width (bigEndian width (n + (256 ^ width : Nat)).toNat ++ rest)).map
      fun (k, r) => (Header.value (.int (signed width k)), r)) = some (.value (.int n), rest) := by
  rw [sized_bigEndian rest width (by omega) fun k => .value (.int (signed width k)), signed_of_neg width hn h]

theorem readHeader?_intBytes {n : Int} (h : Number.Fits n) :
    readHeader? (intBytes n ++ rest) = some (.value (.int n), rest) := by
  obtain ⟨hlo, hhi⟩ := h
  unfold intBytes
  dsimp only
  split_ifs with h0 h1 h2 h3 h4 h5 h6 h7 h8
  -- without a sign: the number itself, then one, two, four and eight bytes
  · rw [List.singleton_append, readHeader?_positive rest h1, Int.toNat_of_nonneg h0]
  · have hs := sized_bigEndian rest 1 h2 fun k => .value (.int k)
    rwa [Int.toNat_of_nonneg h0] at hs
  · have hs := sized_bigEndian rest 2 h3 fun k => .value (.int k)
    rwa [Int.toNat_of_nonneg h0] at hs
  · have hs := sized_bigEndian rest 4 h4 fun k => .value (.int k)
    rwa [Int.toNat_of_nonneg h0] at hs
  · have hs := sized_bigEndian rest 8 (show n.toNat < 256 ^ 8 by omega) fun k => .value (.int k)
    rwa [Int.toNat_of_nonneg h0] at hs
  -- negative: in one byte of its own, then in two's complement
  · exact readHeader?_negative rest (by omega) h5
  · exact sized_signed rest 1 (by omega) (by omega)
  · exact sized_signed rest 2 (by omega) (by omega)
  · exact sized_signed rest 4 (by omega) (by omega)
  · exact sized_signed rest 8 (by omega) (by omega)

theorem readHeader?_stringHeader (h : n < 2 ^ 32) : readHeader? (stringHeader n ++ rest) = some (.string n, rest) := by
  unfold stringHeader
  split_ifs with h1 h2 h3
  · exact readHeader?_shortString rest h1
  · exact sized_bigEndian rest 1 h2 .string
  · exact sized_bigEndian rest 2 h3 .string
  · exact sized_bigEndian rest 4 h .string

theorem readHeader?_binaryHeader (h : n < 2 ^ 32) : readHeader? (binaryHeader n ++ rest) = some (.binary n, rest) := by
  unfold binaryHeader
  split_ifs with h1 h2
  · exact sized_bigEndian rest 1 h1 .binary
  · exact sized_bigEndian rest 2 h2 .binary
  · exact sized_bigEndian rest 4 h .binary

theorem readHeader?_arrayHeader (h : n < 2 ^ 32) : readHeader? (arrayHeader n ++ rest) = some (.array n, rest) := by
  unfold arrayHeader
  split_ifs with h1 h2
  · exact readHeader?_shortArray rest h1
  · exact sized_bigEndian rest 2 h2 .array
  · exact sized_bigEndian rest 4 h .array

theorem readHeader?_mapHeader (h : n < 2 ^ 32) : readHeader? (mapHeader n ++ rest) = some (.map n, rest) := by
  unfold mapHeader
  split_ifs with h1 h2
  · exact readHeader?_shortMap rest h1
  · exact sized_bigEndian rest 2 h2 .map
  · exact sized_bigEndian rest 4 h .map

theorem readHeader?_extensionHeader (h : n < 2 ^ 32) :
    readHeader? (extensionHeader n ++ rest) = some (.extension n, rest) := by
  unfold extensionHeader
  split_ifs with h1 h2 h4 h8 h16 h17 h18
  · subst h1; rfl
  · subst h2; rfl
  · subst h4; rfl
  · subst h8; rfl
  · subst h16; rfl
  · exact sized_bigEndian rest 1 h17 .extension
  · exact sized_bigEndian rest 2 h18 .extension
  · exact sized_bigEndian rest 4 h .extension

theorem readHeader?_float (x : Binary64) :
    readHeader? (0xcb :: bigEndian 8 x.bits ++ rest) = some (.value (.float (some x)), rest) := by
  have hb : x.bits < 256 ^ 8 := by
    have hr := x.rank.isLt
    unfold Binary64.bits Binary64.signWeight
    split <;> omega
  have hs := sized_bigEndian rest 8 hb fun k => .value (.float (Binary64.ofBits? k))
  rwa [Binary64.ofBits?_bits] at hs

end Headers

/-! ## Trees -/

mutual

/-- The tree has a written form: integers are of 64 bits, floats finite, lengths below `2 ^ 32` and extension types of
one byte. -/
def Writable : Msgpack → Prop
  | .nil | .bool _       => True
  | .int n               => Number.Fits n
  | .float x             => x.isSome
  | .string s            => s.length < 2 ^ 32
  | .binary s            => s.length < 2 ^ 32
  | .array items         => items.length < 2 ^ 32 ∧ WritableItems items
  | .map pairs           => pairs.length < 2 ^ 32 ∧ WritablePairs pairs
  | .extension type data => (-128 ≤ type ∧ type < 128) ∧ data.length < 2 ^ 32

def WritableItems : List Msgpack → Prop
  | []      => True
  | v :: vs => v.Writable ∧ WritableItems vs

def WritablePairs : List (Msgpack × Msgpack) → Prop
  | []           => True
  | (k, v) :: es => (k.Writable ∧ v.Writable) ∧ WritablePairs es

end

mutual

/-- The budget that reading the tree takes. -/
def height : Msgpack → Nat
  | .nil | .bool _ | .int _ | .float _ => 1
  | .string _                          => 3
  | .binary _                          => 2
  | .array items                       => 2 + heightItems items
  | .map pairs                         => 2 + heightPairs pairs
  | .extension _ _                     => 3

def heightItems : List Msgpack → Nat
  | []      => 0
  | v :: vs => max v.height (heightItems vs)

def heightPairs : List (Msgpack × Msgpack) → Nat
  | []           => 0
  | (k, v) :: es => max (max k.height v.height) (heightPairs es)

end

theorem writableItems_iff : ∀ {items : List Msgpack}, WritableItems items ↔ ∀ m ∈ items, m.Writable
  | []      => by simp [WritableItems]
  | m :: ms => by rw [WritableItems, writableItems_iff, List.forall_mem_cons]

theorem writablePairs_iff : ∀ {pairs : List (Msgpack × Msgpack)},
    WritablePairs pairs ↔ ∀ p ∈ pairs, p.1.Writable ∧ p.2.Writable
  | []           => by simp [WritablePairs]
  | (k, m) :: ps => by rw [WritablePairs, writablePairs_iff, List.forall_mem_cons]

theorem heightItems_le_iff {n : Nat} : ∀ {items : List Msgpack}, heightItems items ≤ n ↔ ∀ m ∈ items, m.height ≤ n
  | []      => by simp [heightItems]
  | m :: ms => by rw [heightItems, Nat.max_le, heightItems_le_iff, List.forall_mem_cons]

theorem heightPairs_le_iff {n : Nat} : ∀ {pairs : List (Msgpack × Msgpack)},
    heightPairs pairs ≤ n ↔ ∀ p ∈ pairs, p.1.height ≤ n ∧ p.2.height ≤ n
  | []           => by simp [heightPairs]
  | (k, m) :: ps => by rw [heightPairs, Nat.max_le, Nat.max_le, heightPairs_le_iff, List.forall_mem_cons]

theorem readExtension?_write {type : Int} (h : -128 ≤ type ∧ type < 128) (data rest : Bytes) :
    readExtension? data.length (UInt8.ofNat (type % 256).toNat :: (data ++ rest)) =
      some (.extension type data, rest) := by
  have hb : (UInt8.ofNat (type % 256).toNat).toNat = (type % 256).toNat := toNat_byte (by omega)
  have hs : signed 1 (type % 256).toNat = type := by
    unfold signed
    show (if 2 * (type % 256).toNat < 256 then _ else ((type % 256).toNat : Int) - (256 : Nat)) = type
    split <;> omega
  rw [readExtension?, takeBytes?_append, hb, hs]
  rfl

mutual

/-- **A writable tree is read back from its bytes**, whatever follows, if the budget covers its height. -/
theorem read?_write : ∀ (m : Msgpack) (budget : Nat) (rest : Bytes), m.Writable → m.height ≤ budget →
    read? budget (m.write ++ rest) = some (m, rest)
  | m, 0, _, _, hb => by
    cases m <;> simp only [height] at hb <;> omega
  | .nil, budget + 1, rest, _, _ => rfl
  | .bool b, budget + 1, rest, _, _ => by cases b <;> rfl
  | .int n, budget + 1, rest, hw, _ => by
    rw [write, read?, readHeader?_intBytes rest hw]
  | .float none, budget + 1, rest, hw, _ => by cases hw
  | .float (some x), budget + 1, rest, _, _ => by
    rw [write, read?, readHeader?_float rest x]
  | .string s, budget + 1, rest, hw, hb => by
    have h2 : 2 ≤ budget := by simp only [height] at hb; omega
    rw [write, List.append_assoc, read?, readHeader?_stringHeader _ hw]
    dsimp only
    rw [if_pos h2, takeBytes?_append]
    rfl
  | .binary s, budget + 1, rest, hw, hb => by
    have h1 : 1 ≤ budget := by simp only [height] at hb; omega
    rw [write, List.append_assoc, read?, readHeader?_binaryHeader _ hw]
    dsimp only
    rw [if_pos h1, takeBytes?_append]
    rfl
  | .extension type data, budget + 1, rest, hw, hb => by
    have h2 : 2 ≤ budget := by simp only [height] at hb; omega
    rw [write, List.append_assoc, read?, readHeader?_extensionHeader _ hw.2]
    dsimp only
    rw [if_pos h2]
    exact readExtension?_write hw.1 data rest
  | .array items, 1, rest, _, hb => by simp only [height] at hb; omega
  | .array items, inner + 2, rest, hw, hb => by
    have hi : heightItems items ≤ inner := by simp only [height] at hb; omega
    rw [write, List.append_assoc, read?, readHeader?_arrayHeader _ hw.1]
    dsimp only
    rw [readMany?_writeItems items inner rest hw.2 hi]
    rfl
  | .map pairs, 1, rest, _, hb => by simp only [height] at hb; omega
  | .map pairs, inner + 2, rest, hw, hb => by
    have hi : heightPairs pairs ≤ inner := by simp only [height] at hb; omega
    rw [write, List.append_assoc, read?, readHeader?_mapHeader _ hw.1]
    dsimp only
    rw [readMany?_writePairs pairs inner rest hw.2 hi]
    rfl

theorem readMany?_writeItems : ∀ (items : List Msgpack) (budget : Nat) (rest : Bytes), WritableItems items →
    heightItems items ≤ budget → readMany? (read? budget) items.length (writeItems items ++ rest) = some (items, rest)
  | [], _, _, _, _ => rfl
  | v :: vs, budget, rest, hw, hb => by
    have hv : v.height ≤ budget := Nat.le_trans (Nat.le_max_left _ _) hb
    have hvs : heightItems vs ≤ budget := Nat.le_trans (Nat.le_max_right _ _) hb
    rw [writeItems, List.append_assoc, List.length_cons, readMany?, read?_write v budget _ hw.1 hv]
    dsimp only
    rw [readMany?_writeItems vs budget rest hw.2 hvs]
    rfl

theorem readMany?_writePairs : ∀ (pairs : List (Msgpack × Msgpack)) (budget : Nat) (rest : Bytes),
    WritablePairs pairs → heightPairs pairs ≤ budget →
      readMany? (readPair? (read? budget)) pairs.length (writePairs pairs ++ rest) = some (pairs, rest)
  | [], _, _, _, _ => rfl
  | (k, v) :: es, budget, rest, hw, hb => by
    have hk : k.height ≤ budget := by simp only [heightPairs] at hb; omega
    have hv : v.height ≤ budget := by simp only [heightPairs] at hb; omega
    have hes : heightPairs es ≤ budget := Nat.le_trans (Nat.le_max_right _ _) hb
    have hp : readPair? (read? budget) (k.write ++ (v.write ++ (writePairs es ++ rest))) =
        some ((k, v), writePairs es ++ rest) := by
      rw [readPair?, read?_write k budget _ hw.1.1 hk]
      dsimp only
      rw [read?_write v budget _ hw.1.2 hv]
      rfl
    rw [writePairs, List.append_assoc, List.append_assoc, List.length_cons, readMany?, hp]
    dsimp only
    rw [readMany?_writePairs es budget rest hw.2 hes]
    rfl

end

theorem write_ne_nil {m : Msgpack} (h : m.Writable) : m.write ≠ [] := by
  intro hnil
  have hr := read?_write m m.height [] h (Nat.le_refl _)
  rw [hnil] at hr
  cases hb : m.height <;> rw [hb] at hr <;> cases hr

end ProviderProtocol.Msgpack
