import ProviderProtocol.Value.Basic
/-!
# Two equalities

`identical` compares exactly: an unknown is identical to an unknown of its type, an integer to no float, and the
items of sets are compared in order.  The two float zeros are identical.

`equal` compares what the values stand for: numbers by value, sets in any order, and an unknown equals nothing, not
even itself.  The items of two sets are matched greedily: each item of the first takes the first item of the second
that equals it and is not taken yet.
-/
namespace ProviderProtocol

/-- The list without the first element that passes the test; none if there is no such element. -/
def removeFirst? (p : α → Bool) : List α → Option (List α)
  | []      => none
  | y :: ys => if p y then some ys else (removeFirst? p ys).map (y :: ·)

def Ty.isSet : Ty → Bool
  | .set _ => true
  | _      => false

mutual

def Value.identical : Value → Value → Bool
  | .null s, .null t         => s == t
  | .unknown s, .unknown t   => s == t
  | .known s a, .known t b   => s == t && a.identical b
  | _, _                     => false
termination_by structural v => v

def Content.identical : Content → Content → Bool
  | .string a, .string b => a == b
  | .number a, .number b => a.identical b
  | .bool a, .bool b     => a == b
  | .list xs, .list ys   => Content.itemsIdentical xs ys
  | .map xs, .map ys     => Content.entriesIdentical xs ys
  | _, _                 => false
termination_by structural c => c

def Content.itemsIdentical : List Value → List Value → Bool
  | [], []           => true
  | x :: xs, y :: ys => x.identical y && Content.itemsIdentical xs ys
  | _, _             => false
termination_by structural xs => xs

def Content.entriesIdentical : List (String × Value) → List (String × Value) → Bool
  | [], []                     => true
  | (j, x) :: xs, (k, y) :: ys => j == k && x.identical y && Content.entriesIdentical xs ys
  | _, _                       => false
termination_by structural es => es

end

mutual

def Value.equal : Value → Value → Bool
  | .null s, .null t       => s == t
  | .known s a, .known t b => s == t && a.equal s.isSet b
  | _, _                   => false
termination_by structural v => v

/-- The flag says that the items are those of a set. -/
def Content.equal : Content → Bool → Content → Bool
  | .string a, _, .string b    => a == b
  | .number a, _, .number b    => Number.equal a b
  | .bool a, _, .bool b        => a == b
  | .list xs, true, .list ys   => xs.length == ys.length && Content.itemsMatched xs ys
  | .list xs, false, .list ys  => Content.itemsEqual xs ys
  | .map xs, _, .map ys        => xs.length == ys.length && Content.entriesEqual xs ys
  | _, _, _                    => false
termination_by structural c => c

def Content.itemsMatched : List Value → List Value → Bool
  | [], _       => true
  | x :: xs, ys =>
    match removeFirst? (fun y => x.equal y) ys with
    | some rest => Content.itemsMatched xs rest
    | none      => false
termination_by structural xs => xs

def Content.itemsEqual : List Value → List Value → Bool
  | [], []           => true
  | x :: xs, y :: ys => x.equal y && Content.itemsEqual xs ys
  | _, _             => false
termination_by structural xs => xs

def Content.entriesEqual : List (String × Value) → List (String × Value) → Bool
  | [], _            => true
  | (k, x) :: xs, ys =>
    match Table.find? k ys with
    | some y => x.equal y && Content.entriesEqual xs ys
    | none   => false
termination_by structural es => es

end

end ProviderProtocol
