import ProviderProtocol.Number.Numeral
import ProviderProtocol.Number.Shortest
/-!
# Numbers

A number is held as an integer of 64 bits, signed or unsigned, or as a finite binary64 number.  The form is kept:
`1` and `1.0` are different numbers.  They are `equal` numbers all the same: two integers are compared exactly and
any other pair as binary64 numbers, so `equal` is not transitive where an integer has more digits than binary64
holds.  `identical` tells the forms apart and identifies no two numbers but the zeros of either sign.
-/
namespace ProviderProtocol

namespace Number

/-- From `-2 ^ 63` to `2 ^ 64 - 1`: the integers that fit 64 bits, with a sign or without. -/
abbrev Fits (n : Int) : Prop := -9223372036854775808 ≤ n ∧ n ≤ 18446744073709551615

end Number

inductive Number
  | int (n : Int) (fits : Number.Fits n)
  | float (x : Binary64)
  deriving DecidableEq

namespace Number

def ofInt? (n : Int) : Option Number := if h : Fits n then some (.int n h) else none

/-- The nearest binary64 number; no integer of 64 bits rounds to an infinity. -/
def toBinary64 : Number → Binary64
  | .int n _ => (Binary64.ofInt? n).getD (.zero false)
  | .float x => x

def equal : Number → Number → Bool
  | .int a _, .int b _ => a == b
  | a, b               => a.toBinary64.equal b.toBinary64

def identical : Number → Number → Bool
  | .int a _, .int b _ => a == b
  | .float x, .float y => x.equal y
  | _, _               => false

def text : Number → String
  | .int n _ => toString n
  | .float x => x.text

/-- Reads a numeral that fills the text: as an integer if it is one and fits, else as the nearest binary64 number. -/
def ofText? (s : String) : Option Number := do
  let x ← Numeral.ofChars? s.toList
  if x.isInteger then
    match ofInt? x.wholeValue with
    | some n => pure n
    | none   => return .float (← x.nearest?)
  else return .float (← x.nearest?)

/-- The number a JSON numeral denotes: an integer if it is written as one, fits and is not `-0`. -/
def ofNumeral? (x : Numeral) : Option Number :=
  if x.isInteger && !(x.negative && x.wholeValue == 0) then
    match ofInt? x.wholeValue with
    | some n => some n
    | none   => x.scaled?.map .float
  else x.scaled?.map .float

end Number

end ProviderProtocol
