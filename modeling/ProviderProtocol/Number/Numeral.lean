import ProviderProtocol.Number.Binary64
/-!
# Numerals: decimal numbers as written

A numeral keeps its parts: sign, digits before the point, digits after it and exponent, the last two only if they
were written.  Two readings of the same parts are in use.

* `nearest?` is the binary64 number nearest to the exact decimal; text given where a number is expected is read so.
* `scaled?` is the quick reading used for JSON documents: the leading digits that fit 64 bits are one integer, which
  is rounded to binary64 and then multiplied or divided by a power of ten, rounding again.  On short numerals both
  agree; on long ones `scaled?` may be a neighbour.

Both are `none` where the number rounds to an infinity.
-/
namespace ProviderProtocol

structure Numeral where
  negative : Bool
  whole : List Char
  fraction : Option (List Char)
  exponent : Option Int
  deriving DecidableEq

namespace Numeral

def valueOf (digits : List Char) : Nat := digits.foldl (fun n c => 10 * n + (c.toNat - 48)) 0

/-- The digits at the front, and what follows them. -/
def spanDigits (s : List Char) : List Char × List Char := (s.takeWhile Char.isDigit, s.dropWhile Char.isDigit)

/-- An exponent part, if one begins here: a letter, an optional sign and at least one digit.  The outer `none` is a
letter with no digits behind it. -/
def readExponent? : List Char → Option (Option Int × List Char)
  | c :: rest =>
    if c = 'e' ∨ c = 'E' then
      let (negative, body) := match rest with
        | '+' :: r => (false, r)
        | '-' :: r => (true, r)
        | r        => (false, r)
      match spanDigits body with
      | ([], _)     => none
      | (ds, after) => some (some (if negative then -(valueOf ds : Int) else valueOf ds), after)
    else some (none, c :: rest)
  | []        => some (none, [])

/-- A numeral that fills the text: an optional sign, digits with or without a point but at least one, and an
optional exponent. -/
def ofChars? (s : List Char) : Option Numeral :=
  let (negative, body) := match s with
    | '+' :: r => (false, r)
    | '-' :: r => (true, r)
    | r        => (false, r)
  let (whole, rest) := spanDigits body
  let (fraction, rest) := match rest with
    | '.' :: r => (some (spanDigits r).1, (spanDigits r).2)
    | r        => (none, r)
  if whole.isEmpty && (fraction.getD []).isEmpty then none
  else match readExponent? rest with
    | some (exponent, []) => some ⟨negative, whole, fraction, exponent⟩
    | _                   => none

def isInteger (x : Numeral) : Bool := x.fraction.isNone && x.exponent.isNone

/-- The integer that the digits before the point denote. -/
def wholeValue (x : Numeral) : Int := if x.negative then -(valueOf x.whole : Int) else valueOf x.whole

/-! ## The nearest number -/

/-- `n * 10 ^ e` to the nearest binary64 number; far outside the range no power is computed. -/
def nearestPower? (negative : Bool) (n : Nat) (e : Int) : Option Binary64 :=
  let lead := e + n.repr.length - 1
  if n = 0 then some (.zero negative)
  else if 400 < lead then none
  else if lead < -400 then some (.zero negative)
  else match e with
    | .ofNat p   => Binary64.ofRatio? negative (n * Nat.pow 10 p) 1
    | .negSucc p => Binary64.ofRatio? negative n (Nat.pow 10 (p + 1))

def nearest? (x : Numeral) : Option Binary64 :=
  let fraction := x.fraction.getD []
  nearestPower? x.negative (valueOf (x.whole ++ fraction)) (x.exponent.getD 0 - fraction.length)

/-! ## The quick reading -/

/-- `2 ^ 64 - 1`. -/
def wordMax : Nat := 18446744073709551615

/-- Takes digits into the integer as long as it fits 64 bits; also the number of digits left over. -/
def absorb (n : Nat) : List Char → Nat × Nat
  | []      => (n, 0)
  | c :: cs =>
    let next := 10 * n + (c.toNat - 48)
    if next ≤ wordMax then absorb next cs else (n, cs.length + 1)

/-- `x * 10 ^ e` by one multiplication or division with a power up to `10 ^ 308`; smaller numbers are first divided
by that power, which leaves zero after two rounds. -/
def scaleBy? (x : Binary64) (e : Int) : Nat → Option Binary64
  | 0        => some (.zero x.negative)
  | fuel + 1 =>
    if -308 ≤ e ∧ e ≤ 308 then do
      let power ← Binary64.ofRatio? false (Nat.pow 10 e.natAbs) 1
      if 0 ≤ e then x.mul? power else x.div? power
    else if x.isZero then some x
    else if 0 ≤ e then none
    else do
      let power ← Binary64.ofRatio? false (Nat.pow 10 308) 1
      scaleBy? (← x.div? power) (e + 308) fuel

def scaled? (x : Numeral) : Option Binary64 := do
  let fraction := x.fraction.getD []
  let (n, dropped) := absorb 0 x.whole
  let (m, unread) := absorb n fraction
  let e := x.exponent.getD 0 + dropped - (fraction.length - unread : Nat)
  let magnitude ← scaleBy? (← Binary64.ofRatio? false m 1) e 3
  pure (if x.negative then magnitude.negate else magnitude)

end Numeral

end ProviderProtocol
