import ProviderProtocol.Number.Binary64
/-!
# The fewest digits that read back

A positive binary64 number is the nearest one to a whole interval of reals: it reaches half-way to each
neighbour, ends included exactly when the rank is even (ties go to even).  `shortest` looks for the decimal
`digits * 10 ^ exponent` with the fewest digits inside that interval.  On the grid of `n` digits only the two
neighbours of the number itself need a look: if any grid point lies in the interval, so does one of them.  Of two
hits the nearer wins, and an exact tie goes to the even one.

`text` writes the decimal: positional from `1e-5` below `1e16`, always with a digit on both sides of the point,
and otherwise with one digit before the point and a signed exponent.
-/
namespace ProviderProtocol

/-- The decimal number `digits * 10 ^ exponent`. -/
structure Decimal where
  digits : Nat
  exponent : Int
  deriving DecidableEq

namespace Decimal

/-- `num / den * 10 ^ -p` as a quotient of naturals. -/
def scaleDown (num den : Nat) : Int → Nat × Nat
  | .ofNat p   => (num, den * Nat.pow 10 p)
  | .negSucc p => (num * Nat.pow 10 (p + 1), den)

/-- Takes trailing zeros out of the digits; the fuel bounds their number. -/
def trim : Nat → Decimal → Decimal
  | 0, d        => d
  | fuel + 1, d => if d.digits % 10 = 0 then trim fuel ⟨d.digits / 10, d.exponent + 1⟩ else d

end Decimal

namespace Binary64

/-- The exponent of the leading digit: `10 ^ decade ≤ x < 10 ^ (decade + 1)` for a number other than zero. -/
def decade (magnitude : Nat) : Int :=
  (((magnitude * Nat.pow 10 342) >>> places).repr.length : Int) - 343

/-- Is `c * 10 ^ p` among the reals that round to the magnitude at this rank?  Compared in units of
`2 ^ -1075`, half the least subnormal. -/
def roundsTo (rank c : Nat) (p : Int) : Bool :=
  let m := magnitudeAt rank
  let low := m + magnitudeAt (rank - 1)
  let high := m + magnitudeAt (rank + 1)
  let (num, den) := Decimal.scaleDown (c <<< (places + 1)) 1 (-p)
  if rank % 2 = 0 then decide (low * den ≤ num ∧ num ≤ high * den)
  else decide (low * den < num ∧ num < high * den)

/-- The better of the two grid points beside the magnitude, if either reads back. -/
def nearestOnGrid? (rank : Nat) (p : Int) : Option Nat :=
  let (num, den) := Decimal.scaleDown (magnitudeAt rank) (1 <<< places) p
  let c := num / den
  let below := 2 * (num % den) < den ∨ (2 * (num % den) = den ∧ c % 2 = 0)
  match roundsTo rank c p, roundsTo rank (c + 1) p with
  | true, true   => some (if below then c else c + 1)
  | true, false  => some c
  | false, true  => some (c + 1)
  | false, false => none

/-- Tries `n` digits, then `n + 1`, and so on. -/
def shortestFrom (rank : Nat) (lead : Int) : Nat → Nat → Decimal
  | 0, n        => ⟨magnitudeAt rank, n⟩
  | fuel + 1, n =>
    let p := lead - n + 1
    match nearestOnGrid? rank p with
    | some c => Decimal.trim 20 ⟨c, p⟩
    | none   => shortestFrom rank lead fuel (n + 1)

/-- The shortest decimal that reads back as the magnitude of `x`; seventeen digits always suffice. -/
def shortest (x : Binary64) : Decimal :=
  if x.isZero then ⟨0, 0⟩ else shortestFrom x.rank.val (decade x.magnitude) 17 1

/-- Exponents of the leading digit that are written positionally. -/
def positional (lead : Int) : Bool := decide (-5 ≤ lead ∧ lead < 16)

def zeros (n : Nat) : String := String.ofList (List.replicate n '0')

/-- Digits with a point after the first `n`, with a zero where a side would be empty. -/
def pointed (digits : List Char) (n : Nat) : String :=
  let tail := digits.drop n
  String.ofList (digits.take n) ++ zeros (n - digits.length) ++ "."
    ++ (if tail.isEmpty then "0" else String.ofList tail)

def text (x : Binary64) : String :=
  let d := x.shortest
  let digits := d.digits.repr.toList
  let lead := d.exponent + digits.length - 1
  let body :=
    if positional lead then
      if lead < 0 then "0." ++ zeros ((-lead).toNat - 1) ++ String.ofList digits
      else pointed digits (lead.toNat + 1)
    else
      let fraction := if digits.length = 1 then "" else "." ++ String.ofList (digits.drop 1)
      let exponent := if lead < 0 then "e-" ++ (-lead).toNat.repr else "e+" ++ lead.toNat.repr
      String.ofList (digits.take 1) ++ fraction ++ exponent
  (if x.negative then "-" else "") ++ body

end Binary64

end ProviderProtocol
