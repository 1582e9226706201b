/-!
# Finite binary64 numbers, exactly

A finite IEEE 754 binary64 number is a sign and a *rank*: its position among the magnitudes, counted from zero.
The rank is the exponent field followed by the fraction field, so the next larger magnitude has the next rank
and a carry out of the fraction needs no case of its own.  Infinities and NaNs have no rank and are no values of
this type.

Every finite magnitude is a natural multiple of the least subnormal `2 ^ -1074`; `magnitude` is that multiple.
Rounding (`ofRatio?`), products, quotients and comparison are therefore exact arithmetic on naturals, and no
machine float appears.
-/
namespace ProviderProtocol

structure Binary64 where
  negative : Bool
  rank : Fin 9218868437227405312
  deriving DecidableEq

namespace Binary64

/-- `2 ^ 52`: ranks that share an exponent. -/
def binade : Nat := 4503599627370496

/-- `2 ^ 63`: the weight of the sign bit. -/
def signWeight : Nat := 9223372036854775808

/-- The number of ranks, `2047 * 2 ^ 52`. -/
def rankLimit : Nat := 9218868437227405312

/-- Places of the least subnormal after the binary point. -/
def places : Nat := 1074

/-! ## Bits -/

def bits (x : Binary64) : Nat := (if x.negative then signWeight else 0) + x.rank.val

/-- The number with these 64 bits, if they are those of a finite number. -/
def ofBits? (bits : Nat) : Option Binary64 :=
  let rank := bits % signWeight
  if h : rank < 9218868437227405312 then some ⟨decide (signWeight ≤ bits), ⟨rank, h⟩⟩ else none

theorem ofBits?_bits (x : Binary64) : ofBits? x.bits = some x := by
  obtain ⟨s, r, hr⟩ := x
  have hm : (if s then signWeight else 0) + r < 2 * signWeight := by
    simp only [signWeight]; split <;> omega
  cases s
  · have h : r % signWeight = r := Nat.mod_eq_of_lt (by simp only [signWeight]; omega)
    have hlt : ¬ signWeight ≤ r := by simp only [signWeight]; omega
    simp [bits, ofBits?, h, hr, hlt]
  · have h : (signWeight + r) % signWeight = r := by simp only [signWeight]; omega
    simp [bits, ofBits?, h, hr]

/-! ## Magnitudes -/

/-- The magnitude at a rank, in units of the least subnormal; also defined just above the largest finite one. -/
def magnitudeAt (rank : Nat) : Nat :=
  if rank < binade then rank else (binade + rank % binade) <<< (rank / binade - 1)

def magnitude (x : Binary64) : Nat := magnitudeAt x.rank.val

def zero (negative : Bool) : Binary64 := ⟨negative, ⟨0, by decide⟩⟩

def isZero (x : Binary64) : Bool := x.rank.val == 0

def negate (x : Binary64) : Binary64 := { x with negative := !x.negative }

/-- Equality of the numbers: the two zeros are one number. -/
def equal (x y : Binary64) : Bool := x == y || (x.isZero && y.isZero)

/-! ## Rounding to nearest, ties to even -/

/-- `num / den` to the nearest natural, a half to the even one. -/
def roundQuotient (num den : Nat) : Nat :=
  let q := num / den
  let r := num % den
  if 2 * r < den then q else if den < 2 * r then q + 1 else q + q % 2

/-- The rank nearest to `num / den`, possibly beyond the finite ones. -/
def rankOfRatio (num den : Nat) : Nat :=
  let scaled := num <<< places
  let shift := Nat.log2 (scaled / den) - 52
  shift * binade + roundQuotient scaled (den <<< shift)

/-- The binary64 number nearest to `± num / den`; none if it rounds to an infinity. -/
def ofRatio? (negative : Bool) (num den : Nat) : Option Binary64 :=
  let rank := rankOfRatio num den
  if h : rank < 9218868437227405312 then some ⟨negative, ⟨rank, h⟩⟩ else none

def ofInt? (n : Int) : Option Binary64 := ofRatio? (decide (n < 0)) n.natAbs 1

/-- The product, rounded once. -/
def mul? (x y : Binary64) : Option Binary64 :=
  ofRatio? (x.negative != y.negative) (x.magnitude * y.magnitude) (1 <<< (2 * places))

/-- The quotient by a number other than zero, rounded once. -/
def div? (x y : Binary64) : Option Binary64 :=
  ofRatio? (x.negative != y.negative) x.magnitude y.magnitude

/-! ## Single precision

A finite binary32 number is a binary64 number, with the exponent's bias moved and its fraction widened. -/

/-- The number with these 32 bits of the single-precision format, if they are those of a finite number. -/
def ofSingleBits? (bits : Nat) : Option Binary64 :=
  let negative := decide (2147483648 ≤ bits)
  let exponent := bits / 8388608 % 256
  let fraction := bits % 8388608
  if exponent = 255 then none
  else if exponent = 0 then ofRatio? negative fraction (1 <<< 149)
  else ofRatio? negative ((8388608 + fraction) <<< exponent) (1 <<< 150)

end Binary64

end ProviderProtocol
