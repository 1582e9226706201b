import ProviderProtocol.Number.Basic
/-!
# When numbers are equal

Equality of numbers is reflexive and symmetric.  It is transitive among integers and among floats
(`transitiveOn_form`), but not where both occur (`not_transitiveOn_all`): an integer next to a float is rounded first,
and several integers may round to one float.

Two integers are compared exactly.  It comes to the same to compare them as signed integers of 64 bits if both are
such, else as unsigned ones if both are such, and else after rounding (`equal_by_form`): this is left to a negative
integer next to one of at least `2 ^ 63`, and rounding keeps the sign of an integer and takes none but zero to zero
(`ofInt?_of_fits`).
-/
namespace ProviderProtocol

/-! ## Rounding integers -/

namespace Binary64

theorem roundQuotient_le (num den : Nat) : roundQuotient num den ≤ num / den + 1 := by
  unfold roundQuotient
  dsimp only
  split
  · exact Nat.le_succ _
  · split <;> omega

theorem rankOfRatio_one (n : Nat) : rankOfRatio n 1 =
    ((n <<< places).log2 - 52) * binade + roundQuotient (n <<< places) (1 <<< ((n <<< places).log2 - 52)) := by
  unfold rankOfRatio
  dsimp only
  rw [Nat.div_one]

theorem shiftLeft_places_ne_zero {n : Nat} (h : 0 < n) : n <<< places ≠ 0 := by
  rw [Nat.shiftLeft_eq]
  exact Nat.mul_ne_zero (Nat.pos_iff_ne_zero.1 h) (Nat.pos_iff_ne_zero.1 (Nat.two_pow_pos _))

theorem places_le_log2 {n : Nat} (h : 0 < n) : places ≤ (n <<< places).log2 := by
  rw [Nat.le_log2 (shiftLeft_places_ne_zero h), Nat.shiftLeft_eq]
  exact Nat.le_mul_of_pos_left _ h

theorem rankOfRatio_eq_zero_iff {n : Nat} : rankOfRatio n 1 = 0 ↔ n = 0 := by
  constructor
  · intro hzero
    rcases Nat.eq_zero_or_pos n with hn | hpos
    · exact hn
    have hlog := places_le_log2 hpos
    rw [rankOfRatio_one] at hzero
    simp only [places, binade] at hlog hzero
    omega
  · rintro rfl
    decide +kernel

/-- A natural number of 64 bits has a rank below the infinities. -/
theorem rankOfRatio_lt {n : Nat} (h : n < 18446744073709551616) : rankOfRatio n 1 < 9218868437227405312 := by
  rcases Nat.eq_zero_or_pos n with hn | hpos
  · rw [rankOfRatio_eq_zero_iff.2 hn]
    decide
  have hlow := places_le_log2 hpos
  have hhigh : (n <<< places).log2 < 64 + places := by
    rw [Nat.log2_lt (shiftLeft_places_ne_zero hpos), Nat.shiftLeft_eq, Nat.pow_add]
    exact Nat.mul_lt_mul_of_pos_right h (Nat.two_pow_pos _)
  rw [rankOfRatio_one, Nat.one_shiftLeft]
  generalize n <<< places = scaled at hlow hhigh ⊢
  have hquot : scaled / 2 ^ (scaled.log2 - 52) < 2 ^ 53 := by
    refine Nat.div_lt_of_lt_mul ?_
    have hexp : scaled.log2 - 52 + 53 = scaled.log2 + 1 := by
      simp only [places] at hlow
      omega
    rw [← Nat.pow_add, hexp]
    exact Nat.lt_log2_self
  have hround := roundQuotient_le scaled (2 ^ (scaled.log2 - 52))
  have hshift : (scaled.log2 - 52) * binade ≤ 1085 * binade := by
    refine Nat.mul_le_mul_right _ ?_
    simp only [places] at hhigh
    omega
  simp only [binade] at hshift ⊢
  omega

/-- An integer of 64 bits is rounded to a number of its own sign, and to zero only if it is zero. -/
theorem ofInt?_of_fits {n : Int} (h : Number.Fits n) :
    ∃ x, ofInt? n = some x ∧ x.negative = decide (n < 0) ∧ (x.isZero = true ↔ n = 0) := by
  have hlt : rankOfRatio n.natAbs 1 < 9218868437227405312 := rankOfRatio_lt (by omega)
  have hzero : rankOfRatio n.natAbs 1 = 0 ↔ n = 0 := rankOfRatio_eq_zero_iff.trans Int.natAbs_eq_zero
  exact ⟨⟨decide (n < 0), ⟨rankOfRatio n.natAbs 1, hlt⟩⟩, dif_pos hlt, rfl, beq_iff_eq.trans hzero⟩

/-! ## Equality of floats -/

theorem equal_comm (x y : Binary64) : x.equal y = y.equal x := by
  unfold equal
  rw [BEq.comm (a := x), Bool.and_comm]

theorem equal_iff {x y : Binary64} : x.equal y = true ↔ x = y ∨ x.isZero = true ∧ y.isZero = true := by
  rw [equal, Bool.or_eq_true, beq_iff_eq, Bool.and_eq_true]

theorem equal_trans {x y z : Binary64} (hxy : x.equal y = true) (hyz : y.equal z = true) : x.equal z = true := by
  rcases equal_iff.1 hxy with rfl | ⟨hx, hy⟩
  · exact hyz
  · rcases equal_iff.1 hyz with rfl | ⟨_, hz⟩
    · exact hxy
    · exact equal_iff.2 (.inr ⟨hx, hz⟩)

end Binary64

namespace Number

/-! ## Equality of numbers -/

def isInteger : Number → Bool
  | .int _ _ => true
  | .float _ => false

theorem equal_comm (a b : Number) : a.equal b = b.equal a := by
  cases a with
  | int m hm =>
    cases b with
    | int n hn => exact BEq.comm
    | float y  => exact Binary64.equal_comm _ _
  | float x  => cases b <;> exact Binary64.equal_comm _ _

theorem identical_self (a : Number) : a.identical a = true := by
  cases a with
  | int m hm => exact beq_iff_eq.2 rfl
  | float x  => exact Binary64.equal_iff.2 (.inl rfl)

theorem equal_of_identical {a b : Number} (h : a.identical b = true) : a.equal b = true := by
  cases a with
  | int m hm =>
    cases b with
    | int n hn => exact h
    | float y  => cases h
  | float x  =>
    cases b with
    | int n hn => cases h
    | float y  => exact h

/-- Among the numbers with the property, those that are equal to one number are equal. -/
def TransitiveOn (p : Number → Prop) : Prop :=
  ∀ a b c, p a → p b → p c → a.equal b = true → b.equal c = true → a.equal c = true

theorem transitiveOn_integers : TransitiveOn fun n => n.isInteger = true := by
  intro a b c ha hb hc hab hbc
  cases a with
  | float x  => cases ha
  | int k hk =>
    cases b with
    | float y  => cases hb
    | int m hm =>
      cases c with
      | float z  => cases hc
      | int n hn => exact beq_iff_eq.2 ((beq_iff_eq.1 hab).trans (beq_iff_eq.1 hbc))

theorem transitiveOn_floats : TransitiveOn fun n => n.isInteger = false := by
  intro a b c ha hb _ hab hbc
  cases a with
  | int k hk => cases ha
  | float x  =>
    cases b with
    | int m hm => cases hb
    | float y  => exact Binary64.equal_trans hab hbc

theorem transitiveOn_form : ∀ form, TransitiveOn fun n => n.isInteger = form
  | true  => transitiveOn_integers
  | false => transitiveOn_floats

/-! Of two neighbouring integers one has no float of its own. -/

/-- `2 ^ 53`. -/
def wide : Number := .int 9007199254740992 (by decide)

/-- `2 ^ 53`, as a float. -/
def wideFloat : Number := .float ⟨false, ⟨4845873199050653696, by decide⟩⟩

/-- `2 ^ 53 + 1`, which is rounded to `2 ^ 53`. -/
def wideNext : Number := .int 9007199254740993 (by decide)

theorem not_transitiveOn_all : ¬ TransitiveOn fun _ => True := by
  intro h
  have hequal : wideNext.equal wide = true :=
    h wideNext wideFloat wide trivial trivial trivial (by decide +kernel) (by decide +kernel)
  exact absurd hequal (by decide)

/-! ## Comparing by form -/

/-- The number as a signed integer of 64 bits. -/
def signed? : Number → Option Int
  | .int n _ => if n ≤ 9223372036854775807 then some n else none
  | .float _ => none

/-- The number as an unsigned integer of 64 bits. -/
def unsigned? : Number → Option Int
  | .int n _ => if 0 ≤ n then some n else none
  | .float _ => none

theorem signed?_int {n : Int} (h : Fits n) : (int n h).signed? = none ↔ 9223372036854775807 < n := by
  simp [signed?]

theorem unsigned?_int {n : Int} (h : Fits n) : (int n h).unsigned? = none ↔ n < 0 := by
  simp [unsigned?]

theorem eq_int_of_signed? {a : Number} {m : Int} (h : a.signed? = some m) : ∃ hm, a = int m hm := by
  cases a with
  | float x  => cases h
  | int n hn =>
    obtain ⟨-, rfl⟩ := Option.ite_some_none_eq_some.1 h
    exact ⟨hn, rfl⟩

theorem eq_int_of_unsigned? {a : Number} {m : Int} (h : a.unsigned? = some m) : ∃ hm, a = int m hm := by
  cases a with
  | float x  => cases h
  | int n hn =>
    obtain ⟨-, rfl⟩ := Option.ite_some_none_eq_some.1 h
    exact ⟨hn, rfl⟩

/-- Two numbers compared as integers if both can be read as such. -/
def equalAs (read? : Number → Option Int) (otherwise : Bool) (a b : Number) : Bool :=
  match read? a, read? b with
  | some m, some n => m == n
  | _, _           => otherwise

theorem equalAs_eq {read? : Number → Option Int} {otherwise r : Bool} {a b : Number}
    (hboth : ∀ m n, read? a = some m → read? b = some n → (m == n) = r)
    (hother : read? a = none ∨ read? b = none → otherwise = r) : equalAs read? otherwise a b = r := by
  unfold equalAs
  cases ha : read? a with
  | none   => exact hother (.inl ha)
  | some m =>
    cases hb : read? b with
    | none   => exact hother (.inr hb)
    | some n => exact hboth m n ha hb

/-- A negative integer and a positive one differ after rounding as well. -/
theorem rounded_of_signs {m n : Int} (hm : Fits m) (hn : Fits n) (hneg : m < 0) (hpos : 0 < n) :
    (int m hm).toBinary64.equal (int n hn).toBinary64 = false := by
  obtain ⟨x, hx, hxneg, -⟩ := Binary64.ofInt?_of_fits hm
  obtain ⟨y, hy, hyneg, hyzero⟩ := Binary64.ofInt?_of_fits hn
  rw [toBinary64, toBinary64, hx, hy, Option.getD_some, Option.getD_some, Bool.eq_false_iff, Ne, Binary64.equal_iff]
  rintro (rfl | ⟨_, hzero⟩)
  · rw [hxneg, decide_eq_decide] at hyneg
    omega
  · have := hyzero.1 hzero
    omega

/-- **Signed if both are, else unsigned if both are, else rounded**: to compare numbers so comes to the same. -/
theorem equal_by_form (a b : Number) :
    a.equal b = equalAs signed? (equalAs unsigned? (a.toBinary64.equal b.toBinary64) a b) a b := by
  symm
  refine equalAs_eq (fun m n hm hn => ?_) fun hsigned => equalAs_eq (fun m n hm hn => ?_) fun hunsigned => ?_
  · obtain ⟨_, rfl⟩ := eq_int_of_signed? hm
    obtain ⟨_, rfl⟩ := eq_int_of_signed? hn
    rfl
  · obtain ⟨_, rfl⟩ := eq_int_of_unsigned? hm
    obtain ⟨_, rfl⟩ := eq_int_of_unsigned? hn
    rfl
  · cases a with
    | float x  => cases b <;> rfl
    | int m hm =>
      cases b with
      | float y  => rfl
      | int n hn =>
        rw [signed?_int, signed?_int] at hsigned
        rw [unsigned?_int, unsigned?_int] at hunsigned
        have hne : (int m hm).equal (int n hn) = false := beq_false_of_ne (by omega)
        rw [hne]
        -- One of them is negative and the other too large for a sign.
        by_cases hneg : m < 0
        · exact rounded_of_signs hm hn hneg (by omega)
        · rw [Binary64.equal_comm]
          exact rounded_of_signs hn hm (by omega) (by omega)

end Number

end ProviderProtocol
