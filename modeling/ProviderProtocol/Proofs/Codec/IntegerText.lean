import Mathlib.Data.Nat.Digits.Defs
import ProviderProtocol.Proofs.Codec.Reading
/-!
# Integers in strings

Where a number is expected, a string may hold an integer: a sign, if there is one, and decimal digits, with any number
of zeros in front.  The text is read as this integer if it fits 64 bits, with a sign or without, and only else as a float
(`Number.ofText?_text`).  No other text is read as the integer (`Number.ofText?_eq_int_iff`).

Both readers come to the same number in this way, so that an integer and its texts are one and the same in a payload of
either format (`integer_texts_are_read_as_integers`).
-/
namespace ProviderProtocol

inductive IntegerText.Sign
  | plus
  | minus
  deriving DecidableEq

/-- An integer as it may be written: there is at least one digit. -/
structure IntegerText where
  sign : Option IntegerText.Sign
  digits : List Char
  digits_ne_nil : digits ≠ []
  isDigit : ∀ c ∈ digits, c.isDigit = true

namespace IntegerText

def Sign.char : Sign → Char
  | .plus  => '+'
  | .minus => '-'

def chars (x : IntegerText) : List Char := x.sign.toList.map Sign.char ++ x.digits

def text (x : IntegerText) : String := String.ofList x.chars

/-- The number whose decimal digits these are; the last one counts once. -/
def magnitude (x : IntegerText) : Nat := Nat.ofDigits 10 (x.digits.map fun c => c.toNat - '0'.toNat).reverse

def negative (x : IntegerText) : Bool := x.sign == some .minus

/-- The integer that is written. -/
def value (x : IntegerText) : Int := if x.negative then -(x.magnitude : Int) else x.magnitude

/-- The text is one of those that write the integer. -/
def Writes (s : String) (n : Int) : Prop := ∃ x : IntegerText, x.text = s ∧ x.value = n

end IntegerText

/-! ## Numerals without a point and an exponent -/

namespace Numeral

/-- Whether there is a minus in front, and the text behind the sign. -/
def splitSign : List Char → Bool × List Char
  | '+' :: r => (false, r)
  | '-' :: r => (true, r)
  | r        => (false, r)

/-- A numeral whose sign, if any, has been read, and that fills the rest of the text. -/
def ofUnsigned? (negative : Bool) (body : List Char) : Option Numeral :=
  let (whole, rest) := spanDigits body
  let (fraction, rest) := match rest with
    | '.' :: r => (some (spanDigits r).1, (spanDigits r).2)
    | r        => (none, r)
  if whole.isEmpty && (fraction.getD []).isEmpty then none
  else match readExponent? rest with
    | some (exponent, []) => some ⟨negative, whole, fraction, exponent⟩
    | _                   => none

theorem ofChars?_eq (s : List Char) : ofChars? s = ofUnsigned? (splitSign s).1 (splitSign s).2 := rfl

theorem splitSign_digits {digits : List Char} (hdigits : ∀ c ∈ digits, c.isDigit = true) :
    splitSign digits = (false, digits) := by
  unfold splitSign
  split
  · exact absurd (hdigits '+' List.mem_cons_self) (by decide)
  · exact absurd (hdigits '-' List.mem_cons_self) (by decide)
  · rfl

theorem ofUnsigned?_digits (negative : Bool) {digits : List Char} (hne : digits ≠ [])
    (hdigits : ∀ c ∈ digits, c.isDigit = true) :
    ofUnsigned? negative digits = some ⟨negative, digits, none, none⟩ := by
  have hspan : spanDigits digits = (digits, []) := by
    rw [spanDigits, List.takeWhile_eq_self_iff.2 hdigits, List.dropWhile_eq_nil_iff.2 hdigits]
  have hfull : digits.isEmpty = false := List.isEmpty_eq_false_iff.2 hne
  simp [ofUnsigned?, hspan, hfull, readExponent?]

theorem eq_nil_of_readExponent? {rest : List Char} (h : readExponent? rest = some (none, [])) : rest = [] := by
  cases rest with
  | nil       => rfl
  | cons c cs =>
    -- a letter is an exponent or an error, and anything else is still there
    unfold readExponent? at h
    dsimp only at h
    by_cases hletter : c = 'e' ∨ c = 'E'
    · rw [if_pos hletter] at h
      split at h <;> cases h
    · rw [if_neg hletter] at h
      cases h

/-- What is read as an integer is digits from end to end. -/
theorem digits_of_ofUnsigned? {negative : Bool} {body : List Char} {x : Numeral}
    (h : ofUnsigned? negative body = some x) (hx : x.isInteger = true) :
    x = ⟨negative, body, none, none⟩ ∧ body ≠ [] ∧ ∀ c ∈ body, c.isDigit = true := by
  unfold ofUnsigned? spanDigits at h
  dsimp only at h
  split at h
  · -- a point stands behind the digits
    split at h
    · cases h
    split at h
    · cases h
      cases hx
    · cases h
  · -- no point, and then no exponent either
    split at h
    · cases h
    · rename_i hfull
      split at h
      · rename_i exponent hexponent
        cases h
        have hnone : exponent = none := by simpa [isInteger] using hx
        have hrest : body.dropWhile Char.isDigit = [] := eq_nil_of_readExponent? (hnone ▸ hexponent)
        have hdigits : ∀ c ∈ body, c.isDigit = true := List.dropWhile_eq_nil_iff.1 hrest
        rw [List.takeWhile_eq_self_iff.2 hdigits] at hfull ⊢
        exact ⟨by rw [hnone], by simpa using hfull, hdigits⟩
      · cases h

end Numeral

namespace IntegerText

/-- The text taken apart. -/
def numeral (x : IntegerText) : Numeral := ⟨x.negative, x.digits, none, none⟩

theorem splitSign_chars (x : IntegerText) : Numeral.splitSign x.chars = (x.negative, x.digits) := by
  obtain ⟨_ | _ | _, digits, hne, hdigits⟩ := x
  · exact Numeral.splitSign_digits hdigits
  · rfl
  · rfl

theorem ofChars?_chars (x : IntegerText) : Numeral.ofChars? x.chars = some x.numeral := by
  rw [Numeral.ofChars?_eq, splitSign_chars]
  exact Numeral.ofUnsigned?_digits x.negative x.digits_ne_nil x.isDigit

/-- Every text begins with a sign, if only with none. -/
theorem exists_sign (s : List Char) : ∃ sign : Option Sign,
    s = sign.toList.map Sign.char ++ (Numeral.splitSign s).2 ∧ (Numeral.splitSign s).1 = (sign == some .minus) := by
  unfold Numeral.splitSign
  split
  · exact ⟨some .plus, rfl, rfl⟩
  · exact ⟨some .minus, rfl, rfl⟩
  · exact ⟨none, rfl, rfl⟩

theorem exists_of_ofChars? {s : List Char} {x : Numeral} (h : Numeral.ofChars? s = some x)
    (hx : x.isInteger = true) : ∃ y : IntegerText, y.chars = s ∧ y.numeral = x := by
  obtain ⟨sign, hs, hsign⟩ := exists_sign s
  obtain ⟨rfl, hne, hdigits⟩ := Numeral.digits_of_ofUnsigned? (Numeral.ofChars?_eq s ▸ h) hx
  exact ⟨⟨sign, _, hne, hdigits⟩, hs.symm, by rw [hsign]; rfl⟩

/-! ## The integer -/

/-- The digits are taken in from the front, and each weighs ten times the next. -/
theorem valueOf_digits (x : IntegerText) : Numeral.valueOf x.digits = x.magnitude := by
  rw [magnitude, Nat.ofDigits_eq_foldr, List.foldr_reverse, List.foldl_map]
  simp [Numeral.valueOf, Nat.add_comm]

theorem wholeValue_numeral (x : IntegerText) : x.numeral.wholeValue = x.value := by
  rw [Numeral.wholeValue, numeral, valueOf_digits]
  rfl

end IntegerText

namespace Number

theorem ofText?_text (x : IntegerText) : ofText? x.text = (ofInt? x.value).or (x.numeral.nearest?.map .float) := by
  have hinteger : x.numeral.isInteger = true := rfl
  rw [ofText?, IntegerText.text, String.toList_ofList, IntegerText.ofChars?_chars, Option.bind_eq_bind,
    Option.bind_some, if_pos hinteger, IntegerText.wholeValue_numeral]
  cases ofInt? x.value with
  | some n => rfl
  | none   => cases x.numeral.nearest? <;> rfl

/-- **A text is read as an integer exactly if it writes that integer.** -/
theorem ofText?_eq_int_iff {s : String} {n : Int} (h : Fits n) :
    ofText? s = some (.int n h) ↔ IntegerText.Writes s n := by
  constructor
  · intro hs
    obtain ⟨numeral, hnumeral, hread⟩ := Option.bind_eq_some_iff.1 hs
    by_cases hinteger : numeral.isInteger = true
    · obtain ⟨x, hchars, rfl⟩ := IntegerText.exists_of_ofChars? hnumeral hinteger
      have htext : x.text = s := by rw [IntegerText.text, hchars, String.ofList_toList]
      refine ⟨x, htext, ?_⟩
      rw [← htext, ofText?_text] at hs
      by_cases hfits : Fits x.value
      · rw [ofInt?, dif_pos hfits] at hs
        cases hs
        rfl
      · rw [ofInt?, dif_neg hfits] at hs
        obtain ⟨y, -, hy⟩ := Option.map_eq_some_iff.1 hs
        cases hy
    · rw [if_neg hinteger] at hread
      obtain ⟨y, -, hy⟩ := Option.bind_eq_some_iff.1 hread
      cases hy
  · rintro ⟨x, rfl, rfl⟩
    rw [ofText?_text, ofInt?, dif_pos h]
    rfl

end Number

/-! ## Payloads that hold an integer or its text -/

namespace Payload

/-- The payload is this document, as msgpack or else as JSON. -/
inductive Holds (p : Payload) (j : Json) : Prop
  | msgpack : Msgpack.read? Msgpack.depthBudget p.msgpack = some (j.toMsgpack, []) → Holds p j
  | json : p.msgpack = [] → Json.ofBytes? p.json = some j → Holds p j

theorem holds_write {j : Json} (hj : j.toMsgpack.Writable) (hheight : j.toMsgpack.height ≤ Msgpack.depthBudget) :
    Holds ⟨j.toMsgpack.write, []⟩ j := by
  have hread := Msgpack.read?_write j.toMsgpack Msgpack.depthBudget [] hj hheight
  rw [List.append_nil] at hread
  exact .msgpack hread

theorem holds_text {j : Json} (hj : j.Integral) (htabular : j.Tabular) (hdepth : j.depth ≤ Json.depthLimit) :
    Holds ⟨[], Text.Utf8.encode j.text⟩ j :=
  .json rfl (Json.ofBytes?_text hj htabular hdepth)

/-- A document has one value for a type, in whatever format it comes. -/
theorem decode_eq_ok_iff_of_holds {p : Payload} {j : Json} (h : p.Holds j) (t : Ty) (v : Value) :
    decode t (some p) = .ok v ↔ Value.ofJson t j = .ok v := by
  cases h with
  | msgpack hread     =>
    rw [decode_of_read? hread]
    exact ((Value.ofJsonAt_agrees [] t j).ok_iff v).symm
  | json hempty hread => rw [decode_of_ofBytes? hempty hread]

end Payload

theorem Value.ofJsonAt_text {s : String} {n : Int} (hs : IntegerText.Writes s n) (h : Number.Fits n) (path : Path) :
    ofJsonAt path .number (.string s) = .ok (.ofNumber (.int n h)) := by
  show ofNumeralText path .number (some s) = _
  rw [ofNumeralText, Option.bind_some, (Number.ofText?_eq_int_iff h).2 hs]
  rfl

/-- **A text of an integer is read as the integer**, wherever it stands in a document of either format, and from a
payload of either format.  It is read in full, never as a float. -/
theorem integer_texts_are_read_as_integers {s : String} {n : Int} (hs : IntegerText.Writes s n) (h : Number.Fits n) :
    (∀ path, Value.ofMsgpack path .number (.ofText s) = .ok (.ofNumber (.int n h)) ∧
      Value.ofMsgpack path .number (.int n) = .ok (.ofNumber (.int n h))) ∧
    (∀ path, Value.ofJsonAt path .number (.string s) = .ok (.ofNumber (.int n h)) ∧
      Value.ofJsonAt path .number (.number (.int n h)) = .ok (.ofNumber (.int n h))) ∧
    ∀ p : Payload, p.Holds (.string s) ∨ p.Holds (.number (.int n h)) →
      Payload.decode .number (some p) = .ok (.ofNumber (.int n h)) := by
  have htext := Value.ofJsonAt_text hs h
  have hnative : ∀ path, Value.ofJsonAt path .number (.number (.int n h)) = .ok (.ofNumber (.int n h)) := fun _ => rfl
  refine ⟨fun path => ⟨?_, ?_⟩, fun path => ⟨htext path, hnative path⟩, ?_⟩
  · exact ((Value.ofJsonAt_agrees path .number (.string s)).ok_iff _).1 (htext path)
  · exact ((Value.ofJsonAt_agrees path .number (.number (.int n h))).ok_iff _).1 (hnative path)
  · rintro p (hp | hp)
    · exact (Payload.decode_eq_ok_iff_of_holds hp .number _).2 (htext [])
    · exact (Payload.decode_eq_ok_iff_of_holds hp .number _).2 (hnative [])

/-! ### The bounds

The last integers that fit, and the first one that needs the 64th bit, some of them with a sign or zeros in front. -/

namespace IntegerText

/-- The digits of a number behind some zeros. -/
def padded (sign : Option Sign) (zeros n : Nat) : IntegerText where
  sign := sign
  digits := List.replicate zeros '0' ++ Nat.toDigits 10 n
  digits_ne_nil := List.append_ne_nil_of_right_ne_nil _ Nat.toDigits_ne_nil
  isDigit c hc := by
    rcases List.mem_append.1 hc with hzero | hdigit
    · rw [List.eq_of_mem_replicate hzero]
      rfl
    · exact Nat.isDigit_of_mem_toDigits (by decide) (by decide) hdigit

theorem valueOf_zeros_append (digits : List Char) (zeros : Nat) :
    Numeral.valueOf (List.replicate zeros '0' ++ digits) = Numeral.valueOf digits := by
  induction zeros with
  | zero          => rfl
  | succ zeros ih =>
    rw [List.replicate_succ, List.cons_append]
    exact ih

theorem magnitude_padded (sign : Option Sign) (zeros n : Nat) : (padded sign zeros n).magnitude = n := by
  rw [← valueOf_digits, padded, valueOf_zeros_append, Json.valueOf_toDigits]

theorem value_padded (sign : Option Sign) (zeros n : Nat) :
    (padded sign zeros n).value = if sign == some .minus then -(n : Int) else n := by
  rw [value, magnitude_padded]
  rfl

end IntegerText

theorem integer_texts_are_read_as_integers_bounds :
    Payload.decode .number (some ⟨[], Text.Utf8.encode (Json.string "9223372036854775807").text⟩) =
        .ok (.ofNumber (.int 9223372036854775807 (by decide))) ∧
      Payload.decode .number (some ⟨[], Text.Utf8.encode (Json.string "+009223372036854775808").text⟩) =
        .ok (.ofNumber (.int 9223372036854775808 (by decide))) ∧
      Payload.decode .number (some ⟨(Msgpack.int 9223372036854775808).write, []⟩) =
        .ok (.ofNumber (.int 9223372036854775808 (by decide))) ∧
      Payload.decode .number (some ⟨(Msgpack.ofText "18446744073709551615").write, []⟩) =
        .ok (.ofNumber (.int 18446744073709551615 (by decide))) ∧
      Payload.decode .number (some ⟨(Msgpack.ofText "-09223372036854775808").write, []⟩) =
        .ok (.ofNumber (.int (-9223372036854775808) (by decide))) := by
  have hjson : ∀ s : String, Payload.Holds ⟨[], Text.Utf8.encode (Json.string s).text⟩ (.string s) :=
    fun _ => Payload.holds_text trivial trivial (Nat.zero_le _)
  have hsmall : 1 ≤ Msgpack.depthBudget ∧ 3 ≤ Msgpack.depthBudget := by decide
  have htree : ∀ s : String, (Text.Utf8.encode s).length < 2 ^ 32 →
      Payload.Holds ⟨(Msgpack.ofText s).write, []⟩ (.string s) :=
    fun s hs => Payload.holds_write (j := .string s) hs hsmall.2
  have hfits : Number.Fits 9223372036854775808 := by decide
  have hnative : Payload.Holds ⟨(Msgpack.int 9223372036854775808).write, []⟩ (.number (.int _ hfits)) :=
    Payload.holds_write (j := .number (.int _ hfits)) hfits hsmall.1
  have hlast : IntegerText.Writes "9223372036854775807" 9223372036854775807 :=
    ⟨.padded none 0 9223372036854775807, by decide, IntegerText.value_padded ..⟩
  have hnext : IntegerText.Writes "+009223372036854775808" 9223372036854775808 :=
    ⟨.padded (some .plus) 2 9223372036854775808, by decide, IntegerText.value_padded ..⟩
  have hgreatest : IntegerText.Writes "18446744073709551615" 18446744073709551615 :=
    ⟨.padded none 0 18446744073709551615, by decide, IntegerText.value_padded ..⟩
  have hleast : IntegerText.Writes "-09223372036854775808" (-9223372036854775808) :=
    ⟨.padded (some .minus) 1 9223372036854775808, by decide, IntegerText.value_padded ..⟩
  obtain ⟨-, -, next⟩ := integer_texts_are_read_as_integers hnext (by decide)
  refine ⟨?_, next _ (.inl (hjson _)), next _ (.inr hnative), ?_, ?_⟩
  · exact (integer_texts_are_read_as_integers hlast (by decide)).2.2 _ (.inl (hjson _))
  · exact (integer_texts_are_read_as_integers hgreatest (by decide)).2.2 _ (.inl (htree _ (by decide)))
  · exact (integer_texts_are_read_as_integers hleast (by decide)).2.2 _ (.inl (htree _ (by decide)))

end ProviderProtocol
