import ProviderProtocol.Json.Printer
import ProviderProtocol.Json.Reader
/-!
# JSON text: what is written is read back

The text of a value without floats is read back as a document that has the leaves, items and members of the value in
their order (`ofText?_text`).  Strings are read back character by character, whatever follows their closing quote;
of a numeral the end is found by what may follow a value (`Ends`).
-/
namespace ProviderProtocol.Json

/-- What follows a value in a text: nothing, or a comma or a bracket that closes what the value is in. -/
def Ends (rest : List Char) : Prop := ∀ c, rest.head? = some c → c = ',' ∨ c = ']' ∨ c = '\x7d'

theorem ends_cons {c : Char} (h : c = ',' ∨ c = ']' ∨ c = '\x7d') (rest : List Char) : Ends (c :: rest) := by
  intro d hd
  cases hd
  exact h

/-! ## Numerals -/

theorem spanDigits_append {digits rest : List Char} (hd : ∀ c ∈ digits, c.isDigit = true) (hr : Ends rest) :
    Numeral.spanDigits (digits ++ rest) = (digits, rest) := by
  have hstop : rest.takeWhile Char.isDigit = [] ∧ rest.dropWhile Char.isDigit = rest := by
    cases rest with
    | nil       => exact ⟨rfl, rfl⟩
    | cons c cs =>
      have hc : c.isDigit = false := by
        rcases hr c rfl with rfl | rfl | rfl <;> rfl
      rw [List.takeWhile_cons, List.dropWhile_cons, hc]
      exact ⟨rfl, rfl⟩
  rw [Numeral.spanDigits, List.takeWhile_append_of_pos hd, List.dropWhile_append_of_pos hd, hstop.1, hstop.2,
    List.append_nil]

theorem readExponent?_of_ends {rest : List Char} (hr : Ends rest) : Numeral.readExponent? rest = some (none, rest) := by
  cases rest with
  | nil       => rfl
  | cons c cs =>
    have hc : ¬ (c = 'e' ∨ c = 'E') := by
      rcases hr c rfl with rfl | rfl | rfl <;> decide
    unfold Numeral.readExponent?
    exact if_neg hc

theorem digitChar_ne_zero {d : Nat} (h0 : d ≠ 0) (h : d < 10) : Nat.digitChar d ≠ '0' := by
  have hall : ∀ d < 10, d ≠ 0 → Nat.digitChar d ≠ '0' := by decide
  exact hall d h h0

/-- A number of more than one digit does not begin with a zero. -/
theorem head?_toDigits {n : Nat} (h : 10 ≤ n) : (Nat.toDigits 10 n).head? ≠ some '0' := by
  induction n using Nat.strongRecOn with
  | ind n ih =>
    rw [Nat.toDigits_of_base_le (by decide) h]
    by_cases hq : n / 10 < 10
    · rw [Nat.toDigits_of_lt_base hq]
      have hne : Nat.digitChar (n / 10) ≠ '0' := digitChar_ne_zero (by omega) hq
      simpa using hne
    · rw [List.head?_append, List.head?_eq_some_head Nat.toDigits_ne_nil, Option.some_or, ← List.head?_eq_some_head]
      exact ih (n / 10) (by omega) (by omega)

theorem readNumeral?_toDigits (negative : Bool) (n : Nat) {rest : List Char} (hr : Ends rest) :
    readNumeral? negative (Nat.toDigits 10 n ++ rest) = some (⟨negative, Nat.toDigits 10 n, none, none⟩, rest) := by
  have hdigits : ∀ c ∈ Nat.toDigits 10 n, c.isDigit = true :=
    fun c hc => Nat.isDigit_of_mem_toDigits (by decide) (by decide) hc
  have hguard : (!(Nat.toDigits 10 n).isEmpty &&
      ((Nat.toDigits 10 n).length == 1 || (Nat.toDigits 10 n).head? != some '0')) = true := by
    have hne : (Nat.toDigits 10 n).isEmpty = false := List.isEmpty_eq_false_iff.2 Nat.toDigits_ne_nil
    rw [hne]
    by_cases h : n < 10
    · rw [Nat.toDigits_of_lt_base h]
      rfl
    · have hhead : ((Nat.toDigits 10 n).head? != some '0') = true := bne_iff_ne.2 (head?_toDigits (by omega))
      rw [hhead, Bool.or_true]
      rfl
  have hfraction : ∀ r, rest ≠ '.' :: r := by
    rintro r rfl
    rcases hr '.' rfl with h | h | h <;> cases h
  unfold readNumeral?
  rw [spanDigits_append hdigits hr]
  refine Option.bind_eq_some_iff.2 ⟨(), if_pos hguard, ?_⟩
  dsimp only
  split
  · exact absurd rfl (hfraction _)
  · refine Option.bind_eq_some_iff.2 ⟨(none, rest), rfl, ?_⟩
    exact Option.bind_eq_some_iff.2 ⟨(none, rest), readExponent?_of_ends hr, rfl⟩

theorem valueOf_toDigits (n : Nat) : Numeral.valueOf (Nat.toDigits 10 n) = n := by
  have h : Nat.ofDigitChars 10 (Nat.toDigits 10 n) 0 = n := Nat.ofDigitChars_ten_toDigits
  rw [Nat.ofDigitChars_eq_foldl] at h
  exact h

theorem ofNumeral?_toDigits {n : Int} (h : Number.Fits n) :
    Number.ofNumeral? ⟨decide (n < 0), Nat.toDigits 10 n.natAbs, none, none⟩ = some (.int n h) := by
  have hvalue : Numeral.wholeValue ⟨decide (n < 0), Nat.toDigits 10 n.natAbs, none, none⟩ = n := by
    unfold Numeral.wholeValue
    simp only [valueOf_toDigits, decide_eq_true_eq]
    split <;> omega
  have hzero : (decide (n < 0) && n == 0) = false := by
    by_cases hn : n < 0
    · rw [decide_eq_true hn, Bool.true_and]
      exact beq_eq_false_iff_ne.2 (by omega)
    · rw [decide_eq_false hn, Bool.false_and]
  unfold Number.ofNumeral?
  rw [hvalue, hzero, Number.ofInt?, dif_pos h]
  rfl

theorem toList_text_int {n : Int} (h : Number.Fits n) :
    (Number.int n h).text.toList = (if n < 0 then ['-'] else []) ++ Nat.toDigits 10 n.natAbs := by
  cases n with
  | ofNat m   =>
    have hsign : ¬ Int.ofNat m < 0 := Int.not_lt.2 (Int.natCast_nonneg m)
    show m.repr.toList = _
    rw [if_neg hsign, Nat.toList_repr]
    rfl
  | negSucc m =>
    show ("-" ++ (m + 1).repr).toList = _
    rw [if_pos (Int.negSucc_lt_zero m), String.toList_append, Nat.toList_repr]
    rfl

/-! ## Strings -/

/-- A hexadecimal digit at the end of an escape. -/
theorem hexUnit?_digitChar {k : Nat} (h : k < 16) :
    hexUnit? '0' '0' '0' (Nat.digitChar k) = some k ∧ hexUnit? '0' '0' '1' (Nat.digitChar k) = some (16 + k) := by
  have hall : ∀ k < 16, hexUnit? '0' '0' '0' (Nat.digitChar k) = some k ∧
      hexUnit? '0' '0' '1' (Nat.digitChar k) = some (16 + k) := by decide
  exact hall k h

/-- The piece stands for the character, whatever pieces follow. -/
def Piece.Denotes (p : Piece) (c : Char) : Prop := ∀ ps, joinPieces? (p :: ps) = (joinPieces? ps).map (c :: ·)

theorem Piece.denotes_char (c : Char) : (Piece.char c).Denotes c := fun _ => rfl

theorem Piece.denotes_unit {c : Char} (h : c.toNat < 32) : (Piece.unit c.toNat).Denotes c := by
  intro ps
  rw [joinPieces?.eq_def (.unit c.toNat :: ps)]
  dsimp only
  rw [if_neg (by omega), if_neg (by omega), Char.ofNat_toNat]

section

variable (rest : List Char)

theorem readPieces?_plainEscape {x c : Char} (h : plainEscape? x = some c) :
    readPieces? ('\\' :: x :: rest) = (readPieces? rest).map fun r => (.char c :: r.1, r.2) := by
  have hx : x ≠ 'u' := by
    rintro rfl
    cases h
  rw [readPieces?, h]
  · cases readPieces? rest <;> rfl
  · rintro _ _ _ _ _ rfl
    exact absurd rfl hx

theorem readPieces?_unit {a b c d : Char} {u : Nat} (h : hexUnit? a b c d = some u) :
    readPieces? ('\\' :: 'u' :: a :: b :: c :: d :: rest) = (readPieces? rest).map fun r => (.unit u :: r.1, r.2) := by
  rw [readPieces?, h]
  cases readPieces? rest <;> rfl

theorem readPieces?_raw {c : Char} (hquote : c ≠ '"') (hslash : c ≠ '\\') (h : 32 ≤ c.toNat) :
    readPieces? (c :: rest) = (readPieces? rest).map fun r => (.char c :: r.1, r.2) := by
  rw [readPieces?, if_neg (by omega)]
  · cases readPieces? rest <;> rfl
  · exact hquote
  · rintro _ _ _ _ _ rfl
    exact absurd rfl hslash
  · rintro _ _ rfl
    exact absurd rfl hslash

end

/-- One character is read back as one piece that stands for it. -/
theorem readPieces?_escapeChar (c : Char) : ∃ p : Piece, p.Denotes c ∧
    ∀ rest, readPieces? (escapeChar c ++ rest) = (readPieces? rest).map fun r => (p :: r.1, r.2) := by
  have hplain : ∀ x, plainEscape? x = some c → ∃ p : Piece, p.Denotes c ∧
      ∀ rest, readPieces? (['\\', x] ++ rest) = (readPieces? rest).map fun r => (p :: r.1, r.2) :=
    fun x hx => ⟨.char c, Piece.denotes_char c, fun rest => readPieces?_plainEscape rest hx⟩
  unfold escapeChar
  split
  · exact hplain '"' (by subst_vars; rfl)
  split
  · exact hplain '\\' (by subst_vars; rfl)
  split
  · exact hplain 'b' (by subst_vars; rfl)
  split
  · exact hplain 'f' (by subst_vars; rfl)
  split
  · exact hplain 'n' (by subst_vars; rfl)
  split
  · exact hplain 'r' (by subst_vars; rfl)
  split
  · exact hplain 't' (by subst_vars; rfl)
  split
  · rename_i h
    refine ⟨.unit c.toNat, Piece.denotes_unit (by omega), fun rest => ?_⟩
    exact readPieces?_unit rest (hexUnit?_digitChar h).1
  split
  · rename_i hlow h
    refine ⟨.unit c.toNat, Piece.denotes_unit h, fun rest => ?_⟩
    have hunit := (hexUnit?_digitChar (k := c.toNat - 16) (by omega)).2
    rw [show 16 + (c.toNat - 16) = c.toNat by omega] at hunit
    exact readPieces?_unit rest hunit
  · rename_i hquote hslash _ _ _ _ _ _ h
    exact ⟨.char c, Piece.denotes_char c, fun rest => readPieces?_raw rest hquote hslash (by omega)⟩

theorem readPieces?_escaped (rest : List Char) : ∀ cs : List Char,
    ∃ ps, readPieces? (cs.flatMap escapeChar ++ '"' :: rest) = some (ps, rest) ∧ joinPieces? ps = some cs
  | []      => ⟨[], by simp [readPieces?], rfl⟩
  | c :: cs => by
    obtain ⟨ps, hread, hjoin⟩ := readPieces?_escaped rest cs
    obtain ⟨p, hp, hescape⟩ := readPieces?_escapeChar c
    refine ⟨p :: ps, ?_, ?_⟩
    · rw [List.flatMap_cons, List.append_assoc, hescape, hread]
      rfl
    · rw [hp, hjoin]
      rfl

theorem readString?_escaped (s : String) (rest : List Char) :
    readString? (s.toList.flatMap escapeChar ++ '"' :: rest) = some (some s, rest) := by
  obtain ⟨ps, hread, hjoin⟩ := readPieces?_escaped rest s.toList
  rw [readString?, hread]
  show some ((joinPieces? ps).map String.ofList, rest) = some (some s, rest)
  rw [hjoin, Option.map_some, String.ofList_toList]

/-! ## Documents -/

mutual

/-- Every number in it is an integer. -/
def Integral : Json → Prop
  | .number (.float _) => False
  | .array items       => ItemsIntegral items
  | .object members    => MembersIntegral members
  | _                  => True

def ItemsIntegral : List Json → Prop
  | []      => True
  | j :: js => j.Integral ∧ ItemsIntegral js

def MembersIntegral : List (String × Json) → Prop
  | []           => True
  | (_, j) :: ms => j.Integral ∧ MembersIntegral ms

end

mutual

/-- The document in which a value is written. -/
def document : Json → Document
  | .null           => .null
  | .bool b         => .bool b
  | .number n       => .number (some n)
  | .string s       => .string (some s)
  | .array items    => .array (documentItems items)
  | .object members => .object (documentMembers members)

def documentItems : List Json → List Document
  | []      => []
  | j :: js => j.document :: documentItems js

def documentMembers : List (String × Json) → List (Option String × Document)
  | []              => []
  | (name, j) :: ms => (some name, j.document) :: documentMembers ms

end

/-! ### How a text begins, and how long it is -/

/-- A value begins neither with a blank nor with a bracket that closes. -/
def Opens (s : List Char) : Prop := ∃ c r, s = c :: r ∧ isBlank c = false ∧ c ≠ ']'

theorem skipBlank_cons {c : Char} (h : isBlank c = false) (r : List Char) : skipBlank (c :: r) = c :: r := by
  rw [skipBlank, List.dropWhile_cons, h]
  rfl

theorem isBlank_of_isDigit {c : Char} (h : c.isDigit = true) : isBlank c = false := by
  by_cases hc : c = ' ' ∨ c = '\t' ∨ c = '\n' ∨ c = '\r'
  · rcases hc with rfl | rfl | rfl | rfl <;> cases h
  · simpa [isBlank, and_assoc] using hc

theorem toDigits_cons (n : Nat) : ∃ d ds, Nat.toDigits 10 n = d :: ds ∧ d.isDigit = true := by
  cases h : Nat.toDigits 10 n with
  | nil       => exact absurd h Nat.toDigits_ne_nil
  | cons d ds =>
    refine ⟨d, ds, rfl, Nat.isDigit_of_mem_toDigits (b := 10) (n := n) (by decide) (by decide) ?_⟩
    rw [h]
    exact List.mem_cons_self

theorem opens_chars {j : Json} (hj : j.Integral) (rest : List Char) : Opens (j.chars rest) := by
  cases j with
  | null           => exact ⟨'n', _, rfl, rfl, by decide⟩
  | bool b         =>
    cases b with
    | true  => exact ⟨'t', _, rfl, rfl, by decide⟩
    | false => exact ⟨'f', _, rfl, rfl, by decide⟩
  | string s       => exact ⟨'"', _, rfl, rfl, by decide⟩
  | array items    => exact ⟨'[', _, rfl, rfl, by decide⟩
  | object members => exact ⟨'\x7b', _, rfl, rfl, by decide⟩
  | number n       =>
    cases n with
    | float x => exact hj.elim
    | int n h =>
      rw [chars, toList_text_int]
      by_cases hn : n < 0
      · rw [if_pos hn]
        exact ⟨'-', _, rfl, rfl, by decide⟩
      · obtain ⟨d, ds, hd, hdigit⟩ := toDigits_cons n.natAbs
        rw [if_neg hn, hd]
        refine ⟨d, _, rfl, isBlank_of_isDigit hdigit, ?_⟩
        rintro rfl
        cases hdigit

theorem length_lt_stringChars (s : String) (rest : List Char) : rest.length + 1 < (stringChars s rest).length := by
  rw [stringChars, List.length_cons, List.length_append, List.length_cons]
  omega

mutual

theorem length_lt_chars (rest : List Char) : ∀ {j : Json}, j.Integral → rest.length < (j.chars rest).length
  | .null, _ => by
    rw [chars, List.length_append]
    exact Nat.lt_add_of_pos_left (by decide)
  | .bool b, _ => by
    rw [chars, List.length_append]
    cases b <;> exact Nat.lt_add_of_pos_left (by decide)
  | .string s, _ => by
    have := length_lt_stringChars s rest
    rw [chars]
    omega
  | .number (.int n h), _ => by
    have hpos : 0 < (Nat.toDigits 10 n.natAbs).length := Nat.length_toDigits_pos
    rw [chars, toList_text_int, List.length_append, List.length_append]
    omega
  | .array items, hj => by
    have := length_le_itemsChars (']' :: rest) hj
    rw [chars, List.length_cons]
    rw [List.length_cons] at this
    omega
  | .object members, hj => by
    have := length_le_membersChars ('\x7d' :: rest) hj
    rw [chars, List.length_cons]
    rw [List.length_cons] at this
    omega

theorem length_le_itemsChars (rest : List Char) : ∀ {js : List Json}, ItemsIntegral js →
    rest.length ≤ (itemsChars js rest).length
  | [], _          => Nat.le_refl _
  | [j], h         => Nat.le_of_lt (length_lt_chars rest h.1)
  | j :: k :: js, h => by
    have hfirst := length_lt_chars (',' :: itemsChars (k :: js) rest) h.1
    have hmore := length_le_itemsChars rest h.2
    rw [itemsChars]
    rw [List.length_cons] at hfirst
    omega

theorem length_le_membersChars (rest : List Char) : ∀ {ms : List (String × Json)}, MembersIntegral ms →
    rest.length ≤ (membersChars ms rest).length
  | [], _                => Nat.le_refl _
  | [(name, j)], h       => by
    have hvalue := length_lt_chars rest h.1
    have hname := length_lt_stringChars name (':' :: j.chars rest)
    rw [membersChars]
    rw [List.length_cons] at hname
    omega
  | (name, j) :: m :: ms, h => by
    have hmore := length_le_membersChars rest h.2
    have hvalue := length_lt_chars (',' :: membersChars (m :: ms) rest) h.1
    have hname := length_lt_stringChars name (':' :: j.chars (',' :: membersChars (m :: ms) rest))
    rw [membersChars]
    rw [List.length_cons] at hname hvalue
    omega

end

/-! ### Reading back

Fuel for twice the length of the text is enough: each level of nesting takes two units and at least one character. -/

theorem readDocument?_digit {d : Char} (hd : d.isDigit = true) (fuel : Nat) (s : List Char) :
    readDocument? (fuel + 1) (d :: s) =
      (readNumeral? false (d :: s)).map fun r => (.number (Number.ofNumeral? r.1), r.2) := by
  rw [readDocument?, skipBlank_cons (isBlank_of_isDigit hd)]
  split
  all_goals first
    | rfl
    | (rename_i h; cases h; cases hd)

theorem readDocument?_int {n : Int} (h : Number.Fits n) (fuel : Nat) {rest : List Char} (hr : Ends rest) :
    readDocument? (fuel + 1) ((number (.int n h)).chars rest) = some (.number (some (.int n h)), rest) := by
  have hnumeral := readNumeral?_toDigits (decide (n < 0)) n.natAbs hr
  have hvalue := ofNumeral?_toDigits h
  rw [chars, toList_text_int]
  by_cases hn : n < 0
  · rw [decide_eq_true hn] at hnumeral hvalue
    rw [if_pos hn]
    show (readNumeral? true (Nat.toDigits 10 n.natAbs ++ rest)).map
      (fun r => (Document.number (Number.ofNumeral? r.1), r.2)) = _
    rw [hnumeral, Option.map_some, hvalue]
  · rw [decide_eq_false hn] at hnumeral hvalue
    obtain ⟨d, ds, hd, hdigit⟩ := toDigits_cons n.natAbs
    rw [hd] at hnumeral hvalue
    rw [if_neg hn, hd, List.nil_append, List.cons_append, readDocument?_digit hdigit, ← List.cons_append, hnumeral,
      Option.map_some, hvalue]

theorem readDocument?_array {s : List Char} (hs : Opens s) (fuel : Nat) :
    readDocument? (fuel + 1) ('[' :: s) = (readItems? fuel s).map fun r => (.array r.1, r.2) := by
  obtain ⟨c, r, rfl, hblank, hc⟩ := hs
  have hbracket : skipBlank ('[' :: c :: r) = '[' :: c :: r := skipBlank_cons (by decide) _
  simp only [readDocument?, hbracket, skipBlank_cons hblank]
  split
  · rename_i h
    cases h
    exact absurd rfl hc
  · rfl

theorem readMember?_of_value {fuel : Nat} {d : Document} {s rest : List Char}
    (h : readDocument? fuel s = some (d, rest)) (name : String) :
    readMember? (fuel + 1) (stringChars name (':' :: s)) = some ((some name, d), rest) := by
  rw [stringChars, readMember?, skipBlank_cons rfl]
  split
  · rename_i r hr
    cases hr
    rw [readString?_escaped]
    show (readDocument? fuel s).map _ = _
    rw [h]
    rfl
  · rename_i hother
    exact absurd rfl (hother _)

theorem membersChars_cons (m : String × Json) (ms : List (String × Json)) (rest : List Char) :
    ∃ s, membersChars (m :: ms) rest = '"' :: s := by
  cases ms with
  | nil       => exact ⟨_, rfl⟩
  | cons n ms => exact ⟨_, rfl⟩

mutual

theorem readDocument?_chars {rest : List Char} (hr : Ends rest) : ∀ {j : Json} {fuel : Nat}, j.Integral →
    2 * (j.chars rest).length ≤ fuel → readDocument? fuel (j.chars rest) = some (j.document, rest)
  | j, 0, hj, hf                         => by
    have := length_lt_chars rest hj
    omega
  | .null, fuel + 1, _, _                => rfl
  | .bool true, fuel + 1, _, _           => rfl
  | .bool false, fuel + 1, _, _          => rfl
  | .number (.int n h), fuel + 1, _, _   => readDocument?_int h fuel hr
  | .string s, fuel + 1, _, _            => by
    show (readString? (s.toList.flatMap escapeChar ++ '"' :: rest)).map _ = _
    rw [readString?_escaped]
    rfl
  | .array [], fuel + 1, _, _            => rfl
  | .array (j :: js), fuel + 1, hj, hf   => by
    have hopens : Opens (itemsChars (j :: js) (']' :: rest)) := by
      cases js with
      | nil       => exact opens_chars hj.1 _
      | cons k js => exact opens_chars hj.1 _
    rw [chars, List.length_cons] at hf
    rw [chars, readDocument?_array hopens, readItems?_chars rest (List.cons_ne_nil j js) hj (by omega)]
    rfl
  | .object [], fuel + 1, _, _           => rfl
  | .object (m :: ms), fuel + 1, hj, hf  => by
    rw [chars, List.length_cons] at hf
    have hmembers : readMembers? fuel (membersChars (m :: ms) ('\x7d' :: rest)) =
        some (documentMembers (m :: ms), rest) :=
      readMembers?_chars rest (List.cons_ne_nil m ms) hj (by omega)
    obtain ⟨s, hs⟩ := membersChars_cons m ms ('\x7d' :: rest)
    rw [chars, hs]
    show (readMembers? fuel ('"' :: s)).map _ = _
    rw [← hs, hmembers]
    rfl

theorem readItems?_chars (rest : List Char) : ∀ {js : List Json} {fuel : Nat}, js ≠ [] → ItemsIntegral js →
    2 * (itemsChars js (']' :: rest)).length + 1 ≤ fuel →
      readItems? fuel (itemsChars js (']' :: rest)) = some (documentItems js, rest)
  | [], _, hne, _, _               => absurd rfl hne
  | [j], fuel + 1, _, hj, hf       => by
    have hends : Ends (']' :: rest) := ends_cons (.inr (.inl rfl)) rest
    rw [itemsChars] at hf ⊢
    rw [readItems?, readDocument?_chars hends hj.1 (by omega)]
    rfl
  | j :: k :: js, fuel + 1, _, hj, hf => by
    have hends : Ends (',' :: itemsChars (k :: js) (']' :: rest)) := ends_cons (.inl rfl) _
    have hshorter := length_lt_chars (',' :: itemsChars (k :: js) (']' :: rest)) hj.1
    rw [itemsChars] at hf ⊢
    rw [List.length_cons] at hshorter
    rw [readItems?, readDocument?_chars hends hj.1 (by omega)]
    show (readItems? fuel (itemsChars (k :: js) (']' :: rest))).map _ = _
    rw [readItems?_chars rest (List.cons_ne_nil k js) hj.2 (by omega)]
    rfl

theorem readMembers?_chars (rest : List Char) : ∀ {ms : List (String × Json)} {fuel : Nat}, ms ≠ [] →
    MembersIntegral ms → 2 * (membersChars ms ('\x7d' :: rest)).length + 1 ≤ fuel →
      readMembers? fuel (membersChars ms ('\x7d' :: rest)) = some (documentMembers ms, rest)
  | [], _, hne, _, _                      => absurd rfl hne
  | [(name, j)], fuel, _, hj, hf         => by
    have hends : Ends ('\x7d' :: rest) := ends_cons (.inr (.inr rfl)) rest
    have hname := length_lt_stringChars name (':' :: j.chars ('\x7d' :: rest))
    rw [membersChars] at hf ⊢
    rw [List.length_cons] at hname
    obtain ⟨fuel, rfl⟩ : ∃ f, fuel = f + 2 := ⟨fuel - 2, by omega⟩
    rw [readMembers?, readMember?_of_value (readDocument?_chars hends hj.1 (by omega)) name]
    rfl
  | (name, j) :: m :: ms, fuel, _, hj, hf => by
    have hends : Ends (',' :: membersChars (m :: ms) ('\x7d' :: rest)) := ends_cons (.inl rfl) _
    have hvalue := length_lt_chars (',' :: membersChars (m :: ms) ('\x7d' :: rest)) hj.1
    have hname := length_lt_stringChars name (':' :: j.chars (',' :: membersChars (m :: ms) ('\x7d' :: rest)))
    rw [membersChars] at hf ⊢
    rw [List.length_cons] at hvalue hname
    obtain ⟨fuel, rfl⟩ : ∃ f, fuel = f + 2 := ⟨fuel - 2, by omega⟩
    rw [readMembers?, readMember?_of_value (readDocument?_chars hends hj.1 (by omega)) name]
    show (readMembers? (fuel + 1) (membersChars (m :: ms) ('\x7d' :: rest))).map _ = _
    rw [readMembers?_chars rest (List.cons_ne_nil m ms) hj.2 (by omega)]
    rfl

end

/-- **What is written is read back**, as a document with the same leaves, items and members in the same order. -/
theorem ofText?_text {j : Json} (hj : j.Integral) : Document.ofText? j.text = some j.document := by
  have hends : Ends [] := fun _ h => by cases h
  have hlist : j.text.toList = j.chars [] := String.toList_ofList
  unfold Document.ofText?
  dsimp only
  rw [hlist, readDocument?_chars hends hj (by omega)]
  rfl

end ProviderProtocol.Json
