import ProviderProtocol.Codec.Payload
import ProviderProtocol.Proofs.Msgpack.RoundTrip
/-!
# Msgpack payloads delimit themselves

A reader is `Delimited` if what it reads is settled by the bytes that it takes from the front, whatever follows them.
The property passes through every way in which the readers of msgpack are put together, so that it holds of `read?` at
any budget (`delimited_read?`): of a header because its lead byte alone says how many bytes of a number follow, and of a
body because its length is in the header.

So more bytes do not change what is read but are left over, and fewer bytes hold no value at all
(`payloads_delimit_themselves`).
-/
namespace ProviderProtocol

namespace Msgpack

/-- **What is read is settled by the bytes taken from the front.** -/
def Delimited (read : Bytes → Option (α × Bytes)) : Prop :=
  ∀ bytes a rest, read bytes = some (a, rest) →
    ∃ front, bytes = front ++ rest ∧ ∀ tail, read (front ++ tail) = some (a, tail)

namespace Delimited

variable {read : Bytes → Option (α × Bytes)}

/-- More bytes are left over. -/
theorem append (h : Delimited read) {bytes rest : Bytes} {a : α} (hread : read bytes = some (a, rest)) (tail : Bytes) :
    read (bytes ++ tail) = some (a, rest ++ tail) := by
  obtain ⟨front, rfl, hfront⟩ := h _ _ _ hread
  rw [List.append_assoc]
  exact hfront (rest ++ tail)

/-- If nothing was left over, then nothing is read from fewer bytes. -/
theorem eq_none_of_cut (h : Delimited read) {front cut : Bytes} {a : α} (hread : read (front ++ cut) = some (a, []))
    (hcut : cut ≠ []) : read front = none := by
  cases hfront : read front with
  | none   => rfl
  | some r =>
    obtain ⟨b, rest⟩ := r
    have hmore := h.append hfront cut
    rw [hread, Option.some.injEq, Prod.mk.injEq] at hmore
    have hnil : rest ++ cut = [] := hmore.2.symm
    exact absurd (List.append_eq_nil_iff.1 hnil).2 hcut

/-! ## How readers are put together -/

theorem fail : Delimited fun _ => (none : Option (α × Bytes)) := by
  intro bytes a rest h
  cases h

theorem pure (a : α) : Delimited fun bytes => some (a, bytes) := by
  intro bytes b rest h
  cases h
  exact ⟨[], rfl, fun tail => rfl⟩

theorem bind {next : α → Bytes → Option (β × Bytes)} (h : Delimited read) (hnext : ∀ a, Delimited (next a)) :
    Delimited fun bytes => (read bytes).bind fun r => next r.1 r.2 := by
  intro bytes b rest hb
  obtain ⟨⟨a, middle⟩, ha, hafter⟩ := Option.bind_eq_some_iff.1 hb
  obtain ⟨first, rfl, hfirst⟩ := h _ _ _ ha
  obtain ⟨second, rfl, hsecond⟩ := hnext a _ _ _ hafter
  refine ⟨first ++ second, (List.append_assoc ..).symm, fun tail => ?_⟩
  rw [List.append_assoc]
  show (read (first ++ (second ++ tail))).bind _ = _
  rw [hfirst]
  exact hsecond tail

/-- What is made of the result may not look at the bytes that are left. -/
theorem map (h : Delimited read) {f : α × Bytes → β × Bytes} (hf : ∀ a rest, f (a, rest) = ((f (a, [])).1, rest)) :
    Delimited fun bytes => (read bytes).map f := by
  intro bytes b rest hb
  obtain ⟨⟨a, left⟩, ha, hmade⟩ := Option.map_eq_some_iff.1 hb
  rw [hf, Prod.mk.injEq] at hmade
  obtain ⟨rfl, rfl⟩ := hmade
  obtain ⟨front, rfl, hfront⟩ := h _ _ _ ha
  refine ⟨front, rfl, fun tail => ?_⟩
  show (read (front ++ tail)).map f = _
  rw [hfront, Option.map_some, hf]

theorem ite {c : Prop} [Decidable c] {other : Bytes → Option (α × Bytes)} (h : c → Delimited read)
    (hother : ¬ c → Delimited other) : Delimited fun bytes => if c then read bytes else other bytes := by
  by_cases hc : c
  · simpa only [if_pos hc] using h hc
  · simpa only [if_neg hc] using hother hc

/-- A byte in front that decides how to go on. -/
theorem cons (hnil : read [] = none) (h : ∀ b, Delimited fun rest => read (b :: rest)) : Delimited read := by
  intro bytes a rest hread
  cases bytes with
  | nil            => cases hnil.symm.trans hread
  | cons b bytes =>
    obtain ⟨front, rfl, hfront⟩ := h b _ _ _ hread
    exact ⟨b :: front, rfl, hfront⟩

end Delimited

/-! ## Headers -/

theorem takeBytes?_eq_some : ∀ {n : Nat} {bytes front rest : Bytes}, takeBytes? n bytes = some (front, rest) →
    bytes = front ++ rest ∧ front.length = n
  | 0, _, _, _, h              => by cases h; exact ⟨rfl, rfl⟩
  | n + 1, b :: bytes, _, _, h => by
    obtain ⟨⟨front, rest⟩, hr, hpair⟩ := Option.map_eq_some_iff.1 h
    cases hpair
    obtain ⟨rfl, rfl⟩ := takeBytes?_eq_some hr
    exact ⟨rfl, rfl⟩

theorem delimited_takeBytes? (n : Nat) : Delimited (takeBytes? n) := by
  intro bytes front rest h
  obtain ⟨rfl, rfl⟩ := takeBytes?_eq_some h
  exact ⟨front, rfl, takeBytes?_append front⟩

theorem delimited_readNat? (width : Nat) : Delimited (readNat? width) :=
  (delimited_takeBytes? width).map fun _ _ => rfl

/-- The lead byte is a whole header, or it says how wide the number after it is. -/
theorem delimited_readHeader? : Delimited readHeader? := by
  refine .cons rfl fun lead => ?_
  refine .ite (fun _ => .pure _) fun _ => .ite (fun _ => .pure _) fun _ => .ite (fun _ => .pure _) fun _ => ?_
  refine .ite (fun _ => .pure _) fun hlow => .ite (fun _ => .pure _) fun hhigh => ?_
  -- the lead bytes in between name formats: a value by itself, or a length or a number of one to eight bytes
  generalize lead.toNat = n at hlow hhigh ⊢
  rw [Nat.not_lt] at hlow
  rw [Nat.not_le] at hhigh
  interval_cases n <;> first | exact .pure _ | exact (delimited_readNat? _).map fun _ _ => rfl

/-! ## Bodies -/

theorem delimited_readExtension? (length : Nat) : Delimited (readExtension? length) :=
  .cons rfl fun _ => (delimited_takeBytes? length).map fun _ _ => rfl

theorem delimited_readMany? {read : Bytes → Option (α × Bytes)} (h : Delimited read) :
    ∀ count, Delimited (readMany? read count)
  | 0         => .pure []
  | count + 1 => by
    have heq : readMany? read (count + 1) =
        fun bytes => (read bytes).bind fun r => (readMany? read count r.2).map fun r' => (r.1 :: r'.1, r'.2) := by
      funext bytes
      rw [readMany?]
      cases read bytes <;> rfl
    rw [heq]
    have hmore : ∀ a : α, Delimited fun bytes => (readMany? read count bytes).map fun r => (a :: r.1, r.2) :=
      fun _ => (delimited_readMany? h count).map fun _ _ => rfl
    exact h.bind hmore

theorem delimited_readPair? {read : Bytes → Option (α × Bytes)} (h : Delimited read) : Delimited (readPair? read) := by
  have heq : readPair? read = fun bytes => (read bytes).bind fun r => (read r.2).map fun r' => ((r.1, r'.1), r'.2) := by
    funext bytes
    rw [readPair?]
    cases read bytes <;> rfl
  rw [heq]
  have hsecond : ∀ a : α, Delimited fun bytes => (read bytes).map fun r => ((a, r.1), r.2) :=
    fun _ => h.map fun _ _ => rfl
  exact h.bind hsecond

/-- What follows a header, read with the budget that is left. -/
def readBody? (budget : Nat) : Header → Bytes → Option (Msgpack × Bytes)
  | .value v, rest     => some (v, rest)
  | .string n, rest    => if 2 ≤ budget then (takeBytes? n rest).map fun (s, r) => (.string s, r) else none
  | .binary n, rest    => if 1 ≤ budget then (takeBytes? n rest).map fun (s, r) => (.binary s, r) else none
  | .extension n, rest => if 2 ≤ budget then readExtension? n rest else none
  | .array n, rest     =>
    match budget with
    | 0         => none
    | inner + 1 => (readMany? (read? inner) n rest).map fun (items, r) => (.array items, r)
  | .map n, rest       =>
    match budget with
    | 0         => none
    | inner + 1 => (readMany? (readPair? (read? inner)) n rest).map fun (pairs, r) => (.map pairs, r)

theorem read?_succ (budget : Nat) :
    read? (budget + 1) = fun bytes => (readHeader? bytes).bind fun r => readBody? budget r.1 r.2 := by
  funext bytes
  rw [read?]
  cases readHeader? bytes with
  | none   => rfl
  | some r => obtain ⟨_ | _ | _ | _ | _ | _, rest⟩ := r <;> rfl

theorem delimited_readBody? {budget : Nat} (h : ∀ inner < budget, Delimited (read? inner)) :
    ∀ header, Delimited (readBody? budget header)
  | .value v     => .pure v
  | .string n    => .ite (fun _ => (delimited_takeBytes? n).map fun _ _ => rfl) fun _ => .fail
  | .binary n    => .ite (fun _ => (delimited_takeBytes? n).map fun _ _ => rfl) fun _ => .fail
  | .extension n => .ite (fun _ => delimited_readExtension? n) fun _ => .fail
  | .array n     => by
    cases budget with
    | zero       => exact .fail
    | succ inner => exact (delimited_readMany? (h inner (Nat.lt_succ_self inner)) n).map fun _ _ => rfl
  | .map n       => by
    cases budget with
    | zero       => exact .fail
    | succ inner =>
      have hpair := delimited_readPair? (h inner (Nat.lt_succ_self inner))
      exact (delimited_readMany? hpair n).map fun _ _ => rfl

/-- **A tree is settled by its own bytes**, however deep it is nested. -/
theorem delimited_read? (budget : Nat) : Delimited (read? budget) := by
  induction budget using Nat.strongRecOn with
  | ind budget ih =>
    cases budget with
    | zero        => exact .fail
    | succ budget =>
      rw [read?_succ]
      exact delimited_readHeader?.bind (delimited_readBody? fun inner hinner => ih inner (Nat.lt_succ_of_lt hinner))

end Msgpack

/-! ## Payloads -/

namespace Payload

/-- The bytes of exactly one tree. -/
def Whole (bytes : Bytes) : Prop := ∃ m, Msgpack.read? Msgpack.depthBudget bytes = some (m, [])

theorem whole_of_ofMsgpackBytes {t : Ty} {bytes : Bytes} {v : Value} (h : ofMsgpackBytes t bytes = .ok v) :
    Whole bytes := by
  unfold ofMsgpackBytes at h
  cases hread : Msgpack.read? Msgpack.depthBudget bytes with
  | none   =>
    rw [hread] at h
    cases h
  | some r =>
    obtain ⟨m, rest⟩ := r
    rw [hread] at h
    cases rest with
    | nil      => exact ⟨m, hread⟩
    | cons _ _ => cases h

theorem ofMsgpackBytes_append {bytes extra : Bytes} (h : Whole bytes) (hextra : extra ≠ []) (t : Ty) :
    ofMsgpackBytes t (bytes ++ extra) = .error (.decode (.trailing extra.length)) := by
  obtain ⟨m, hm⟩ := h
  have hread := (Msgpack.delimited_read? Msgpack.depthBudget).append hm extra
  rw [ofMsgpackBytes, hread]
  exact if_neg (by simpa using hextra)

theorem ofMsgpackBytes_cut {front cut : Bytes} (h : Whole (front ++ cut)) (hcut : cut ≠ []) (t : Ty) :
    ofMsgpackBytes t front = .error (.decode .invalidMsgpack) := by
  obtain ⟨m, hm⟩ := h
  rw [ofMsgpackBytes, (Msgpack.delimited_read? Msgpack.depthBudget).eq_none_of_cut hm hcut]

/-- **Payloads delimit themselves.**  If the bytes are read as a value of some type, then with more bytes behind them
they are refused for every type, and the error counts the bytes that are too many; and what is left of them when some
are cut off at the end is refused for every type as incomplete. -/
theorem payloads_delimit_themselves {t : Ty} {bytes : Bytes} {v : Value} (h : ofMsgpackBytes t bytes = .ok v) :
    (∀ (u : Ty) (extra : Bytes), extra ≠ [] →
      ∃ e, ofMsgpackBytes u (bytes ++ extra) = .error e ∧ e = .decode (.trailing extra.length) ∧
        e.text = "Decode error: " ++ (toString extra.length ++ " trailing bytes after msgpack value")) ∧
    ∀ (u : Ty) (front : Bytes), front <+: bytes → front ≠ bytes →
      ofMsgpackBytes u front = .error (.decode .invalidMsgpack) := by
  have hwhole := whole_of_ofMsgpackBytes h
  constructor
  · intro u extra hextra
    exact ⟨_, ofMsgpackBytes_append hwhole hextra u, rfl, rfl⟩
  · rintro u front ⟨cut, rfl⟩ hne
    refine ofMsgpackBytes_cut hwhole ?_ u
    rintro rfl
    exact hne (List.append_nil front).symm

/-- The number 256, an unknown number and a list in a list, the last length in four bytes. -/
def nestedBytes : Bytes := [0x92, 0x92, 0xcd, 0x01, 0x00, 0xd4, 0x00, 0x00, 0xdd, 0x00, 0x00, 0x00, 0x01, 0x07]

theorem payloads_delimit_themselves_nested :
    ofMsgpackBytes (.list (.list .number)) nestedBytes =
        .ok (.known (.list (.list .number)) (.list
          [.known (.list .number) (.list [.ofNumber (.int 256 (by decide)), .unknown .number]),
            .known (.list .number) (.list [.ofNumber (.int 7 (by decide))])])) ∧
      (∃ e, ofMsgpackBytes .bool (nestedBytes ++ [0xc0, 0xc0]) = .error e ∧ e = .decode (.trailing 2) ∧
        e.text = "Decode error: 2 trailing bytes after msgpack value") ∧
      nestedBytes.take 8 <+: nestedBytes ∧ nestedBytes.take 8 ≠ nestedBytes ∧
      ofMsgpackBytes (.list .number) (nestedBytes.take 8) = .error (.decode .invalidMsgpack) := by
  have hread : ofMsgpackBytes (.list (.list .number)) nestedBytes = .ok _ := rfl
  have hfront : nestedBytes.take 8 <+: nestedBytes := List.take_prefix 8 nestedBytes
  have hne : nestedBytes.take 8 ≠ nestedBytes := by decide
  obtain ⟨more, fewer⟩ := payloads_delimit_themselves hread
  exact ⟨hread, more .bool [0xc0, 0xc0] (by decide), hfront, hne, fewer (.list .number) _ hfront hne⟩

end Payload

end ProviderProtocol
