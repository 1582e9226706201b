import ProviderProtocol.Proofs.Codec.Payload
import ProviderProtocol.Proofs.Codec.Verdict
import ProviderProtocol.Proofs.Json.Value
/-!
# Reading documents

A document is read exactly if it conforms to the type, and as the value that it stands for; otherwise the error is one of
decoding and tells the path of the first offence, of which there is just one (`FirstOffence.unique`).  A JSON value has
no node that is unknown, so what is read from one is known throughout (`StandsFor.fullyKnown`).
-/
namespace ProviderProtocol

variable {form : δ → Form δ} {t : Ty} {d : δ}

/-! ## Conforming documents are read -/

/-- The document is read exactly if it conforms, as the value that it stands for; if not, decoding is what fails, and
not the check of a content. -/
structure ReadExactly (form : δ → Form δ) (t : Ty) (d : δ) (x : Except ProviderError Value) : Prop where
  accepted_iff : (∃ v, x = .ok v) ↔ Conforms form t d
  value : ∀ v, x = .ok v → v.Inhabits t ∧ StandsFor form t d v
  refusal : ∀ e, x = .error e → ∃ why, e = .decode why

theorem ProviderError.eq_decode_of_place? {e : ProviderError} {path : Path} (h : e.place? = some path) :
    ∃ why, e = .decode why := by
  unfold place? at h
  split at h
  · exact ⟨_, rfl⟩
  · exact ⟨_, rfl⟩
  · cases h

theorem Settles.readExactly {path : Path} {x : Except ProviderError Value}
    (h : Settles path x (Denotes form t d) (FirstOffence form t d)) (hx : Yields x fun v => v.Inhabits t) :
    ReadExactly form t d x where
  accepted_iff := by
    refine ⟨fun ⟨v, hv⟩ => (h.yields v hv).1, fun hconforms => ?_⟩
    cases x with
    | ok v    => exact ⟨v, rfl⟩
    | error e =>
      obtain ⟨q, hq, _⟩ := h.place e rfl
      exact absurd hconforms hq.not_conforms
  value v hv := ⟨hx v hv, (h.yields v hv).2⟩
  refusal e he := by
    obtain ⟨q, _, hplace⟩ := h.place e he
    exact ProviderError.eq_decode_of_place? hplace

/-! ### What is read from JSON

An item of an array always has a place, so each is read for some part. -/

theorem Ty.exists_itemPart : ∀ (i : Nat) {xs : List (Ty × δ)} {j : Nat}, j < xs.length →
    ∃ p, (itemParts i xs)[j]? = some (some p)
  | _, [], _, hj         => by cases hj
  | _, _ :: _, 0, _      => ⟨_, rfl⟩
  | i, _ :: _, _ + 1, hj => exists_itemPart (i + 1) (Nat.lt_of_succ_lt_succ hj)

theorem Ty.exists_part {items : List δ} (h : t.Takes (.array items)) {i : Nat} (hi : i < items.length) :
    ∃ p, (t.parts (.array items))[i]? = some (some p) := by
  cases t with
  | list elem => exact exists_itemPart 0 (by rwa [List.length_map])
  | set elem  => exact exists_itemPart 0 (by rwa [List.length_map])
  | tuple ts  =>
    have htuple : ts.length = items.length := h
    exact exists_itemPart 0 (by rwa [List.length_zip, htuple, Nat.min_self])
  | _         => cases h

theorem StandsFor.fullyKnown {v : Value} (hform : ∀ d, form d ≠ .unknown) (h : StandsFor form t d v) :
    v.WellFormed → v.fullyKnown = true := by
  induction h with
  | null _ => exact fun _ => rfl
  | unknown hd => exact absurd hd (hform _)
  | leaf hleaf =>
    intro _
    unfold Ty.leaf? at hleaf
    split at hleaf
    · cases hleaf
      rfl
    · cases hleaf
      rfl
    · obtain ⟨n, _, rfl⟩ := Option.map_eq_some_iff.1 hleaf
      rfl
    · cases hleaf
      rfl
    · cases hleaf
  | array htakes hd hlength _ ih =>
    intro hv
    refine Value.allFullyKnown_iff.2 fun x hx => ?_
    obtain ⟨i, hi⟩ := List.mem_iff_getElem?.1 hx
    rw [hd] at htakes ih
    have hlt : i < _ := hlength ▸ (List.getElem?_eq_some_iff.1 hi).1
    obtain ⟨p, hp⟩ := Ty.exists_part htakes hlt
    exact ih i p x hp hi (hv.items x hx)
  | map _ hasc hnames _ ih =>
    intro hv
    refine Value.entriesFullyKnown_iff.2 fun e he => ?_
    have hfind := Table.find?_of_mem hasc he
    obtain ⟨x, hx⟩ := Option.ne_none_iff_exists'.1 fun hnone => nomatch hfind.symm.trans ((hnames e.1).2 hnone)
    exact ih e.1 x e.2 hx hfind (hv.entries e he)
  | @object attrs d pairs es _ hnames habsent _ ih =>
    intro hv
    refine Value.entriesFullyKnown_iff.2 fun e he => ?_
    have hfind := Table.find?_of_mem hv.ascending he
    have hdeclared : e.1 ∈ Table.names attrs := hnames ▸ Table.mem_names he
    obtain ⟨u, hu⟩ := Option.ne_none_iff_exists'.1 fun hnone => Table.find?_eq_none_iff.1 hnone hdeclared
    cases hlast : Table.last? (some e.1) pairs with
    | none   =>
      rw [habsent e.1 u e.2 hu hfind hlast]
      rfl
    | some x => exact ih e.1 u e.2 x hu hfind hlast (hv.entries e he)

/-- **A document is read exactly if it conforms to the type**, and what is read from JSON is known throughout. -/
theorem conforming_documents_are_read (ht : t.Canonical) :
    (∀ path m, ReadExactly Msgpack.form t m (Value.ofMsgpack path t m)) ∧
    ∀ j, ReadExactly Json.form t j (Value.ofJson t j) ∧ ∀ v, Value.ofJson t j = .ok v → v.fullyKnown = true := by
  refine ⟨fun path m => ?_, fun j => ?_⟩
  · exact (Value.ofMsgpack_settles path ht m).readExactly (Value.ofMsgpack_placed path ht m).yields
  · have hread := (Value.ofJsonAt_settles [] ht j).readExactly (Value.ofJson_inhabits ht j)
    refine ⟨hread, fun v hv => ?_⟩
    obtain ⟨hinhabits, hstands⟩ := hread.value v hv
    refine hstands.fullyKnown (fun j => ?_) hinhabits.2
    cases j <;> exact nofun

/-! ### Parcels

The sizes are given twice, and the first time as numerals in strings.  A tag of the other parcel has a key that is no
text, and no text for a value either. -/

def parcelTy : Ty := .object [("sizes", .list .number), ("tags", .map .string)]

def parcelTree : Msgpack :=
  .map [(.ofText "sizes", .array [.ofText "10"]), (.ofText "sizes", .array [.int 2, .extension 0 [7]])]

def parcel : Value := .known parcelTy (.map [("sizes", .known (.list .number)
  (.list [.ofNumber (.int 2 (by decide)), .unknown .number])), ("tags", .null (.map .string))])

def mistaggedTree : Msgpack :=
  .map [(.ofText "sizes", .nil), (.ofText "tags", .map [(.ofText "a", .nil), (.int 1, .bool true)])]

def oversizedJson : Json := .object [("sizes", .array [.number (.int 300 (by decide)), .bool true]), ("wide", .null)]

theorem conforming_documents_are_read_parcel : parcelTy.Canonical ∧
    (Conforms Msgpack.form parcelTy parcelTree ∧ StandsFor Msgpack.form parcelTy parcelTree parcel) ∧
    ¬ Conforms Msgpack.form parcelTy mistaggedTree ∧ ¬ Conforms Json.form parcelTy oversizedJson := by
  have ht : parcelTy.Canonical := by decide
  obtain ⟨trees, documents⟩ := conforming_documents_are_read ht
  have hread : Value.ofMsgpack [] parcelTy parcelTree = .ok parcel := rfl
  refine ⟨ht, ⟨(trees [] _).accepted_iff.1 ⟨_, hread⟩, ((trees [] _).value _ hread).2⟩, fun h => ?_, fun h => ?_⟩
  · obtain ⟨v, hv⟩ := (trees [] mistaggedTree).accepted_iff.2 h
    cases hv
  · obtain ⟨v, hv⟩ := (documents oversizedJson).1.accepted_iff.2 h
    cases hv

/-! ## The first offence of any other is reported -/

/-- Up to the first that is not such, a list can be split in one way only. -/
theorem eq_of_split {P : α → Prop} {x y : α} (hx : ¬ P x) (hy : ¬ P y) : ∀ {before before' after after' : List α},
    before ++ x :: after = before' ++ y :: after' → (∀ z ∈ before, P z) → (∀ z ∈ before', P z) → x = y
  | [], [], _, _, h, _, _                   => (List.cons.inj h).1
  | [], _ :: _, _, _, h, _, hbefore'        =>
    absurd ((List.cons.inj h).1 ▸ (List.forall_mem_cons.1 hbefore').1) hx
  | _ :: _, [], _, _, h, hbefore, _         =>
    absurd ((List.cons.inj h).1 ▸ (List.forall_mem_cons.1 hbefore).1) hy
  | _ :: _, _ :: _, _, _, h, hbefore, hbefore' =>
    eq_of_split hx hy (List.cons.inj h).2 (List.forall_mem_cons.1 hbefore).2 (List.forall_mem_cons.1 hbefore').2

theorem FirstOffence.unique {p : Path} (hp : FirstOffence form t d p) :
    ∀ {q : Path}, FirstOffence form t d q → p = q := by
  induction hp with
  | node hnot =>
    intro q hq
    rcases firstOffence_iff.1 hq with ⟨_, rfl⟩ | ⟨htakes, _⟩
    · rfl
    · exact absurd htakes hnot
  | entry htakes hsplit hbefore =>
    intro q hq
    rcases firstOffence_iff.1 hq with ⟨hnot, _⟩ | ⟨_, before', part, after', hsplit', hbefore', hpart⟩
    · exact absurd htakes hnot
    · obtain rfl := eq_of_split not_partConforms_none hpart.not_conforms (hsplit.symm.trans hsplit') hbefore hbefore'
      exact hpart.symm
  | @inside _ _ _ _ r s htakes hsplit hbefore hs ih =>
    intro q hq
    rcases firstOffence_iff.1 hq with ⟨hnot, _⟩ | ⟨_, before', part, after', hsplit', hbefore', hpart⟩
    · exact absurd htakes hnot
    · have hr : ¬ PartConforms form (some r) := PartOffence.not_conforms ⟨s, hs, rfl⟩
      obtain rfl := eq_of_split hr hpart.not_conforms (hsplit.symm.trans hsplit') hbefore hbefore'
      obtain ⟨s', hs', rfl⟩ := hpart
      rw [ih hs']

/-! ### Bytes -/

theorem Payload.decode_of_read? {p : Payload} {m : Msgpack}
    (h : Msgpack.read? Msgpack.depthBudget p.msgpack = some (m, [])) :
    decode t (some p) = Value.ofMsgpack [] t m := by
  have hbytes : p.msgpack ≠ [] := by
    intro hnil
    rw [hnil] at h
    cases h
  rw [decode, if_pos (by simpa using hbytes), ofMsgpackBytes, h]
  rfl

theorem Payload.decode_of_ofBytes? {p : Payload} {j : Json} (hempty : p.msgpack = [])
    (h : Json.ofBytes? p.json = some j) : decode t (some p) = Value.ofJson t j := by
  have hbytes : p.json ≠ [] := by
    intro hnil
    rw [hnil] at h
    cases h
  rw [decode, hempty, if_neg (by simp), if_pos (by simpa using hbytes), h]

/-- The error is about the first offence of the document, and its message starts with the path. -/
def ReportsFirst (form : δ → Form δ) (t : Ty) (d : δ) (e : ProviderError) : Prop :=
  ∃ path, (∀ q, FirstOffence form t d q ↔ q = path) ∧ e.Names path

theorem Settles.reportsFirst {x : Except ProviderError α} {good : α → Prop}
    (h : Settles [] x good (FirstOffence form t d)) {e : ProviderError} (he : x = .error e) :
    ReportsFirst form t d e := by
  obtain ⟨path, hpath, hplace⟩ := h.place e he
  refine ⟨path, fun q => ⟨fun hq => hq.unique hpath, fun hq => hq ▸ hpath⟩, ProviderError.names_of_place? hplace⟩

/-- **The error of a document that is not read starts with the path of its first offence.**  Members of JSON objects
come in ascending order of their names. -/
theorem first_offence_is_reported (ht : t.Canonical) :
    (∀ m e, Value.ofMsgpack [] t m = .error e → ReportsFirst Msgpack.form t m e) ∧
    (∀ j e, Value.ofJson t j = .error e → ReportsFirst Json.form t j e) ∧
    (∀ p m e, Msgpack.read? Msgpack.depthBudget p.msgpack = some (m, []) → Payload.decode t (some p) = .error e →
      ReportsFirst Msgpack.form t m e) ∧
    ∀ p j e, p.msgpack = [] → Json.ofBytes? p.json = some j → Payload.decode t (some p) = .error e →
      j.Tabular ∧ ReportsFirst Json.form t j e := by
  refine ⟨fun m e he => ?_, fun j e he => ?_, fun p m e hread he => ?_, fun p j e hempty hread he => ?_⟩
  · exact (Value.ofMsgpack_settles [] ht m).reportsFirst he
  · exact (Value.ofJsonAt_settles [] ht j).reportsFirst he
  · rw [Payload.decode_of_read? hread] at he
    exact (Value.ofMsgpack_settles [] ht m).reportsFirst he
  · rw [Payload.decode_of_ofBytes? hempty hread] at he
    exact ⟨(Json.ofBytes?_eq_some hread).1, (Value.ofJsonAt_settles [] ht j).reportsFirst he⟩

theorem first_offence_is_reported_parcel : parcelTy.Canonical ∧
    (∀ q, FirstOffence Msgpack.form parcelTy mistaggedTree q ↔ q = [.attribute "tags"]) ∧
    ∀ q, FirstOffence Json.form parcelTy oversizedJson q ↔ q = [.attribute "sizes", .index 1] := by
  have ht : parcelTy.Canonical := by decide
  obtain ⟨trees, documents, _⟩ := first_offence_is_reported ht
  refine ⟨ht, ?_, ?_⟩
  · obtain ⟨path, hfirst, hnames⟩ := trees mistaggedTree _ rfl
    cases hnames.place
    exact hfirst
  · obtain ⟨path, hfirst, hnames⟩ := documents oversizedJson _ rfl
    cases hnames.place
    exact hfirst

end ProviderProtocol
