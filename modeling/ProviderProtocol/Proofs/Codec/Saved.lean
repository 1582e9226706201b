import ProviderProtocol.Proofs.Codec.Reading
/-!
# Saved state

What saved state is read as is the value that its document stands for, and there is none if the document is a flat map
alone, no JSON, or one that does not conform to the type (`RawState.unmarshal_error_iff`).

What is read is no longer than what it was read from: strings, names and collections of the value are those of the
document, and an object has the attributes of its type (`RawState.unmarshal_sized`).
-/
namespace ProviderProtocol

/-! ## What cannot be read -/

/-- Why there is no value of the type to be read. -/
inductive RawState.Unreadable (raw : RawState) (t : Ty) : Prop
  | flatmap : raw.json = [] → raw.flatmap ≠ [] → Unreadable raw t
  | text : raw.json ≠ [] → Json.ofBytes? raw.json = none → Unreadable raw t
  | document {j : Json} : Json.ofBytes? raw.json = some j → ¬ Conforms Json.form t j → Unreadable raw t

theorem RawState.unmarshal_of_ofBytes? {raw : RawState} {j : Json} (h : Json.ofBytes? raw.json = some j) (t : Ty) :
    raw.unmarshal t = Value.ofJson t j := by
  have hbytes : raw.json ≠ [] := by
    intro hnil
    rw [hnil] at h
    cases h
  rw [unmarshal, if_neg (by simpa using hbytes), h]

theorem RawState.unmarshal_error_iff {t : Ty} (ht : t.Canonical) (raw : RawState) :
    (∃ e, raw.unmarshal t = .error e) ↔ raw.Unreadable t := by
  constructor
  · rintro ⟨e, he⟩
    cases hj : Json.ofBytes? raw.json with
    | some j =>
      have hread := (Value.ofJsonAt_settles [] ht j).readExactly (Value.ofJson_inhabits ht j)
      refine .document hj fun hconforms => ?_
      obtain ⟨v, hv⟩ := hread.accepted_iff.2 hconforms
      rw [unmarshal_of_ofBytes? hj] at he
      cases he.symm.trans hv
    | none   =>
      by_cases hbytes : raw.json = []
      · refine .flatmap hbytes fun hflat => ?_
        rw [unmarshal, hbytes, hflat] at he
        cases he
      · exact .text hbytes hj
  · intro h
    cases h with
    | flatmap hbytes hflat =>
      rw [unmarshal, if_pos (by simpa using hbytes), if_neg (by simpa using hflat)]
      exact ⟨_, rfl⟩
    | text hbytes hj       =>
      rw [unmarshal, if_neg (by simpa using hbytes), hj]
      exact ⟨_, rfl⟩
    | @document j hj hnot  =>
      have hread := (Value.ofJsonAt_settles [] ht j).readExactly (Value.ofJson_inhabits ht j)
      rw [unmarshal_of_ofBytes? hj]
      cases hv : Value.ofJson t j with
      | ok v    => exact absurd (hread.accepted_iff.1 ⟨v, hv⟩) hnot
      | error e => exact ⟨e, rfl⟩

/-! ## Sizes of documents and of types -/

namespace Json

mutual

/-- Strings, names, arrays and objects within are shorter than `2 ^ 32`. -/
def Sized : Json → Prop
  | .string s       => (Text.Utf8.encode s).length < 2 ^ 32
  | .array items    => items.length < 2 ^ 32 ∧ ItemsSized items
  | .object members => members.length < 2 ^ 32 ∧ MembersSized members
  | _               => True

def ItemsSized : List Json → Prop
  | []      => True
  | j :: js => j.Sized ∧ ItemsSized js

def MembersSized : List (String × Json) → Prop
  | []           => True
  | (k, j) :: ms => ((Text.Utf8.encode k).length < 2 ^ 32 ∧ j.Sized) ∧ MembersSized ms

end

end Json

namespace Ty

mutual

/-- Objects within have fewer than `2 ^ 32` attributes, and so have the names of these bytes. -/
def Sized : Ty → Prop
  | .string | .number | .bool => True
  | .list t | .set t | .map t => t.Sized
  | .object attrs             => attrs.length < 2 ^ 32 ∧ AttrsSized attrs
  | .tuple elems              => ElemsSized elems

def AttrsSized : List (String × Ty) → Prop
  | []             => True
  | (k, t) :: rest => ((Text.Utf8.encode k).length < 2 ^ 32 ∧ t.Sized) ∧ AttrsSized rest

def ElemsSized : List Ty → Prop
  | []        => True
  | t :: rest => t.Sized ∧ ElemsSized rest

end

theorem attrsSized_iff : ∀ {attrs : List (String × Ty)},
    AttrsSized attrs ↔ ∀ a ∈ attrs, (Text.Utf8.encode a.1).length < 2 ^ 32 ∧ a.2.Sized
  | []          => by simp [AttrsSized]
  | (k, t) :: _ => by rw [AttrsSized, attrsSized_iff, List.forall_mem_cons]

end Ty

/-- Each string of the document, and each collection, is shorter than `2 ^ 32`. -/
def RawState.Sized (raw : RawState) : Prop := ∀ j, Json.ofBytes? raw.json = some j → j.Sized

/-! ## Sizes of what is read -/

namespace Value

/-- An entry of what is read: the name and the value can be written. -/
def EntrySized (e : String × Value) : Prop := (Text.Utf8.encode e.1).length < 2 ^ 32 ∧ e.2.Sized

theorem yields_ofRead {t : Ty} {c : Content} (h : c.Sized) : Yields (ofRead t c) Value.Sized := by
  intro v hv
  have hshape := mapError_eq_ok.1 hv
  unfold of at hshape
  split at hshape
  · cases hshape
    exact h
  · cases hshape

theorem yields_ofNumeralText (path : Path) (t : Ty) (s : Option String) :
    Yields (ofNumeralText path t s) Value.Sized := by
  unfold ofNumeralText
  split
  · exact yields_ofRead trivial
  · exact .error

theorem yields_array {t : Ty} {items : List Json} {xs : Except ProviderError (List Value)}
    (hitems : items.length < 2 ^ 32)
    (hxs : Yields xs fun xs => xs.length = items.length ∧ ∀ x ∈ xs, x.Sized) :
    Yields (do ofRead t (.list (← xs))) Value.Sized :=
  hxs.bind fun _ ⟨hlength, hall⟩ => yields_ofRead ⟨hlength ▸ hitems, Content.itemsSized_iff.2 hall⟩

theorem completed_sized {attrs : List (String × Ty)} {es : List (String × Value)} (ht : (Ty.object attrs).Sized)
    (hes : ∀ e ∈ es, EntrySized e) : (Content.map (completed attrs es)).Sized := by
  obtain ⟨hlength, hattrs⟩ := ht
  refine ⟨by rwa [completed, List.length_map], Content.entriesSized_iff.2 fun e he => ?_⟩
  obtain ⟨a, ha, rfl⟩ := List.mem_map.1 he
  refine ⟨(Ty.attrsSized_iff.1 hattrs a ha).1, ?_⟩
  show ((Table.find? a.1 es).getD (.null a.2)).Sized
  cases hf : Table.find? a.1 es with
  | none   => trivial
  | some v => exact (hes _ (Table.mem_of_find? hf)).2

mutual

/-- **What is read from a document is as short as the document** and the objects of the type. -/
theorem ofJsonAt_sized (path : Path) {t : Ty} (ht : t.Sized) : ∀ j : Json, j.Sized →
    Yields (ofJsonAt path t j) Value.Sized
  | .null, _ => .ok trivial
  | .bool b, _ => by
    unfold ofJsonAt
    split
    · exact yields_ofRead trivial
    · exact .error
  | .number n, _ => by
    unfold ofJsonAt
    split
    · exact yields_ofRead trivial
    · exact .error
  | .string s, hs => by
    unfold ofJsonAt
    split
    · exact yields_ofRead hs
    · exact yields_ofNumeralText path _ _
    · exact .error
  | .array items, hitems => by
    unfold ofJsonAt
    split
    · rename_i elem
      exact yields_array hitems.1 (itemsOfJson_sized path elem ht 0 items hitems.2)
    · rename_i elem
      exact yields_array hitems.1 (itemsOfJson_sized path elem ht 0 items hitems.2)
    · split
      · rename_i hlength
        exact yields_array hitems.1 (tupleOfJson_sized path 0 ht items hitems.2 hlength)
      · exact .error
    · exact .error
  | .object members, hmembers => by
    unfold ofJsonAt
    split
    · rename_i elem
      refine (entriesOfJson_sized path elem ht members hmembers.2).bind fun es ⟨hlength, hall⟩ => yields_ofRead ?_
      refine ⟨Nat.lt_of_le_of_lt (Table.length_ofList_le es) (hlength ▸ hmembers.1), ?_⟩
      exact Content.entriesSized_iff.2 fun e he => hall e (Table.mem_of_mem_ofList he)
    · refine (attributesOfJson_sized path (Ty.attrsSized_iff.1 ht.2) members hmembers.2).bind fun es hall => ?_
      exact yields_ofRead (completed_sized ht fun e he => hall e (Table.mem_of_mem_ofList he))
    · exact .error

theorem itemsOfJson_sized (path : Path) (elem : Ty) (ht : elem.Sized) : ∀ (i : Nat) (items : List Json),
    Json.ItemsSized items →
      Yields (itemsOfJson path elem i items) fun xs => xs.length = items.length ∧ ∀ x ∈ xs, x.Sized
  | _, [], _               => .ok ⟨rfl, List.forall_mem_nil _⟩
  | i, item :: rest, hitems => by
    rw [itemsOfJson]
    refine (ofJsonAt_sized _ ht item hitems.1).bind fun x hx => ?_
    refine (itemsOfJson_sized path elem ht (i + 1) rest hitems.2).bind fun xs ⟨hlength, hall⟩ => .ok ?_
    exact ⟨congrArg Nat.succ hlength, List.forall_mem_cons.2 ⟨hx, hall⟩⟩

theorem tupleOfJson_sized (path : Path) : ∀ (i : Nat) {ts : List Ty}, Ty.ElemsSized ts →
    ∀ items : List Json, Json.ItemsSized items → ts.length = items.length →
      Yields (tupleOfJson path i ts items) fun xs => xs.length = items.length ∧ ∀ x ∈ xs, x.Sized
  | i, t :: ts, hts, item :: rest, hitems, hlength => by
    rw [tupleOfJson]
    refine (ofJsonAt_sized _ hts.1 item hitems.1).bind fun x hx => ?_
    refine (tupleOfJson_sized path (i + 1) hts.2 rest hitems.2 (Nat.succ.inj hlength)).bind fun xs ⟨hxs, hall⟩ => .ok ?_
    exact ⟨congrArg Nat.succ hxs, List.forall_mem_cons.2 ⟨hx, hall⟩⟩
  | _, [], _, [], _, _                             => .ok ⟨rfl, List.forall_mem_nil _⟩
  | _, [], _, _ :: _, _, hlength                   => by cases hlength
  | _, _ :: _, _, [], _, hlength                   => by cases hlength

theorem entriesOfJson_sized (path : Path) (elem : Ty) (ht : elem.Sized) : ∀ members : List (String × Json),
    Json.MembersSized members →
      Yields (entriesOfJson path elem members) fun es => es.length = members.length ∧ ∀ e ∈ es, EntrySized e
  | [], _                        => .ok ⟨rfl, List.forall_mem_nil _⟩
  | (name, item) :: rest, hmembers => by
    obtain ⟨⟨hname, hitem⟩, hrest⟩ := hmembers
    rw [entriesOfJson]
    refine (ofJsonAt_sized _ ht item hitem).bind fun v hv => ?_
    refine (entriesOfJson_sized path elem ht rest hrest).bind fun es ⟨hlength, hall⟩ => .ok ?_
    exact ⟨congrArg Nat.succ hlength, List.forall_mem_cons.2 ⟨⟨hname, hv⟩, hall⟩⟩

theorem attributesOfJson_sized (path : Path) {attrs : List (String × Ty)}
    (hattrs : ∀ a ∈ attrs, (Text.Utf8.encode a.1).length < 2 ^ 32 ∧ a.2.Sized) : ∀ members : List (String × Json),
    Json.MembersSized members →
      Yields (attributesOfJson path attrs members) fun es => ∀ e ∈ es, EntrySized e
  | [], _                        => .ok (List.forall_mem_nil _)
  | (name, item) :: rest, hmembers => by
    obtain ⟨⟨hname, hitem⟩, hrest⟩ := hmembers
    rw [attributesOfJson]
    split
    · exact .error
    · rename_i u hu
      refine (ofJsonAt_sized _ (hattrs _ (Table.mem_of_find? hu)).2 item hitem).bind fun v hv => ?_
      refine (attributesOfJson_sized path hattrs rest hrest).bind fun es hall => .ok ?_
      exact List.forall_mem_cons.2 ⟨⟨hname, hv⟩, hall⟩

end

end Value

/-- **What saved state is read as can be written again**, if its strings and collections and the objects of the type are
short enough. -/
theorem RawState.unmarshal_sized {raw : RawState} {t : Ty} (hraw : raw.Sized) (ht : t.Sized) :
    Yields (raw.unmarshal t) Value.Sized := by
  cases hj : Json.ofBytes? raw.json with
  | some j =>
    rw [unmarshal_of_ofBytes? hj]
    exact Value.ofJsonAt_sized [] ht j (hraw j hj)
  | none   =>
    unfold unmarshal
    split
    · split
      · exact .ok trivial
      · exact .error
    · rw [hj]
      exact .error

end ProviderProtocol
