import ProviderProtocol.Proofs.Codec.Conformance
import ProviderProtocol.Proofs.Value.Equality
/-!
# What reading a document comes to

A document that conforms to the type is read as the value that it stands for, and the error of any other document names
the path of its first offence (`Value.ofMsgpack_settles`).  Both are said at once (`Settles`), by one induction over the
tree; that the check of a content never fails is known from the types of what is read (`Value.ofMsgpack_placed`).  JSON
follows, since it is read like its tree.
-/
namespace ProviderProtocol

/-- The result is such; the error, if there is one instead, names the path to an offence, this path in front. -/
structure Settles (path : Path) (x : Except ProviderError α) (good : α → Prop) (offence : Path → Prop) : Prop where
  yields : Yields x good
  place : ∀ e, x = .error e → ∃ q, offence q ∧ e.place? = some (path ++ q)

namespace Settles

variable {path : Path} {good : α → Prop} {offence : Path → Prop}

theorem ok {a : α} (h : good a) : Settles path (.ok a) good offence :=
  ⟨.ok h, fun _ he => nomatch he⟩

theorem error {e : ProviderError} {q : Path} (hq : offence q) (hplace : e.place? = some (path ++ q)) :
    Settles path (.error e : Except ProviderError α) good offence := by
  refine ⟨.error, fun e' he => ?_⟩
  cases he
  exact ⟨q, hq, hplace⟩

theorem here {e : ProviderError} (h : offence []) (hplace : e.place? = some path) :
    Settles path (.error e : Except ProviderError α) good offence :=
  .error h (by rw [List.append_nil, hplace])

theorem bind {x : Except ProviderError α} {f : α → Except ProviderError β} {good' : β → Prop}
    {offence' : Path → Prop} (h : Settles path x good offence) (hf : ∀ a, good a → Settles path (f a) good' offence')
    (hoffence : ∀ q, offence q → offence' q) : Settles path (x >>= f) good' offence' := by
  cases x with
  | ok a    => exact hf a (h.yields a rfl)
  | error e =>
    obtain ⟨q, hq, hplace⟩ := h.place e rfl
    exact .error (hoffence q hq) hplace

theorem mono {x : Except ProviderError α} {good' : α → Prop} {offence' : Path → Prop}
    (h : Settles path x good offence) (hgood : ∀ a, good a → good' a) (hoffence : ∀ q, offence q → offence' q) :
    Settles path x good' offence' := by
  refine ⟨fun a ha => hgood a (h.yields a ha), fun e he => ?_⟩
  obtain ⟨q, hq, hplace⟩ := h.place e he
  exact ⟨q, hoffence q hq, hplace⟩

/-- What is an offence below a step is one further up, with the step in front. -/
theorem below {x : Except ProviderError α} {step : Step} (h : Settles (path ++ [step]) x good offence) :
    Settles path x good fun q => ∃ r, offence r ∧ q = step :: r := by
  refine ⟨h.yields, fun e he => ?_⟩
  obtain ⟨r, hr, hplace⟩ := h.place e he
  refine ⟨step :: r, ⟨r, hr, rfl⟩, ?_⟩
  rw [hplace, List.append_assoc]
  rfl

theorem of_agree {x y : Except ProviderError α} (hagree : Agree x y) (h : Settles path y good offence) :
    Settles path x good offence := by
  cases x with
  | ok a    => exact .ok (h.yields a ((hagree.ok_iff a).1 rfl))
  | error e =>
    cases y with
    | ok b     => cases (hagree.ok_iff b).2 rfl
    | error e' =>
      obtain ⟨q, hq, hplace⟩ := h.place e' rfl
      exact .error hq ((hagree.place?_eq rfl rfl).trans hplace)

end Settles

/-! ## What is read -/

/-- The document conforms to the type and stands for this value. -/
def Denotes (form : δ → Form δ) (t : Ty) (d : δ) (v : Value) : Prop := Conforms form t d ∧ StandsFor form t d v

def PartDenotes (form : δ → Form δ) (part : Option (Part δ)) (v : Value) : Prop :=
  ∃ p, part = some p ∧ Denotes form p.ty p.node v

/-- An entry is read under its name, for the type that it has to be of. -/
def EntryDenotes (form : δ → Form δ) (t : Ty) (entry : Option String × δ) (e : String × Value) : Prop :=
  entry.1 = some e.1 ∧ PartDenotes form (t.entryPart entry) e.2

section

variable {form : δ → Form δ} {t : Ty} {d : δ}

theorem PartDenotes.conforms {part : Option (Part δ)} {v : Value} (h : PartDenotes form part v) :
    PartConforms form part := by
  obtain ⟨p, rfl, hp⟩ := h
  exact ⟨p, rfl, hp.1⟩

theorem denotes_null (h : form d = .null) : Denotes form t d (.null t) := by
  refine ⟨conforms_iff.2 ?_, .null h⟩
  rw [h]
  cases t <;> exact ⟨trivial, List.forall_mem_nil _⟩

theorem denotes_unknown (h : form d = .unknown) : Denotes form t d (.unknown t) := by
  refine ⟨conforms_iff.2 ?_, .unknown h⟩
  rw [h]
  cases t <;> exact ⟨trivial, List.forall_mem_nil _⟩

theorem Ty.leaf?_eq_some {x : Form δ} {c : Content} (h : t.leaf? x = some c) :
    t.Takes x ∧ t.parts x = [] ∧ shapeFault? t c = none := by
  unfold leaf? at h
  split at h
  · cases h
    exact ⟨rfl, rfl, rfl⟩
  · cases h
    exact ⟨rfl, rfl, rfl⟩
  · obtain ⟨n, hn, rfl⟩ := Option.map_eq_some_iff.1 h
    refine ⟨?_, rfl, rfl⟩
    show ((Number.ofText? _).map Content.number).isSome = true
    rw [hn]
    rfl
  · cases h
    exact ⟨rfl, rfl, rfl⟩
  · cases h

theorem Ty.length_itemParts : ∀ (i : Nat) (xs : List (Ty × δ)), (itemParts i xs).length = xs.length
  | _, []      => rfl
  | i, _ :: xs => congrArg (· + 1) (length_itemParts (i + 1) xs)

theorem Ty.length_parts {items : List δ} (h : t.Takes (.array items)) :
    (t.parts (.array items)).length = items.length := by
  cases t with
  | list elem => exact (length_itemParts 0 _).trans (List.length_map _)
  | set elem  => exact (length_itemParts 0 _).trans (List.length_map _)
  | tuple ts  =>
    have hlength : ts.length = items.length := h
    refine (length_itemParts 0 _).trans ?_
    rw [List.length_zip, hlength, Nat.min_self]
  | _         => cases h

theorem Ty.member?_object {attrs : List (String × Ty)} {name : String} {u : Ty} (h : Table.find? name attrs = some u) :
    (Ty.object attrs).member? name = some (.attribute name, u) := by
  rw [member?, h]
  rfl

theorem Ty.entryPart_of_member? {name : String} {step : Step} {u : Ty} {x : δ} (h : t.member? name = some (step, u)) :
    t.entryPart (some name, x) = some ⟨step, u, x⟩ := by
  rw [entryPart, Option.bind_some, h]
  rfl

theorem Ty.not_takes_other (t : Ty) : ¬ t.Takes (.other : Form δ) := by
  cases t <;> exact Bool.false_ne_true

theorem denotes_array {items : List δ} {parts : List (Option (Part δ))} {xs : List Value} (htakes : t.Takes (form d))
    (hd : form d = .array items) (hparts : t.parts (form d) = parts) (hxs : List.Forall₂ (PartDenotes form) parts xs) :
    Denotes form t d (.known t (.list xs)) := by
  refine ⟨conforms_iff.2 ⟨htakes, fun part hpart => ?_⟩, .array htakes hd ?_ fun i p x hp hx => ?_⟩
  · obtain ⟨x, _, hx⟩ := exists_mem_right hxs (hparts ▸ hpart)
    exact hx.conforms
  · rw [hd] at htakes hparts
    rw [← hxs.length_eq, ← hparts, Ty.length_parts htakes]
  · obtain ⟨part, hpart, q, rfl, hq⟩ := getElem?_of_forall₂ hxs hx
    rw [hparts, hpart] at hp
    cases hp
    exact hq.2

section

variable {pairs : List (Option String × δ)} {es : List (String × Value)}

/-- The last entry of a name is read as the last of what is read under that name. -/
theorem last?_of_forall₂ (k : String) (hes : List.Forall₂ (EntryDenotes form t) pairs es) :
    Option.Rel (fun x v => PartDenotes form (t.entryPart (some k, x)) v) (Table.last? (some k) pairs)
      (Table.last? k es) := by
  refine Table.last?_rel (R := fun k x v => PartDenotes form (t.entryPart (some k, x)) v)
    (Option.some_injective String) k (hes.imp ?_)
  rintro ⟨_, x⟩ ⟨j, v⟩ ⟨rfl, hpart⟩
  exact ⟨rfl, hpart⟩

theorem conforms_entries (htakes : t.Takes (form d)) (hd : form d = .entries pairs)
    (hes : List.Forall₂ (EntryDenotes form t) pairs es) : Conforms form t d := by
  refine conforms_iff.2 ⟨htakes, ?_⟩
  have hall : ∀ part ∈ pairs.map t.entryPart, PartConforms form part := by
    refine List.forall_mem_map.2 fun entry hentry => ?_
    obtain ⟨e, _, _, hpart⟩ := exists_mem_right hes hentry
    exact hpart.conforms
  rw [hd]
  cases t <;> exact hall

theorem last?_eq_none_iff (k : String) (hes : List.Forall₂ (EntryDenotes form t) pairs es) :
    Table.last? k es = none ↔ Table.last? (some k) pairs = none := by
  have hlast := last?_of_forall₂ k hes
  generalize Table.last? (some k) pairs = last at hlast ⊢
  generalize Table.last? k es = last' at hlast ⊢
  cases hlast with
  | some _ => exact ⟨nofun, nofun⟩
  | none   => exact ⟨fun _ => rfl, fun _ => rfl⟩

theorem last?_denotes {k : String} {x : δ} {v : Value} (hes : List.Forall₂ (EntryDenotes form t) pairs es)
    (hx : Table.last? (some k) pairs = some x) (hv : Table.last? k es = some v) :
    PartDenotes form (t.entryPart (some k, x)) v := by
  have hlast := last?_of_forall₂ k hes
  rw [hx, hv] at hlast
  cases hlast with
  | some h => exact h

theorem denotes_map {elem : Ty} (hd : form d = .entries pairs)
    (hes : List.Forall₂ (EntryDenotes form (.map elem)) pairs es) :
    Denotes form (.map elem) d (.known (.map elem) (.map (Table.ofList es))) := by
  have htakes : (Ty.map elem).Takes (form d) := by
    rw [hd]
    trivial
  refine ⟨conforms_entries htakes hd hes, .map hd (Table.ofList_ascending es) (fun k => ?_) fun k x v hx hv => ?_⟩
  · rw [Table.find?_ofList, last?_eq_none_iff k hes]
  · rw [Table.find?_ofList] at hv
    obtain ⟨p, hp, hdenotes⟩ := last?_denotes hes hx hv
    cases hp
    exact hdenotes.2

theorem find?_completed (k : String) (attrs : List (String × Ty)) (es : List (String × Value)) :
    Table.find? k (Value.completed attrs es) =
      (Table.find? k attrs).map fun t => (Table.find? k es).getD (.null t) :=
  Table.find?_map (fun a => (Table.find? a.1 es).getD (.null a.2)) k attrs

theorem denotes_object {attrs : List (String × Ty)} (hd : form d = .entries pairs)
    (hes : List.Forall₂ (EntryDenotes form (.object attrs)) pairs es) :
    Denotes form (.object attrs) d
      (.known (.object attrs) (.map (Value.completed attrs (Table.ofList es)))) := by
  have htakes : (Ty.object attrs).Takes (form d) := by
    rw [hd]
    trivial
  -- an attribute is what was read last under its name, or else null
  have hvalue : ∀ k t v, Table.find? k attrs = some t →
      Table.find? k (Value.completed attrs (Table.ofList es)) = some v →
        (Table.last? k es).getD (.null t) = v := by
    intro k t v ht hv
    rw [find?_completed, ht, Table.find?_ofList] at hv
    exact Option.some.inj hv
  refine ⟨conforms_entries htakes hd hes, .object hd (Value.names_completed attrs _) (fun k t v ht hv hx => ?_)
    fun k t v x ht hv hx => ?_⟩
  · rw [← hvalue k t v ht hv, (last?_eq_none_iff k hes).2 hx]
    rfl
  · obtain ⟨w, hw⟩ := Option.ne_none_iff_exists'.1 fun hnone =>
      nomatch hx.symm.trans ((last?_eq_none_iff k hes).1 hnone)
    obtain ⟨p, hp, hdenotes⟩ := last?_denotes hes hx hw
    rw [Ty.entryPart_of_member? (Ty.member?_object ht)] at hp
    cases hp
    rw [← hvalue k t v ht hv, hw]
    exact hdenotes.2

end

end

/-! ## Steps of reading -/

namespace Value

section

variable {form : δ → Form δ} {t : Ty} {d : δ} {path : Path}

theorem settles_unexpected {found : Found} (h : ¬ t.Takes (form d)) :
    Settles path (unexpected path t found) (Denotes form t d) (FirstOffence form t d) :=
  .here (.node h) rfl

theorem settles_leaf {c : Content} (h : t.leaf? (form d) = some c) :
    Settles path (ofRead t c) (Denotes form t d) (FirstOffence form t d) := by
  obtain ⟨htakes, hparts, hshape⟩ := Ty.leaf?_eq_some h
  rw [ofRead_of_shape hshape]
  refine .ok ⟨conforms_iff.2 ⟨htakes, ?_⟩, .leaf h⟩
  rw [hparts]
  exact List.forall_mem_nil _

theorem settles_numeral {s : String} (h : form d = .text s) :
    Settles path (ofNumeralText path .number (some s)) (Denotes form .number d) (FirstOffence form .number d) := by
  unfold ofNumeralText
  rw [Option.bind_some]
  cases hn : Number.ofText? s with
  | some n =>
    refine settles_leaf ?_
    rw [h, Ty.leaf?, hn]
    rfl
  | none   =>
    refine settles_unexpected ?_
    rw [h]
    show ¬ ((Number.ofText? s).map Content.number).isSome = true
    rw [hn]
    exact Bool.false_ne_true

/-- The check of a content reports no path, so it cannot be what fails. -/
theorem ofRead_of_placed {c : Content} {P : Value → Prop} (h : Placed (ofRead t c) P) :
    ofRead t c = .ok (.known t c) := by
  cases hshape : shapeFault? t c with
  | none       => exact ofRead_of_shape hshape
  | some fault =>
    have herror : ofRead t c = .error (.typeMismatch fault) := by
      unfold ofRead of
      rw [hshape]
      rfl
    obtain ⟨path, hpath⟩ := h.place _ herror
    cases hpath

theorem settles_known {x : Except ProviderError α} {make : α → Content} {good : α → Prop} {offence : Path → Prop}
    (hplaced : Placed (do ofRead t (make (← x))) fun v => v.Inhabits t) (hx : Settles path x good offence)
    (hgood : ∀ a, good a → Denotes form t d (.known t (make a)))
    (hoffence : ∀ q, offence q → FirstOffence form t d q) :
    Settles path (do ofRead t (make (← x))) (Denotes form t d) (FirstOffence form t d) := by
  cases x with
  | error e =>
    obtain ⟨q, hq, hplace⟩ := hx.place e rfl
    exact .error (hoffence q hq) hplace
  | ok a    =>
    have hread : ofRead t (make a) = .ok (.known t (make a)) := ofRead_of_placed hplaced
    show Settles path (ofRead t (make a)) _ _
    rw [hread]
    exact .ok (hgood a (hx.yields a rfl))

/-- What is read item by item is read as a whole. -/
theorem settles_array {items : List δ} {xs : Except ProviderError (List Value)} (htakes : t.Takes (form d))
    (hd : form d = .array items) (hplaced : Placed (do ofRead t (.list (← xs))) fun v => v.Inhabits t)
    (hxs : Settles path xs (List.Forall₂ (PartDenotes form) (t.parts (form d))) (FirstOf form (t.parts (form d)))) :
    Settles path (do ofRead t (.list (← xs))) (Denotes form t d) (FirstOffence form t d) :=
  settles_known hplaced hxs (fun _ hxs => denotes_array htakes hd rfl hxs) fun _ hq =>
    firstOffence_iff.2 (.inr ⟨htakes, hq⟩)

theorem settles_item {p : Part δ} {parts : List (Option (Part δ))} {x : Except ProviderError Value}
    {xs : Except ProviderError (List Value)}
    (hx : Settles (path ++ [p.step]) x (Denotes form p.ty p.node) (FirstOffence form p.ty p.node))
    (hxs : Settles path xs (List.Forall₂ (PartDenotes form) parts) (FirstOf form parts)) :
    Settles path (do let v ← x; let vs ← xs; pure (v :: vs)) (List.Forall₂ (PartDenotes form) (some p :: parts))
      (FirstOf form (some p :: parts)) := by
  refine hx.below.bind (fun v hv => ?_) fun q ⟨r, hr, hq⟩ => hq ▸ firstOf_here hr
  exact hxs.bind (fun vs hvs => .ok (.cons ⟨p, rfl, hv⟩ hvs)) fun q => FirstOf.later (partConforms_some_iff.2 hv.1)

theorem settles_entry {name : String} {step : Step} {u : Ty} {item : δ} {pairs : List (Option String × δ)}
    {x : Except ProviderError Value} {es : Except ProviderError (List (String × Value))}
    (hentry : t.member? name = some (step, u))
    (hx : Settles (path ++ [step]) x (Denotes form u item) (FirstOffence form u item))
    (hes : Settles path es (List.Forall₂ (EntryDenotes form t) pairs) (FirstOf form (pairs.map t.entryPart))) :
    Settles path (do let v ← x; let es ← es; pure ((name, v) :: es))
      (List.Forall₂ (EntryDenotes form t) ((some name, item) :: pairs))
      (FirstOf form (((some name, item) :: pairs).map t.entryPart)) := by
  have hpart : t.entryPart (some name, item) = some ⟨step, u, item⟩ := Ty.entryPart_of_member? hentry
  rw [List.map_cons, hpart]
  refine hx.below.bind (fun v hv => ?_) fun q ⟨r, hr, hq⟩ => hq ▸ firstOf_here hr
  refine hes.bind (fun es hes => .ok (.cons ⟨rfl, ⟨_, hpart, hv⟩⟩ hes)) fun q => ?_
  exact FirstOf.later (partConforms_some_iff.2 hv.1)

theorem settles_key (path : Path) (t : Ty) (k : Msgpack) :
    Settles path (keyOfMsgpack path t k) (fun name => k.text? = some name) fun q => k.text? = none ∧ q = [] := by
  unfold keyOfMsgpack
  split
  · rename_i bytes
    split
    · rename_i name hname
      exact .ok hname
    · rename_i hnone
      exact .here ⟨hnone, rfl⟩ rfl
  · rename_i hno
    refine .here ⟨?_, rfl⟩ rfl
    cases k with
    | string bytes => exact absurd rfl (hno bytes)
    | _            => rfl

/-- An entry whose key is no text is an offence of the node that it stands in. -/
theorem settles_named {k item : Msgpack} {pairs : List (Option String × Msgpack)}
    {f : String → Except ProviderError (List (String × Value))}
    (hf : ∀ name, Settles path (f name) (List.Forall₂ (EntryDenotes Msgpack.form t) ((some name, item) :: pairs))
      (FirstOf Msgpack.form (((some name, item) :: pairs).map t.entryPart))) :
    Settles path (do f (← keyOfMsgpack path t k))
      (List.Forall₂ (EntryDenotes Msgpack.form t) ((k.text?, item) :: pairs))
      (FirstOf Msgpack.form (((k.text?, item) :: pairs).map t.entryPart)) := by
  refine (settles_key path t k).bind (fun name hname => hname ▸ hf name) ?_
  rintro q ⟨hnone, rfl⟩
  rw [hnone]
  exact firstOf_entry _

end

/-! ## Leaves of a tree

An integer has to fit and a string has to be text; if not, they have a form that no type takes. -/

theorem form_int_of_fits {n : Int} (h : Number.Fits n) : (Msgpack.int n).form = .number (.int n h) := dif_pos h

theorem form_int_of_not_fits {n : Int} (h : ¬ Number.Fits n) : (Msgpack.int n).form = .other := dif_neg h

theorem form_string_of_text {bytes : Bytes} {s : String} (h : Text.Utf8.decode? bytes = some s) :
    (Msgpack.string bytes).form = .text s := by
  rw [Msgpack.form, h]
  rfl

theorem form_string_of_no_text {bytes : Bytes} (h : Text.Utf8.decode? bytes = none) :
    (Msgpack.string bytes).form = .other := by
  rw [Msgpack.form, h]
  rfl

theorem settles_extension (path : Path) (t : Ty) (type : Int) (data : Bytes) :
    Settles path (ofMsgpack path t (.extension type data)) (Denotes Msgpack.form t (.extension type data))
      (FirstOffence Msgpack.form t (.extension type data)) := by
  by_cases htype : type = unknownExtension
  · rw [ofMsgpack, if_pos htype]
    exact .ok (denotes_unknown (if_pos htype))
  · rw [ofMsgpack, if_neg htype]
    refine settles_unexpected ?_
    rw [Msgpack.form, if_neg htype]
    exact t.not_takes_other

theorem settles_bool (path : Path) (t : Ty) (b : Bool) :
    Settles path (ofMsgpack path t (.bool b)) (Denotes Msgpack.form t (.bool b))
      (FirstOffence Msgpack.form t (.bool b)) := by
  cases t with
  | bool => exact settles_leaf rfl
  | _    => exact settles_unexpected Bool.false_ne_true

theorem settles_int (path : Path) (t : Ty) (n : Int) :
    Settles path (ofMsgpack path t (.int n)) (Denotes Msgpack.form t (.int n))
      (FirstOffence Msgpack.form t (.int n)) := by
  by_cases fits : Number.Fits n
  · have hform := form_int_of_fits fits
    cases t with
    | number =>
      rw [ofMsgpack, Number.ofInt?, dif_pos fits]
      refine settles_leaf ?_
      rw [hform]
      rfl
    | _      =>
      refine settles_unexpected ?_
      rw [hform]
      exact Bool.false_ne_true
  · have hno : ¬ t.Takes (Msgpack.int n).form := form_int_of_not_fits fits ▸ t.not_takes_other
    cases t with
    | number =>
      rw [ofMsgpack, Number.ofInt?, dif_neg fits]
      exact settles_unexpected hno
    | _      => exact settles_unexpected hno

theorem settles_float (path : Path) (t : Ty) (x : Option Binary64) :
    Settles path (ofMsgpack path t (.float x)) (Denotes Msgpack.form t (.float x))
      (FirstOffence Msgpack.form t (.float x)) := by
  cases x with
  | none   =>
    cases t with
    | _ => exact settles_unexpected (Ty.not_takes_other _)
  | some y =>
    cases t with
    | number => exact settles_leaf rfl
    | _      => exact settles_unexpected Bool.false_ne_true

theorem settles_string (path : Path) (t : Ty) (bytes : Bytes) :
    Settles path (ofMsgpack path t (.string bytes)) (Denotes Msgpack.form t (.string bytes))
      (FirstOffence Msgpack.form t (.string bytes)) := by
  cases hs : Text.Utf8.decode? bytes with
  | none   =>
    have hno : ¬ t.Takes (Msgpack.string bytes).form := form_string_of_no_text hs ▸ t.not_takes_other
    cases t with
    | string =>
      rw [ofMsgpack, hs]
      exact settles_unexpected hno
    | number =>
      rw [ofMsgpack, hs]
      exact settles_unexpected hno
    | _      => exact settles_unexpected hno
  | some s =>
    have hform := form_string_of_text hs
    cases t with
    | string =>
      rw [ofMsgpack, hs]
      refine settles_leaf ?_
      rw [hform]
      rfl
    | number =>
      rw [ofMsgpack, hs]
      exact settles_numeral hform
    | _      =>
      refine settles_unexpected ?_
      rw [hform]
      exact Bool.false_ne_true

/-! ## Trees and JSON values -/

mutual

/-- **A tree is read as what it stands for, or else its first offence is reported.** -/
theorem ofMsgpack_settles (path : Path) {t : Ty} (ht : t.Canonical) : ∀ m : Msgpack,
    Settles path (ofMsgpack path t m) (Denotes Msgpack.form t m) (FirstOffence Msgpack.form t m)
  | .nil                 => .ok (denotes_null rfl)
  | .extension type data => settles_extension path t type data
  | .bool b              => settles_bool path t b
  | .int n               => settles_int path t n
  | .float x             => settles_float path t x
  | .string bytes        => settles_string path t bytes
  | .binary bytes        => settles_unexpected t.not_takes_other
  | .array items => by
    have hplaced := ofMsgpack_placed path ht (.array items)
    cases t with
    | list elem =>
      rw [ofMsgpack] at hplaced ⊢
      exact settles_array trivial rfl hplaced (itemsOfMsgpack_settles path elem ht 0 items)
    | set elem  =>
      rw [ofMsgpack] at hplaced ⊢
      exact settles_array trivial rfl hplaced (itemsOfMsgpack_settles path elem ht 0 items)
    | tuple ts  =>
      by_cases hlength : ts.length = items.length
      · rw [ofMsgpack, if_pos hlength] at hplaced ⊢
        exact settles_array hlength rfl hplaced (tupleOfMsgpack_settles path 0 (Ty.canonicalElems_iff.1 ht) items)
      · rw [ofMsgpack, if_neg hlength]
        exact settles_unexpected hlength
    | _         => exact settles_unexpected Bool.false_ne_true
  | .map pairs => by
    have hplaced := ofMsgpack_placed path ht (.map pairs)
    cases t with
    | map elem     =>
      rw [ofMsgpack] at hplaced ⊢
      refine settles_known hplaced (entriesOfMsgpack_settles path elem ht pairs)
        (fun es => denotes_map rfl) fun q hq => ?_
      exact firstOffence_iff.2 (.inr ⟨trivial, hq⟩)
    | object attrs =>
      rw [ofMsgpack] at hplaced ⊢
      refine settles_known hplaced (attributesOfMsgpack_settles path (Ty.canonicalAttrs_iff.1 ht.2) pairs)
        (fun es => denotes_object rfl) fun q hq => ?_
      exact firstOffence_iff.2 (.inr ⟨trivial, hq⟩)
    | _            => exact settles_unexpected Bool.false_ne_true

theorem itemsOfMsgpack_settles (path : Path) (elem : Ty) (ht : elem.Canonical) : ∀ (i : Nat) (items : List Msgpack),
    Settles path (itemsOfMsgpack path elem i items)
      (List.Forall₂ (PartDenotes Msgpack.form) (Ty.itemParts i (items.map (elem, ·))))
      (FirstOf Msgpack.form (Ty.itemParts i (items.map (elem, ·))))
  | _, []           => .ok .nil
  | i, item :: rest => by
    rw [itemsOfMsgpack]
    exact settles_item (ofMsgpack_settles _ ht item) (itemsOfMsgpack_settles path elem ht (i + 1) rest)

theorem tupleOfMsgpack_settles (path : Path) : ∀ (i : Nat) {ts : List Ty}, (∀ t ∈ ts, t.Canonical) →
    ∀ items : List Msgpack, Settles path (tupleOfMsgpack path i ts items)
      (List.Forall₂ (PartDenotes Msgpack.form) (Ty.itemParts i (ts.zip items)))
      (FirstOf Msgpack.form (Ty.itemParts i (ts.zip items)))
  | i, t :: ts, hts, item :: rest => by
    obtain ⟨ht, hts⟩ := List.forall_mem_cons.1 hts
    rw [tupleOfMsgpack]
    exact settles_item (ofMsgpack_settles _ ht item) (tupleOfMsgpack_settles path (i + 1) hts rest)
  | _, [], _, []                  => .ok .nil
  | _, [], _, _ :: _              => .ok .nil
  | _, _ :: _, _, []              => .ok .nil

theorem entriesOfMsgpack_settles (path : Path) (elem : Ty) (ht : elem.Canonical) :
    ∀ pairs : List (Msgpack × Msgpack), Settles path (entriesOfMsgpack path (.map elem) elem pairs)
      (List.Forall₂ (EntryDenotes Msgpack.form (.map elem)) (pairs.map fun e => (e.1.text?, e.2)))
      (FirstOf Msgpack.form ((pairs.map fun e => (e.1.text?, e.2)).map (Ty.map elem).entryPart))
  | []                => .ok .nil
  | (k, item) :: rest => by
    rw [entriesOfMsgpack]
    refine settles_named fun name => ?_
    exact settles_entry rfl (ofMsgpack_settles _ ht item) (entriesOfMsgpack_settles path elem ht rest)

theorem attributesOfMsgpack_settles (path : Path) {attrs : List (String × Ty)} (hattrs : ∀ a ∈ attrs, a.2.Canonical) :
    ∀ pairs : List (Msgpack × Msgpack), Settles path (attributesOfMsgpack path (.object attrs) attrs pairs)
      (List.Forall₂ (EntryDenotes Msgpack.form (.object attrs)) (pairs.map fun e => (e.1.text?, e.2)))
      (FirstOf Msgpack.form ((pairs.map fun e => (e.1.text?, e.2)).map (Ty.object attrs).entryPart))
  | []                => .ok .nil
  | (k, item) :: rest => by
    rw [attributesOfMsgpack]
    refine settles_named fun name => ?_
    cases hfind : Table.find? name attrs with
    | none   =>
      have hpart : (Ty.object attrs).entryPart (some name, item) = none := by
        rw [Ty.entryPart, Option.bind_some, Ty.member?, hfind]
        rfl
      rw [List.map_cons, hpart]
      exact .here (firstOf_entry _) rfl
    | some u =>
      exact settles_entry (Ty.member?_object hfind) (ofMsgpack_settles _ (hattrs _ (Table.mem_of_find? hfind)) item)
        (attributesOfMsgpack_settles path hattrs rest)

end

/-- So is a JSON value, since it is read like its tree. -/
theorem ofJsonAt_settles (path : Path) {t : Ty} (ht : t.Canonical) (j : Json) :
    Settles path (ofJsonAt path t j) (Denotes Json.form t j) (FirstOffence Json.form t j) := by
  have htree := (ofMsgpack_settles path ht j.toMsgpack).of_agree (ofJsonAt_agrees path t j)
  refine htree.mono (fun v hv => ⟨?_, ?_⟩) fun q => ?_
  · exact hv.1.of_map Json.form_toMsgpack
  · exact hv.2.of_map Json.form_toMsgpack
  · exact FirstOffence.of_map Json.form_toMsgpack

end Value

end ProviderProtocol
