import ProviderProtocol.Proofs.Codec.Agreement
import ProviderProtocol.Proofs.Table
/-!
# Documents that conform to a type

Msgpack trees and JSON values are told apart only by what their nodes look like, which is their `Form`.  All else is
said of forms: whether a type takes a node (`Ty.Takes`), what the parts of the node are, in document order, and where
each of them belongs (`Ty.parts`).  A document conforms to a type if the type takes its root, every part has a place and
all parts conform (`Conforms`).  A document that does not conform has a first offence, at one path (`FirstOffence`), and
one that conforms stands for a value (`StandsFor`).

A JSON value conforms, offends and stands for values like its msgpack tree (`Conforms.of_map` and the lemmas after it).
-/
namespace ProviderProtocol

/-- What a reader sees of a node.  A key that is no text is `none`; no type takes a node of the form `other`. -/
inductive Form (δ : Type)
  | null
  | unknown
  | bool (b : Bool)
  | number (n : Number)
  | text (s : String)
  | array (items : List δ)
  | entries (pairs : List (Option String × δ))
  | other

def Form.map (f : δ → ε) : Form δ → Form ε
  | .null          => .null
  | .unknown       => .unknown
  | .bool b        => .bool b
  | .number n      => .number n
  | .text s        => .text s
  | .array items   => .array (items.map f)
  | .entries pairs => .entries (pairs.map fun e => (e.1, f e.2))
  | .other         => .other

/-- The text of a string in UTF-8. -/
def Msgpack.text? : Msgpack → Option String
  | .string bytes => Text.Utf8.decode? bytes
  | _             => none

/-- Strings have to be in UTF-8, integers have to fit 64 bits and floats have to be finite. -/
def Msgpack.form : Msgpack → Form Msgpack
  | .nil              => .null
  | .bool b           => .bool b
  | .int n            => if h : Number.Fits n then .number (.int n h) else .other
  | .float x          => x.elim .other fun y => .number (.float y)
  | .string bytes     => (Text.Utf8.decode? bytes).elim .other .text
  | .binary _         => .other
  | .array items      => .array items
  | .map pairs        => .entries (pairs.map fun e => (e.1.text?, e.2))
  | .extension type _ => if type = Value.unknownExtension then .unknown else .other

/-- The members of an object stand in ascending order of their names. -/
def Json.form : Json → Form Json
  | .null           => .null
  | .bool b         => .bool b
  | .number n       => .number n
  | .string s       => .text s
  | .array items    => .array items
  | .object members => .entries (members.map fun e => (some e.1, e.2))

/-- A child of a node: the step to it, the type that it has to be of, and the document that stands there. -/
structure Part (δ : Type) where
  step : Step
  ty : Ty
  node : δ

def Part.map (f : δ → ε) (p : Part δ) : Part ε := ⟨p.step, p.ty, f p.node⟩

/-! ## Nodes and their parts -/

namespace Ty

/-- The content of a node without children, if the type takes it. -/
def leaf? : Ty → Form δ → Option Content
  | .string, .text s   => some (.string s)
  | .number, .number n => some (.number n)
  | .number, .text s   => (Number.ofText? s).map .number
  | .bool, .bool b     => some (.bool b)
  | _, _               => none

/-- The node by itself, whatever its children are, is one that the type takes. -/
def Takes : Ty → Form δ → Prop
  | _, .null | _, .unknown                     => True
  | .list _, .array _ | .set _, .array _       => True
  | .tuple ts, .array items                    => ts.length = items.length
  | .map _, .entries _ | .object _, .entries _ => True
  | t, f                                       => (t.leaf? f).isSome = true

/-- The step to the entry of this name and the type of the entry; an object has only declared entries. -/
def member? : Ty → String → Option (Step × Ty)
  | .map elem, name     => some (.key name, elem)
  | .object attrs, name => (Table.find? name attrs).map fun t => (.attribute name, t)
  | _, _                => none

/-- An entry as a part of the node, if it has a place there. -/
def entryPart (t : Ty) (e : Option String × δ) : Option (Part δ) :=
  (e.1.bind t.member?).map fun place => ⟨place.1, place.2, e.2⟩

/-- Items as parts of a node, counted from `i`. -/
def itemParts : Nat → List (Ty × δ) → List (Option (Part δ))
  | _, []             => []
  | i, (t, x) :: rest => some ⟨.index i, t, x⟩ :: itemParts (i + 1) rest

/-- The parts of a node in document order; `none` is an entry without a place. -/
def parts : Ty → Form δ → List (Option (Part δ))
  | .list elem, .array items | .set elem, .array items => itemParts 0 (items.map (elem, ·))
  | .tuple ts, .array items                            => itemParts 0 (ts.zip items)
  | t, .entries pairs                                  => pairs.map t.entryPart
  | _, _                                               => []

end Ty

/-! ## Conforming documents -/

inductive Conforms (form : δ → Form δ) : Ty → δ → Prop
  | intro {t : Ty} {d : δ} : t.Takes (form d) → none ∉ t.parts (form d) →
    (∀ p : Part δ, some p ∈ t.parts (form d) → Conforms form p.ty p.node) → Conforms form t d

/-- The part has a place, and what stands there conforms. -/
def PartConforms (form : δ → Form δ) (part : Option (Part δ)) : Prop :=
  ∃ p, part = some p ∧ Conforms form p.ty p.node

/-- The first offence of a document is at this path: all that comes before it conforms.  The node itself comes first; an
entry without a place is an offence of the node that it stands in. -/
inductive FirstOffence (form : δ → Form δ) : Ty → δ → Path → Prop
  | node {t : Ty} {d : δ} : ¬ t.Takes (form d) → FirstOffence form t d []
  | entry {t : Ty} {d : δ} {before after : List (Option (Part δ))} : t.Takes (form d) →
    t.parts (form d) = before ++ none :: after → (∀ part ∈ before, PartConforms form part) → FirstOffence form t d []
  | inside {t : Ty} {d : δ} {before after : List (Option (Part δ))} {p : Part δ} {q : Path} : t.Takes (form d) →
    t.parts (form d) = before ++ some p :: after → (∀ part ∈ before, PartConforms form part) →
    FirstOffence form p.ty p.node q → FirstOffence form t d (p.step :: q)

/-- The value that a document stands for.  Of several entries with one name the last counts, and an attribute without
any is null. -/
inductive StandsFor (form : δ → Form δ) : Ty → δ → Value → Prop
  | null {t : Ty} {d : δ} : form d = .null → StandsFor form t d (.null t)
  | unknown {t : Ty} {d : δ} : form d = .unknown → StandsFor form t d (.unknown t)
  | leaf {t : Ty} {d : δ} {c : Content} : t.leaf? (form d) = some c → StandsFor form t d (.known t c)
  | array {t : Ty} {d : δ} {items : List δ} {xs : List Value} : t.Takes (form d) → form d = .array items →
    xs.length = items.length →
    (∀ (i : Nat) (p : Part δ) x, (t.parts (form d))[i]? = some (some p) → xs[i]? = some x →
      StandsFor form p.ty p.node x) →
    StandsFor form t d (.known t (.list xs))
  | map {elem : Ty} {d : δ} {pairs : List (Option String × δ)} {es : List (String × Value)} :
    form d = .entries pairs → Table.Ascending es →
    (∀ k, Table.find? k es = none ↔ Table.last? (some k) pairs = none) →
    (∀ k x v, Table.last? (some k) pairs = some x → Table.find? k es = some v → StandsFor form elem x v) →
    StandsFor form (.map elem) d (.known (.map elem) (.map es))
  | object {attrs : List (String × Ty)} {d : δ} {pairs : List (Option String × δ)} {es : List (String × Value)} :
    form d = .entries pairs → Table.names es = Table.names attrs →
    (∀ k t v, Table.find? k attrs = some t → Table.find? k es = some v → Table.last? (some k) pairs = none →
      v = .null t) →
    (∀ k t v x, Table.find? k attrs = some t → Table.find? k es = some v → Table.last? (some k) pairs = some x →
      StandsFor form t x v) →
    StandsFor form (.object attrs) d (.known (.object attrs) (.map es))

section

variable {form : δ → Form δ} {t : Ty} {d : δ}

theorem not_partConforms_none : ¬ PartConforms form none := by
  rintro ⟨p, hp, _⟩
  cases hp

theorem partConforms_some_iff {p : Part δ} : PartConforms form (some p) ↔ Conforms form p.ty p.node := by
  constructor
  · rintro ⟨q, hq, hconforms⟩
    cases hq
    exact hconforms
  · exact fun h => ⟨p, rfl, h⟩

theorem conforms_iff : Conforms form t d ↔ t.Takes (form d) ∧ ∀ part ∈ t.parts (form d), PartConforms form part := by
  constructor
  · rintro ⟨htakes, hplaced, hparts⟩
    refine ⟨htakes, fun part hpart => ?_⟩
    cases part with
    | none   => exact absurd hpart hplaced
    | some p => exact ⟨p, rfl, hparts p hpart⟩
  · rintro ⟨htakes, hparts⟩
    refine ⟨htakes, fun hnone => not_partConforms_none (hparts none hnone), fun p hp => ?_⟩
    exact partConforms_some_iff.1 (hparts (some p) hp)

/-! ## Offences -/

/-- The first offence of a part, from the node that it is a part of. -/
def PartOffence (form : δ → Form δ) : Option (Part δ) → Path → Prop
  | none, q   => q = []
  | some p, q => ∃ r, FirstOffence form p.ty p.node r ∧ q = p.step :: r

/-- The first offence of these parts: all parts before one conform, and that one does not. -/
def FirstOf (form : δ → Form δ) (parts : List (Option (Part δ))) (q : Path) : Prop :=
  ∃ before part after, parts = before ++ part :: after ∧ (∀ p ∈ before, PartConforms form p) ∧ PartOffence form part q

theorem firstOffence_iff {q : Path} :
    FirstOffence form t d q ↔
      (¬ t.Takes (form d) ∧ q = []) ∨ (t.Takes (form d) ∧ FirstOf form (t.parts (form d)) q) := by
  constructor
  · intro h
    cases h with
    | node hnot => exact .inl ⟨hnot, rfl⟩
    | entry htakes hsplit hbefore => exact .inr ⟨htakes, _, none, _, hsplit, hbefore, rfl⟩
    | inside htakes hsplit hbefore hoffence => exact .inr ⟨htakes, _, some _, _, hsplit, hbefore, _, hoffence, rfl⟩
  · rintro (⟨hnot, rfl⟩ | ⟨htakes, before, part, after, hsplit, hbefore, hpart⟩)
    · exact .node hnot
    · cases part with
      | none   =>
        subst hpart
        exact .entry htakes hsplit hbefore
      | some p =>
        obtain ⟨r, hoffence, rfl⟩ := hpart
        exact .inside htakes hsplit hbefore hoffence

theorem FirstOffence.not_conforms {q : Path} (h : FirstOffence form t d q) : ¬ Conforms form t d := by
  induction h with
  | node hnot => exact fun hconforms => hnot (conforms_iff.1 hconforms).1
  | entry _ hsplit _ =>
    intro hconforms
    have hmem : none ∈ Ty.parts _ (form _) := hsplit ▸ List.mem_append_right _ List.mem_cons_self
    exact not_partConforms_none ((conforms_iff.1 hconforms).2 none hmem)
  | @inside t d before after p q _ hsplit _ _ ih =>
    intro hconforms
    have hmem : some p ∈ t.parts (form d) := hsplit ▸ List.mem_append_right _ List.mem_cons_self
    exact ih (partConforms_some_iff.1 ((conforms_iff.1 hconforms).2 (some p) hmem))

theorem PartOffence.not_conforms {part : Option (Part δ)} {q : Path} (h : PartOffence form part q) :
    ¬ PartConforms form part := by
  cases part with
  | none   => exact not_partConforms_none
  | some p =>
    obtain ⟨r, hr, _⟩ := h
    exact fun hconforms => hr.not_conforms (partConforms_some_iff.1 hconforms)

theorem firstOf_here {p : Part δ} {rest : List (Option (Part δ))} {r : Path} (h : FirstOffence form p.ty p.node r) :
    FirstOf form (some p :: rest) (p.step :: r) :=
  ⟨[], some p, rest, rfl, List.forall_mem_nil _, r, h, rfl⟩

theorem firstOf_entry (rest : List (Option (Part δ))) : FirstOf form (none :: rest) [] :=
  ⟨[], none, rest, rfl, List.forall_mem_nil _, rfl⟩

theorem FirstOf.later {part : Option (Part δ)} {rest : List (Option (Part δ))} {q : Path}
    (hpart : PartConforms form part) (h : FirstOf form rest q) : FirstOf form (part :: rest) q := by
  obtain ⟨before, next, after, rfl, hbefore, hnext⟩ := h
  exact ⟨part :: before, next, after, rfl, List.forall_mem_cons.2 ⟨hpart, hbefore⟩, hnext⟩

end

/-! ## JSON values and their trees -/

section

variable {form : δ → Form δ} {form' : ε → Form ε} {f : δ → ε}

theorem Form.eq_null_of_map {x : Form δ} (h : x.map f = .null) : x = .null := by
  cases x with
  | null => rfl
  | _    => cases h

theorem Form.eq_unknown_of_map {x : Form δ} (h : x.map f = .unknown) : x = .unknown := by
  cases x with
  | unknown => rfl
  | _       => cases h

theorem Form.eq_array_of_map {x : Form δ} {items : List ε} (h : x.map f = .array items) :
    ∃ items', x = .array items' ∧ items = items'.map f := by
  cases x with
  | array items' =>
    cases h
    exact ⟨items', rfl, rfl⟩
  | _            => cases h

theorem Form.eq_entries_of_map {x : Form δ} {pairs : List (Option String × ε)} (h : x.map f = .entries pairs) :
    ∃ pairs', x = .entries pairs' ∧ pairs = pairs'.map fun e => (e.1, f e.2) := by
  cases x with
  | entries pairs' =>
    cases h
    exact ⟨pairs', rfl, rfl⟩
  | _              => cases h

theorem Ty.leaf?_map (t : Ty) (x : Form δ) (f : δ → ε) : t.leaf? (x.map f) = t.leaf? x := by
  cases t <;> cases x <;> rfl

theorem Ty.takes_map_iff (t : Ty) (x : Form δ) (f : δ → ε) : t.Takes (x.map f) ↔ t.Takes x := by
  cases t <;> cases x <;> simp [Takes, Form.map, leaf?]

theorem Ty.itemParts_map (f : δ → ε) : ∀ (i : Nat) (xs : List (Ty × δ)),
    itemParts i (xs.map fun e => (e.1, f e.2)) = (itemParts i xs).map (Option.map (Part.map f))
  | _, []      => rfl
  | i, _ :: xs => congrArg (_ :: ·) (itemParts_map f (i + 1) xs)

theorem Ty.entryPart_map (t : Ty) (f : δ → ε) (e : Option String × δ) :
    t.entryPart (e.1, f e.2) = (t.entryPart e).map (Part.map f) := by
  unfold entryPart
  rw [Option.map_map]
  rfl

theorem Ty.parts_map (t : Ty) (x : Form δ) (f : δ → ε) :
    t.parts (x.map f) = (t.parts x).map (Option.map (Part.map f)) := by
  cases x with
  | entries pairs =>
    have hpairs : ∀ t : Ty, (pairs.map fun e => (e.1, f e.2)).map t.entryPart =
        (pairs.map t.entryPart).map (Option.map (Part.map f)) := by
      intro t
      rw [List.map_map, List.map_map]
      exact List.map_congr_left fun e _ => t.entryPart_map f e
    cases t <;> exact hpairs _
  | array items =>
    have hitems : ∀ elem : Ty, (items.map f).map (elem, ·) = (items.map (elem, ·)).map fun e => (e.1, f e.2) := by
      intro elem
      rw [List.map_map, List.map_map]
      rfl
    cases t with
    | list elem =>
      show itemParts 0 ((items.map f).map (elem, ·)) = _
      rw [hitems, itemParts_map]
      rfl
    | set elem  =>
      show itemParts 0 ((items.map f).map (elem, ·)) = _
      rw [hitems, itemParts_map]
      rfl
    | tuple ts  =>
      show itemParts 0 (ts.zip (items.map f)) = _
      rw [List.zip_map_right]
      exact itemParts_map f 0 (ts.zip items)
    | _         => rfl
  | _ => cases t <;> rfl

variable (hform : ∀ d, form' (f d) = (form d).map f)
include hform

theorem Conforms.of_map {t : Ty} {d : δ} (h : Conforms form' t (f d)) : Conforms form t d := by
  generalize hd : f d = d' at h
  induction h generalizing d with
  | @intro t d' htakes hplaced _ ih =>
    subst hd
    rw [hform, Ty.takes_map_iff] at htakes
    rw [hform, Ty.parts_map] at hplaced ih
    refine ⟨htakes, fun hnone => hplaced (List.mem_map.2 ⟨none, hnone, rfl⟩), fun p hp => ?_⟩
    exact ih (p.map f) (List.mem_map.2 ⟨some p, hp, rfl⟩) rfl

theorem partConforms_of_map {part : Option (Part δ)} (h : PartConforms form' (part.map (Part.map f))) :
    PartConforms form part := by
  cases part with
  | none   => exact absurd h not_partConforms_none
  | some p => exact ⟨p, rfl, Conforms.of_map hform (partConforms_some_iff.1 h)⟩

/-- A split of the parts of the image is the image of a split of the parts. -/
theorem FirstOffence.of_map {t : Ty} {d : δ} {q : Path} (h : FirstOffence form' t (f d) q) :
    FirstOffence form t d q := by
  generalize hd : f d = d' at h
  induction h generalizing d with
  | node hnot =>
    subst hd
    rw [hform, Ty.takes_map_iff] at hnot
    exact .node hnot
  | entry htakes hsplit hbefore =>
    subst hd
    rw [hform, Ty.takes_map_iff] at htakes
    rw [hform, Ty.parts_map] at hsplit
    obtain ⟨before, rest, hparts, rfl, hrest⟩ := List.map_eq_append_iff.1 hsplit
    obtain ⟨part, after, rfl, hpart, rfl⟩ := List.map_eq_cons_iff.1 hrest
    obtain rfl := Option.map_eq_none_iff.1 hpart
    refine .entry htakes hparts fun p hp => ?_
    exact partConforms_of_map hform (hbefore _ (List.mem_map_of_mem hp))
  | inside htakes hsplit hbefore _ ih =>
    subst hd
    rw [hform, Ty.takes_map_iff] at htakes
    rw [hform, Ty.parts_map] at hsplit
    obtain ⟨before, rest, hparts, rfl, hrest⟩ := List.map_eq_append_iff.1 hsplit
    obtain ⟨part, after, rfl, hpart, rfl⟩ := List.map_eq_cons_iff.1 hrest
    obtain ⟨p, rfl, rfl⟩ := Option.map_eq_some_iff.1 hpart
    refine .inside htakes hparts (fun p hp => ?_) (ih rfl)
    exact partConforms_of_map hform (hbefore _ (List.mem_map_of_mem hp))

theorem StandsFor.of_map {t : Ty} {d : δ} {v : Value} (h : StandsFor form' t (f d) v) : StandsFor form t d v := by
  generalize hd : f d = d' at h
  induction h generalizing d with
  | null hd' =>
    subst hd
    rw [hform] at hd'
    exact .null (Form.eq_null_of_map hd')
  | unknown hd' =>
    subst hd
    rw [hform] at hd'
    exact .unknown (Form.eq_unknown_of_map hd')
  | leaf hleaf =>
    subst hd
    rw [hform, Ty.leaf?_map] at hleaf
    exact .leaf hleaf
  | array htakes hd' hlength _ ih =>
    subst hd
    rw [hform, Ty.takes_map_iff] at htakes
    rw [hform] at hd'
    obtain ⟨items, hitems, rfl⟩ := Form.eq_array_of_map hd'
    rw [List.length_map] at hlength
    refine .array htakes hitems hlength fun i p x hp hx => ?_
    refine ih i (p.map f) x ?_ hx rfl
    rw [hform, Ty.parts_map, List.getElem?_map, hp]
    rfl
  | map hd' hasc hnames _ ih =>
    subst hd
    rw [hform] at hd'
    obtain ⟨pairs, hpairs, rfl⟩ := Form.eq_entries_of_map hd'
    refine .map hpairs hasc (fun k => ?_) fun k x v hx hv => ?_
    · rw [hnames, Table.last?_map, Option.map_eq_none_iff]
    · refine ih k (f x) v ?_ hv rfl
      rw [Table.last?_map, hx]
      rfl
  | object hd' hnames habsent _ ih =>
    subst hd
    rw [hform] at hd'
    obtain ⟨pairs, hpairs, rfl⟩ := Form.eq_entries_of_map hd'
    refine .object hpairs hnames (fun k t v ht hv hx => ?_) fun k t v x ht hv hx => ?_
    · refine habsent k t v ht hv ?_
      rw [Table.last?_map, hx]
      rfl
    · refine ih k t v (f x) ht hv ?_ rfl
      rw [Table.last?_map, hx]
      rfl

end

theorem Json.itemsToMsgpack_eq : ∀ js : List Json, itemsToMsgpack js = js.map toMsgpack
  | []      => rfl
  | j :: js => congrArg (j.toMsgpack :: ·) (itemsToMsgpack_eq js)

theorem Json.membersToMsgpack_eq (ms : List (String × Json)) :
    membersToMsgpack ms = ms.map fun e => (Msgpack.ofText e.1, e.2.toMsgpack) := by
  induction ms with
  | nil          => rfl
  | cons e ms ih => exact congrArg ((Msgpack.ofText e.1, e.2.toMsgpack) :: ·) ih

theorem Json.form_toMsgpack (j : Json) : j.toMsgpack.form = j.form.map Json.toMsgpack := by
  cases j with
  | number n =>
    cases n with
    | int n fits => exact dif_pos fits
    | float x    => rfl
  | string s =>
    show (Text.Utf8.decode? (Text.Utf8.encode s)).elim _ _ = _
    rw [Text.Utf8.decode?_encode]
    rfl
  | array items => exact congrArg Form.array (itemsToMsgpack_eq items)
  | object members =>
    show Form.entries ((membersToMsgpack members).map fun e => (e.1.text?, e.2)) =
      .entries ((members.map fun e => (some e.1, e.2)).map fun e => (e.1, e.2.toMsgpack))
    rw [membersToMsgpack_eq, List.map_map, List.map_map]
    refine congrArg _ (List.map_congr_left fun e _ => ?_)
    show (Text.Utf8.decode? (Text.Utf8.encode e.1), _) = _
    rw [Text.Utf8.decode?_encode]
    rfl
  | _ => rfl

end ProviderProtocol
