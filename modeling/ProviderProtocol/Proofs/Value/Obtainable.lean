import ProviderProtocol.Proofs.Codec.Payload
import ProviderProtocol.Proofs.Plan.Marking
import ProviderProtocol.Proofs.Value.Transform
/-!
# Values that a program can get hold of

A value is obtainable if finitely many operations lead to it from the values at hand.  The operations are all those that
make values: constructors, replacing an attribute, taking out a part, decoding, marking what is computed, and rewriting
by a callback.  A callback may be any function with a state.  At each call it has at hand what its program has, the node
that it is shown, the set elements on the path of the node and what it has kept in its state; what it returns and what
it keeps has to be obtainable from these.

At every depth of an obtainable value the contents are what the types describe (`Obtainable.describes_every_node`).
-/
namespace ProviderProtocol

/-- The contents of known values of a type. -/
def Ty.Describes : Ty → Content → Prop
  | .string, c         => ∃ s, c = .string s
  | .number, c         => ∃ n, c = .number n
  | .bool, c           => ∃ b, c = .bool b
  | .list t, c         => ∃ xs, c = .list xs ∧ ∀ x ∈ xs, x.ty = t
  | .set t, c          => ∃ xs, c = .list xs ∧ ∀ x ∈ xs, x.ty = t
  | .map t, c          => ∃ es, c = .map es ∧ ∀ e ∈ es, e.2.ty = t
  | .object attrs, c   => ∃ es, c = .map es ∧ es.map (fun e => (e.1, e.2.ty)) = attrs
  | .tuple elems, c    => ∃ xs, c = .list xs ∧ xs.map Value.ty = elems

/-- At every depth types are canonical and entries ascend.  A program has no other values, whatever their shapes. -/
def Value.Representable (v : Value) : Prop :=
  ∀ q x, v.nodeAt? q = some x → x.ty.Canonical ∧ ∀ c, x.content? = some c → c.Ordered

/-- The values that a run leaves: its result, if there is one, and those in its state. -/
def runValues (held : τ → List Value) : Except ProviderError Value × τ → List Value
  | (.ok v, s)    => v :: held s
  | (.error _, s) => held s

/-- What a callback has at hand when it is shown a node. -/
inductive CallHand (hand : Value → Prop) (path : Path) (node : Value) (kept : List Value) : Value → Prop
  | outer {v : Value} : hand v → CallHand hand path node kept v
  | node : CallHand hand path node kept node
  | element {v : Value} : Step.element v ∈ path → CallHand hand path node kept v
  | kept {v : Value} : v ∈ kept → CallHand hand path node kept v

inductive Obtainable : (Value → Prop) → Value → Prop
  | atHand {hand : Value → Prop} {v : Value} : hand v → Obtainable hand v
  | new {hand : Value → Prop} {t : Ty} {c : Content} {v : Value} : t.Canonical → c.Ordered →
    (∀ x ∈ c.parts, Obtainable hand x) → Value.of t c = .ok v → Obtainable hand v
  | null {hand : Value → Prop} {t : Ty} : t.Canonical → Obtainable hand (.null t)
  | unknown {hand : Value → Prop} {t : Ty} : t.Canonical → Obtainable hand (.unknown t)
  | string {hand : Value → Prop} (s : String) : Obtainable hand (.ofString s)
  | number {hand : Value → Prop} (n : Number) : Obtainable hand (.ofNumber n)
  | float {hand : Value → Prop} {bits : Nat} {v : Value} : Value.ofFloatBits bits = .ok v → Obtainable hand v
  | bool {hand : Value → Prop} (b : Bool) : Obtainable hand (.ofBool b)
  | object {hand : Value → Prop} {attrs : List (String × Value)} : (∀ a ∈ attrs, Obtainable hand a.2) →
    Obtainable hand (.ofAttributes attrs)
  | tuple {hand : Value → Prop} {xs : List Value} : (∀ x ∈ xs, Obtainable hand x) → Obtainable hand (.ofTuple xs)
  | list {hand : Value → Prop} {elem : Ty} {xs : List Value} {v : Value} : elem.Canonical →
    (∀ x ∈ xs, Obtainable hand x) → Value.ofList elem xs = .ok v → Obtainable hand v
  | set {hand : Value → Prop} {elem : Ty} {xs : List Value} {v : Value} : elem.Canonical →
    (∀ x ∈ xs, Obtainable hand x) → Value.ofSet elem xs = .ok v → Obtainable hand v
  | map {hand : Value → Prop} {elem : Ty} {es : List (String × Value)} {v : Value} : elem.Canonical →
    (∀ e ∈ es, Obtainable hand e.2) → Value.ofEntries elem es = .ok v → Obtainable hand v
  | setAttribute {hand : Value → Prop} {v new r : Value} {name : String} : Obtainable hand v → Obtainable hand new →
    v.setAttribute name new = .ok r → Obtainable hand r
  | part {hand : Value → Prop} {v x : Value} {q : Value.Position} : Obtainable hand v → v.nodeAt? q = some x →
    Obtainable hand x
  | decode {hand : Value → Prop} {t : Ty} {p : Option Payload} {v : Value} : t.Canonical →
    Payload.decode t p = .ok v → Obtainable hand v
  | json {hand : Value → Prop} {t : Ty} {j : Json} {v : Value} : t.Canonical → Value.ofJson t j = .ok v →
    Obtainable hand v
  | unmarshal {hand : Value → Prop} {t : Ty} {raw : RawState} {v : Value} : t.Canonical → raw.unmarshal t = .ok v →
    Obtainable hand v
  | marked {hand : Value → Prop} {s : Schema} {config proposed v : Value} : Obtainable hand config →
    Obtainable hand proposed → s.markComputedUnknown config proposed = .ok v → Obtainable hand v
  | transform {hand : Value → Prop} {v w : Value} {τ : Type} {held : τ → List Value} {s : τ}
      {visit : Path → Value → ExceptT ProviderError (StateM τ) Value} :
    Obtainable hand v → (∀ u ∈ held s, Obtainable hand u) →
    (∀ p x t, (∀ u, CallHand hand p x (held t) u → u.Representable) →
      ∀ u ∈ runValues held ((visit p x).run.run t), Obtainable (CallHand hand p x (held t)) u) →
    w ∈ runValues held ((v.transform visit).run.run s) → Obtainable hand w

/-! ## The invariant -/

theorem Value.WellFormed.nodeAt? {v x : Value} {q : Value.Position} (h : v.WellFormed) (hn : v.nodeAt? q = some x) :
    x.WellFormed := by
  obtain ⟨⟨p, y⟩, hy, he⟩ := Option.map_eq_some_iff.1 hn
  cases he
  exact (h.along?_node? hy).2

theorem Value.WellFormed.representable {v : Value} (h : v.WellFormed) : v.Representable := by
  intro q x hx
  have hnode : x.WellFormed := h.nodeAt? hx
  refine ⟨hnode.canonical, fun c hc => ?_⟩
  cases x with
  | null t    => cases hc
  | unknown t => cases hc
  | known t d =>
    cases hc
    exact (Content.wellFormed_iff.1 hnode.2.2).1

theorem Value.WellFormed.describes {t : Ty} {c : Content} (h : (Value.known t c).WellFormed) : t.Describes c := by
  cases c with
  | string s =>
    obtain rfl := shapeFault?_string.1 h.2.1
    exact ⟨s, rfl⟩
  | number n =>
    obtain rfl := shapeFault?_number.1 h.2.1
    exact ⟨n, rfl⟩
  | bool b =>
    obtain rfl := shapeFault?_bool.1 h.2.1
    exact ⟨b, rfl⟩
  | list xs =>
    rcases shapeFault?_list.1 h.2.1 with ⟨e, rfl | rfl, he⟩ | rfl
    · exact ⟨xs, rfl, he⟩
    · exact ⟨xs, rfl, he⟩
    · exact ⟨xs, rfl, rfl⟩
  | map es =>
    rcases (shapeFault?_map h.1 h.ascending).1 h.2.1 with ⟨e, rfl, he⟩ | rfl
    · exact ⟨es, rfl, he⟩
    · exact ⟨es, rfl, rfl⟩

theorem forall_runValues {held : τ → List Value} {P : Value → Prop} {r : Except ProviderError Value × τ} :
    (∀ w ∈ runValues held r, P w) ↔ (∀ w ∈ held r.2, P w) ∧ Yields r.1 P := by
  obtain ⟨result, s⟩ := r
  cases result with
  | error e => exact ⟨fun h => ⟨h, .error⟩, fun h => h.1⟩
  | ok v =>
    constructor
    · intro h
      obtain ⟨hv, hs⟩ := List.forall_mem_cons.1 h
      exact ⟨hs, .ok hv⟩
    · rintro ⟨hs, hv⟩
      exact List.forall_mem_cons.2 ⟨hv v rfl, hs⟩

theorem Schema.markNode_wellFormed (s : Schema) (config : Value) (p : Path) {x : Value} (hx : x.WellFormed) :
    Yields (s.markNode config p x) Value.WellFormed := by
  have hleaves : Yields (leavesNull config p) fun _ => True := fun _ _ => trivial
  unfold markNode
  split
  · exact .ok hx
  · refine hleaves.bind fun isNull _ => .ok ?_
    split
    · exact hx.canonical
    · exact hx

namespace Obtainable

/-- **What is obtainable from well-formed values is well-formed.** -/
theorem wellFormed {hand : Value → Prop} {v : Value} (h : Obtainable hand v) :
    (∀ u, hand u → u.WellFormed) → v.WellFormed := by
  induction h with
  | atHand hv => exact fun hhand => hhand _ hv
  | new ht hord _ hof ih =>
    exact fun hhand => Value.of_wellFormed ht (Content.wellFormed_iff.2 ⟨hord, fun x hx => ih x hx hhand⟩) hof
  | null ht => exact fun _ => ht
  | unknown ht => exact fun _ => ht
  | string s => exact fun _ => ⟨trivial, rfl, trivial⟩
  | number n => exact fun _ => ⟨trivial, rfl, trivial⟩
  | float hof => exact fun _ => Value.ofFloatBits_wellFormed hof
  | bool b => exact fun _ => ⟨trivial, rfl, trivial⟩
  | object _ ih => exact fun hhand => Value.ofAttributes_wellFormed fun a ha => ih a ha hhand
  | tuple _ ih => exact fun hhand => Value.ofTuple_wellFormed fun x hx => ih x hx hhand
  | list ht _ hof ih => exact fun hhand => Value.ofList_wellFormed ht (fun x hx => ih x hx hhand) hof
  | set ht _ hof ih => exact fun hhand => Value.ofSet_wellFormed ht (fun x hx => ih x hx hhand) hof
  | map ht _ hof ih => exact fun hhand => Value.ofEntries_wellFormed ht (fun e he => ih e he hhand) hof
  | setAttribute _ _ hset ihv ihnew => exact fun hhand => Value.setAttribute_wellFormed (ihv hhand) (ihnew hhand) hset
  | part _ hn ih => exact fun hhand => (ih hhand).nodeAt? hn
  | decode ht hd => exact fun _ => Payload.decode_wellFormed ht _ _ hd
  | json ht hd => exact fun _ => Value.ofJson_wellFormed ht _ _ hd
  | unmarshal ht hd => exact fun _ => RawState.unmarshal_wellFormed ht _ _ hd
  | marked _ _ hmark _ ih =>
    intro hhand
    refine Postcondition.ofExcept.transform_wellFormed (fun p x _ hx => ?_) (ih hhand) _ hmark
    exact Schema.markNode_wellFormed _ _ p hx
  | @transform hand v w τ held s visit _ _ _ hw ih ihheld ihvisit =>
    intro hhand
    -- the invariant of the callback's state: all that it keeps is well-formed
    let post := Postcondition.ofState fun t => ∀ u ∈ held t, u.WellFormed
    have hvisit : ∀ p x, Path.WellFormed p → x.WellFormed → post.holds (visit p x) Value.WellFormed := by
      intro p x hp hx t ht
      have hcall : ∀ u, CallHand hand p x (held t) u → u.WellFormed := by
        intro u hu
        cases hu with
        | outer hu   => exact hhand u hu
        | node       => exact hx
        | element hu => exact hp u hu
        | kept hu    => exact ht u hu
      exact forall_runValues.1 fun u hu => ihvisit p x t (fun w hw => (hcall w hw).representable) u hu hcall
    have hrun := post.transform_wellFormed hvisit (ih hhand) s fun u hu => ihheld u hu hhand
    exact forall_runValues.2 hrun w hw

/-- **Every value stays well-formed**: at every depth of a value that can be obtained at all, the content of a known
node is what its type describes. -/
theorem describes_every_node {v : Value} (h : Obtainable (fun _ => False) v) {q : Value.Position} {t : Ty} {c : Content}
    (hn : v.nodeAt? q = some (.known t c)) : t.Describes c := by
  have hv : v.WellFormed := h.wellFormed fun _ hu => hu.elim
  exact (hv.nodeAt? hn).describes

/-! ### Profiles

A profile is read from JSON text without a name and with a tag missing.  A callback fills in what is missing from a
spare that it has captured, and then the name is left to be settled. -/

def profileTy : Ty := .object [("name", .string), ("tags", .list .string)]

def profile (name : Value) (tags : List Value) : Value :=
  .known profileTy (.map [("name", name), ("tags", .known (.list .string) (.list tags))])

def fillIn (_ : Path) (x : Value) : ExceptT ProviderError (StateM Value) Value := do
  let spare ← get
  pure (if x.isNull then spare else x)

def captured (spare : Value) : List Value := [spare]

theorem fillIn_obtainable {hand : Value → Prop} (p : Path) (x spare u : Value)
    (hu : u ∈ runValues captured ((fillIn p x).run.run spare)) : Obtainable (CallHand hand p x (captured spare)) u := by
  have hrun : (fillIn p x).run.run spare = (.ok (if x.isNull then spare else x), spare) := rfl
  rw [hrun] at hu
  rcases List.mem_cons.1 hu with rfl | hu
  · split
    · exact .atHand (.kept List.mem_cons_self)
    · exact .atHand .node
  · exact .atHand (.kept hu)

theorem profile_obtainable : Obtainable (fun _ => False)
    (profile (.unknown .string) [.ofString "a", .ofString "spare"]) := by
  have hread : Value.ofJson profileTy (.object [("tags", .array [.string "a", .null])]) =
      .ok (profile (.null .string) [.ofString "a", .null .string]) := rfl
  have hspare : ∀ u ∈ captured (.ofString "spare"), Obtainable (fun _ => False) u := by
    intro u hu
    rw [List.mem_singleton.1 hu]
    exact .string "spare"
  have hrun : profile (.ofString "spare") [.ofString "a", .ofString "spare"] ∈ runValues captured
      (((profile (.null .string) [.ofString "a", .null .string]).transform fillIn).run.run (.ofString "spare")) :=
    List.mem_cons_self
  have hfilled : Obtainable (fun _ => False) (profile (.ofString "spare") [.ofString "a", .ofString "spare"]) :=
    .transform (.json (by decide) hread) hspare (fun p x spare _ u hu => fillIn_obtainable p x spare u hu) hrun
  have hunsettled : Obtainable (fun _ => False) (.unknown .string) := .unknown trivial
  have hset : (profile (.ofString "spare") [.ofString "a", .ofString "spare"]).setAttribute "name" (.unknown .string) =
      .ok (profile (.unknown .string) [.ofString "a", .ofString "spare"]) := rfl
  exact .setAttribute hfilled hunsettled hset

theorem describes_every_node_profile :
    Obtainable (fun _ => False) (profile (.unknown .string) [.ofString "a", .ofString "spare"]) ∧
      (Ty.list .string).Describes (.list [.ofString "a", .ofString "spare"]) :=
  ⟨profile_obtainable, describes_every_node profile_obtainable (q := [1]) rfl⟩

end Obtainable

end ProviderProtocol
