import ProviderProtocol.Proofs.Codec.RoundTrip
/-!
# The readers agree

A JSON value and its msgpack tree (`Json.toMsgpack`) are read alike for every type: as the same value, or not at all, and
then the errors are the same but for the word for what was found, such as "object" or "map" (`ofJsonAt_agrees`).
In particular they name the same path (`readers_agree`).
-/
namespace ProviderProtocol

mutual

/-- The tree with the same content: members become pairs, in their order. -/
def Json.toMsgpack : Json → Msgpack
  | .null           => .nil
  | .bool b         => .bool b
  | .number n       => n.toMsgpack
  | .string s       => .ofText s
  | .array items    => .array (Json.itemsToMsgpack items)
  | .object members => .map (Json.membersToMsgpack members)

def Json.itemsToMsgpack : List Json → List Msgpack
  | []      => []
  | j :: js => j.toMsgpack :: Json.itemsToMsgpack js

def Json.membersToMsgpack : List (String × Json) → List (Msgpack × Msgpack)
  | []           => []
  | (k, j) :: ms => (.ofText k, j.toMsgpack) :: Json.membersToMsgpack ms

end

theorem Json.length_itemsToMsgpack : ∀ items : List Json, (Json.itemsToMsgpack items).length = items.length
  | []      => rfl
  | _ :: js => congrArg (· + 1) (Json.length_itemsToMsgpack js)

/-- The error without the word for the kind of what was found. -/
def ProviderError.unnamed : ProviderError → ProviderError
  | .decode (.expected path ty (.kind _)) => .decode (.expected path ty (.kind ""))
  | e                                     => e

theorem ProviderError.place?_unnamed (e : ProviderError) : e.unnamed.place? = e.place? := by
  unfold unnamed
  split
  · rfl
  · rfl

/-! ## Agreement -/

/-- Both give the same result, or fail with the same error but for the word for what was found. -/
def Agree (x y : Except ProviderError α) : Prop := x.mapError ProviderError.unnamed = y.mapError ProviderError.unnamed

theorem Agree.refl (x : Except ProviderError α) : Agree x x := rfl

theorem Agree.bind {x y : Except ProviderError α} {f g : α → Except ProviderError β} (h : Agree x y)
    (hf : ∀ a, Agree (f a) (g a)) : Agree (x >>= f) (y >>= g) := by
  cases x with
  | error e =>
    cases y with
    | error e' => exact congrArg Except.error (Except.error.inj h)
    | ok a     => cases h
  | ok a =>
    cases y with
    | error e' => cases h
    | ok b     =>
      obtain rfl : a = b := Except.ok.inj h
      exact hf a

theorem Agree.ok_iff {x y : Except ProviderError α} (h : Agree x y) (a : α) : x = .ok a ↔ y = .ok a := by
  rw [← mapError_eq_ok, h, mapError_eq_ok]

theorem Agree.place?_eq {x y : Except ProviderError α} (h : Agree x y) {e e' : ProviderError} (hx : x = .error e)
    (hy : y = .error e') : e.place? = e'.place? := by
  subst hx hy
  rw [← e.place?_unnamed, Except.error.inj h, e'.place?_unnamed]

namespace Value

theorem agree_cons {x x' : Except ProviderError α} {xs xs' : Except ProviderError (List α)} (hx : Agree x x')
    (hxs : Agree xs xs') :
    Agree (do let a ← x; let as ← xs; pure (a :: as)) (do let a ← x'; let as ← xs'; pure (a :: as)) :=
  hx.bind fun _ => hxs.bind fun _ => .refl _

theorem agree_entry (name : String) {x x' : Except ProviderError Value}
    {es es' : Except ProviderError (List (String × Value))} (hx : Agree x x') (hes : Agree es es') :
    Agree (do let v ← x; let es ← es; pure ((name, v) :: es)) (do let v ← x'; let es ← es'; pure ((name, v) :: es)) :=
  hx.bind fun _ => hes.bind fun _ => .refl _

mutual

/-- **A JSON value and its tree are read alike.** -/
theorem ofJsonAt_agrees (path : Path) (t : Ty) : ∀ j : Json,
    Agree (ofJsonAt path t j) (ofMsgpack path t j.toMsgpack)
  | .null   => .refl _
  | .bool b => by
    cases t with
    | bool => exact .refl _
    | _    => rfl
  | .number n => by
    cases n with
    | int n fits =>
      rw [Json.toMsgpack, Number.toMsgpack]
      cases t with
      | number =>
        rw [ofJsonAt, ofMsgpack, Number.ofInt?, dif_pos fits]
        exact .refl _
      | _      => rfl
    | float x    =>
      cases t with
      | number => exact .refl _
      | _      => rfl
  | .string s => by
    rw [Json.toMsgpack, Msgpack.ofText]
    cases t with
    | string =>
      rw [ofJsonAt, ofMsgpack, Text.Utf8.decode?_encode]
      exact .refl _
    | number =>
      rw [ofJsonAt, ofMsgpack, Text.Utf8.decode?_encode]
      exact .refl _
    | _      => rfl
  | .array items => by
    rw [Json.toMsgpack]
    cases t with
    | list elem =>
      rw [ofJsonAt, ofMsgpack]
      exact (itemsOfJson_agrees path elem 0 items).bind fun _ => .refl _
    | set elem  =>
      rw [ofJsonAt, ofMsgpack]
      exact (itemsOfJson_agrees path elem 0 items).bind fun _ => .refl _
    | tuple ts  =>
      rw [ofJsonAt, ofMsgpack, Json.length_itemsToMsgpack]
      by_cases hlength : ts.length = items.length
      · rw [if_pos hlength, if_pos hlength]
        exact (tupleOfJson_agrees path 0 ts items).bind fun _ => .refl _
      · rw [if_neg hlength, if_neg hlength]
        exact .refl _
    | _         => rfl
  | .object members => by
    rw [Json.toMsgpack]
    cases t with
    | map elem     =>
      rw [ofJsonAt, ofMsgpack]
      exact (entriesOfJson_agrees path (.map elem) elem members).bind fun _ => .refl _
    | object attrs =>
      rw [ofJsonAt, ofMsgpack]
      exact (attributesOfJson_agrees path (.object attrs) attrs members).bind fun _ => .refl _
    | _            => rfl

theorem itemsOfJson_agrees (path : Path) (elem : Ty) : ∀ (i : Nat) (items : List Json),
    Agree (itemsOfJson path elem i items) (itemsOfMsgpack path elem i (Json.itemsToMsgpack items))
  | _, []           => .refl _
  | i, item :: rest => by
    rw [Json.itemsToMsgpack, itemsOfJson, itemsOfMsgpack]
    exact agree_cons (ofJsonAt_agrees _ elem item) (itemsOfJson_agrees path elem (i + 1) rest)

theorem tupleOfJson_agrees (path : Path) : ∀ (i : Nat) (ts : List Ty) (items : List Json),
    Agree (tupleOfJson path i ts items) (tupleOfMsgpack path i ts (Json.itemsToMsgpack items))
  | i, t :: ts, item :: rest => by
    rw [Json.itemsToMsgpack, tupleOfJson, tupleOfMsgpack]
    exact agree_cons (ofJsonAt_agrees _ t item) (tupleOfJson_agrees path (i + 1) ts rest)
  | _, [], []                => .refl _
  | _, [], _ :: _            => .refl _
  | _, _ :: _, []            => .refl _

theorem entriesOfJson_agrees (path : Path) (t elem : Ty) : ∀ members : List (String × Json),
    Agree (entriesOfJson path elem members) (entriesOfMsgpack path t elem (Json.membersToMsgpack members))
  | []                   => .refl _
  | (name, item) :: rest => by
    rw [Json.membersToMsgpack, entriesOfJson, entriesOfMsgpack, keyOfMsgpack_ofText]
    exact agree_entry name (ofJsonAt_agrees _ elem item) (entriesOfJson_agrees path t elem rest)

theorem attributesOfJson_agrees (path : Path) (t : Ty) (attrs : List (String × Ty)) :
    ∀ members : List (String × Json),
      Agree (attributesOfJson path attrs members) (attributesOfMsgpack path t attrs (Json.membersToMsgpack members))
  | []                   => .refl _
  | (name, item) :: rest => by
    rw [Json.membersToMsgpack, attributesOfJson, attributesOfMsgpack, keyOfMsgpack_ofText]
    -- a name of a JSON member is at hand, a key has to be read first; then both are looked up
    show Agree _ (match Table.find? name attrs with
      | none   => .error (.decode (.unsupported path name))
      | some u => do
        let v ← ofMsgpack (path ++ [.attribute name]) u item.toMsgpack
        let vs ← attributesOfMsgpack path t attrs (Json.membersToMsgpack rest)
        pure ((name, v) :: vs))
    cases Table.find? name attrs with
    | none   => exact .refl _
    | some u =>
      exact agree_entry name (ofJsonAt_agrees _ u item) (attributesOfJson_agrees path t attrs rest)

end

/-! ## Documents -/

/-- The two readers on one document: the same value, or failures at one path. -/
structure ReadAlike (t : Ty) (j : Json) : Prop where
  value : ∀ v, ofJson t j = .ok v ↔ ofMsgpack [] t j.toMsgpack = .ok v
  place : ∀ e e', ofJson t j = .error e → ofMsgpack [] t j.toMsgpack = .error e' →
    ∃ path, e.Names path ∧ e'.Names path

/-- **Reading JSON and reading the msgpack tree with the same content agree** on what is read, and on the path of what
cannot be read. -/
theorem readers_agree {t : Ty} (ht : t.Canonical) (j : Json) : ReadAlike t j := by
  have hagree : Agree (ofJson t j) (ofMsgpack [] t j.toMsgpack) := ofJsonAt_agrees [] t j
  refine ⟨hagree.ok_iff, fun e e' he he' => ?_⟩
  obtain ⟨path, hpath⟩ := (ofMsgpack_placed [] ht j.toMsgpack).place e' he'
  have hplace : e.place? = some path := (hagree.place?_eq he he').trans hpath
  exact ⟨path, ProviderError.names_of_place? hplace, ProviderError.names_of_place? hpath⟩

/-! ### Ports

The first document gives a port without labels; the second one has a label that is no string. -/

def portType : Ty := .object [("labels", .list .string), ("number", .number)]

def portJson : Json := .object [("number", .number (.int 80 (by decide)))]

def mislabelledJson : Json := .object [("labels", .array [.string "http", .bool true])]

theorem readers_agree_port : portType.Canonical ∧
    ofMsgpack [] portType portJson.toMsgpack =
        .ok (.known portType (.map [("labels", .null (.list .string)), ("number", .ofNumber (.int 80 (by decide)))])) ∧
      ∃ e, ofMsgpack [] portType mislabelledJson.toMsgpack = .error e ∧
        e.Names [.attribute "labels", .index 1] := by
  have hport : portType.Canonical := by decide
  refine ⟨hport, (readers_agree hport portJson).value _ |>.1 rfl, _, rfl, ?_⟩
  obtain ⟨path, hjson, htree⟩ := (readers_agree hport mislabelledJson).place _ _ rfl rfl
  cases hjson.place
  exact htree

end Value

end ProviderProtocol
