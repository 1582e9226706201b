import ProviderProtocol.Value.Equality
/-!
# Contents that agree with a type

`shapeFault?` finds the first disagreement between a type and a content; it looks at the types of the children but
not below them.  Every known value of the library is made by `Value.of`, which refuses such a content, or has its type
derived from its children.  `WellFormed` is the resulting invariant at every depth.
-/
namespace ProviderProtocol

inductive ShapeFault
  | item (index : Nat) (ty itemTy : Ty)
  | tupleLength (ty : Ty) (expected got : Nat)
  | tupleItem (index : Nat) (expected got : Ty)
  | mapEntry (key : String) (ty entryTy : Ty)
  | undeclared (ty : Ty) (name : String)
  | missing (name : String) (ty : Ty)
  | attribute (name : String) (expected got : Ty)
  | content (ty : Ty)
  | notKnown (name : String)
  | notFinite (text : String)
  | other (text : String)

def ShapeFault.message : ShapeFault → String
  | .item i t u          => "element " ++ toString i ++ " of " ++ t.text ++ " has type " ++ u.text
  | .tupleLength t n m   => t.text ++ " expects " ++ toString n ++ " elements, got " ++ toString m
  | .tupleItem i t u     => "tuple element " ++ toString i ++ " expects " ++ t.text ++ ", got " ++ u.text
  | .mapEntry key t u    => "map element " ++ Text.quote key ++ " of " ++ t.text ++ " has type " ++ u.text
  | .undeclared t name   => t.text ++ " has no attribute " ++ Text.quote name
  | .missing name t      => "missing attribute " ++ Text.quote name ++ " of " ++ t.text
  | .attribute name t u  => "attribute " ++ Text.quote name ++ " expects " ++ t.text ++ ", got " ++ u.text
  | .content t           => "raw data does not match type " ++ t.text
  | .notKnown name       => "cannot set attribute " ++ Text.quote name ++ " on a null or unknown object"
  | .notFinite text      => text ++ " is not a finite number"
  | .other text          => text

/-! ## The check -/

/-- The first item, counted from `i`, that is not of the element type. -/
def itemFault? (ty elem : Ty) (i : Nat) : List Value → Option ShapeFault
  | []      => none
  | v :: vs => if v.ty = elem then itemFault? ty elem (i + 1) vs else some (.item i ty v.ty)

def tupleFault? (i : Nat) : List Ty → List Value → Option ShapeFault
  | t :: ts, v :: vs => if v.ty = t then tupleFault? (i + 1) ts vs else some (.tupleItem i t v.ty)
  | _, _             => none

def mapFault? (ty elem : Ty) : List (String × Value) → Option ShapeFault
  | []             => none
  | (key, v) :: es => if v.ty = elem then mapFault? ty elem es else some (.mapEntry key ty v.ty)

def undeclaredFault? (ty : Ty) (attrs : List (String × Ty)) : List (String × Value) → Option ShapeFault
  | []              => none
  | (name, _) :: es => if Table.has name attrs then undeclaredFault? ty attrs es else some (.undeclared ty name)

def attributeFault? (ty : Ty) (entries : List (String × Value)) : List (String × Ty) → Option ShapeFault
  | []                 => none
  | (name, t) :: attrs =>
    match Table.find? name entries with
    | none   => some (.missing name ty)
    | some v => if v.ty = t then attributeFault? ty entries attrs else some (.attribute name t v.ty)

def shapeFault? (ty : Ty) : Content → Option ShapeFault
  | .string _ => if ty = .string then none else some (.content ty)
  | .number _ => if ty = .number then none else some (.content ty)
  | .bool _   => if ty = .bool then none else some (.content ty)
  | .list xs  =>
    match ty with
    | .list t | .set t => itemFault? ty t 0 xs
    | .tuple ts        =>
      if ts.length = xs.length then tupleFault? 0 ts xs else some (.tupleLength ty ts.length xs.length)
    | _                => some (.content ty)
  | .map es =>
    match ty with
    | .map t        => mapFault? ty t es
    | .object attrs => (undeclaredFault? ty attrs es).or (attributeFault? ty es attrs)
    | _             => some (.content ty)

namespace Value

/-- The known value of this type and content, if they agree. -/
def of (ty : Ty) (c : Content) : Except ShapeFault Value :=
  match shapeFault? ty c with
  | none       => .ok (.known ty c)
  | some fault => .error fault

/-! ## Constructors -/

def ofString (s : String) : Value := .known .string (.string s)

def ofNumber (n : Number) : Value := .known .number (.number n)

def ofBool (b : Bool) : Value := .known .bool (.bool b)

/-- A known float from its 64 bits. -/
def ofFloatBits (bits : Nat) : Except ShapeFault Value :=
  match Binary64.ofBits? bits with
  | some x => .ok (ofNumber (.float x))
  | none   =>
    .error (.notFinite
      (if bits % Binary64.signWeight ≠ Binary64.rankLimit then "NaN"
       else if Binary64.signWeight ≤ bits then "-inf" else "inf"))

/-- A known object whose type is read off its attributes; of several with one name the last counts. -/
def ofAttributes (attrs : List (String × Value)) : Value :=
  let entries := Table.ofList attrs
  .known (.object (entries.map fun (name, v) => (name, v.ty))) (.map entries)

/-- A known tuple whose type is read off its items. -/
def ofTuple (items : List Value) : Value := .known (.tuple (items.map Value.ty)) (.list items)

def ofList (elem : Ty) (items : List Value) : Except ShapeFault Value := of (.list elem) (.list items)

/-- The items without those that are identical to an earlier one. -/
def distinct (items : List Value) : List Value :=
  items.foldl (fun kept v => if kept.any (·.identical v) then kept else kept ++ [v]) []

def ofSet (elem : Ty) (items : List Value) : Except ShapeFault Value := of (.set elem) (.list (distinct items))

def ofEntries (elem : Ty) (entries : List (String × Value)) : Except ShapeFault Value :=
  of (.map elem) (.map (Table.ofList entries))

/-! ## Attributes of objects -/

def attribute? (v : Value) (name : String) : Option Value :=
  match v with
  | .known (.object _) (.map es) => Table.find? name es
  | _                            => none

/-- The object with one attribute replaced; the new value must have the declared type. -/
def setAttribute (v : Value) (name : String) (new : Value) : Except ShapeFault Value :=
  match v.ty.attributes?.bind (Table.find? name) with
  | none   => .error (.undeclared v.ty name)
  | some t =>
    if t ≠ new.ty then .error (.attribute name t new.ty)
    else match v with
      | .known ty (.map es) => .ok (.known ty (.map (Table.insert name new es)))
      | _                   => .error (.notKnown name)

end Value

/-! ## Well-formed values -/

mutual

/-- Every known node has a content that agrees with its type, and entries are ascending tables. -/
def Value.WellFormed : Value → Prop
  | .null t    => t.Canonical
  | .unknown t => t.Canonical
  | .known t c => t.Canonical ∧ shapeFault? t c = none ∧ c.WellFormed

def Content.WellFormed : Content → Prop
  | .string _ => True
  | .number _ => True
  | .bool _   => True
  | .list xs  => Content.ItemsWellFormed xs
  | .map es   => Table.Ascending es ∧ Content.EntriesWellFormed es

def Content.ItemsWellFormed : List Value → Prop
  | []      => True
  | v :: vs => v.WellFormed ∧ Content.ItemsWellFormed vs

def Content.EntriesWellFormed : List (String × Value) → Prop
  | []           => True
  | (_, v) :: es => v.WellFormed ∧ Content.EntriesWellFormed es

end

end ProviderProtocol
