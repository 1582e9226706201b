import ProviderProtocol.Error
import ProviderProtocol.Msgpack.Basic
/-!
# Values from msgpack trees and JSON values

A type directs the reading.  Nil and null read as null and extension type 0 as unknown, whatever the type; a number
may be given as a numeral in a string; lists, sets and tuples are arrays, maps and objects have string keys.  An
object takes only declared attributes: those that are absent are null, and of several with one name the last counts.

Both readers report the first offence in document order.  A node of the wrong kind or length is reported at the node,
a bad key or an undeclared attribute at the enclosing map or object.
-/
namespace ProviderProtocol

namespace Value

/-- Extensions of this type stand for an unknown value. -/
def unknownExtension : Int := 0

def unexpected (path : Path) (ty : Ty) (found : Found) : Except ProviderError α :=
  .error (.decode (.expected path ty found))

/-- The known value of a content that has been read. -/
def ofRead (ty : Ty) (c : Content) : Except ProviderError Value := (of ty c).mapError .typeMismatch

/-- The declared attributes, each with what was read for it or else null. -/
def completed (attrs : List (String × Ty)) (entries : List (String × Value)) : List (String × Value) :=
  attrs.map fun (name, t) => (name, (Table.find? name entries).getD (.null t))

def ofNumeralText (path : Path) (ty : Ty) (s : Option String) : Except ProviderError Value :=
  match s.bind Number.ofText? with
  | some n => ofRead ty (.number n)
  | none   => unexpected path ty .nonNumeric

/-! ## From msgpack -/

def keyOfMsgpack (path : Path) (ty : Ty) : Msgpack → Except ProviderError String
  | .string bytes =>
    match Text.Utf8.decode? bytes with
    | some k => .ok k
    | none   => unexpected path ty .invalidKey
  | other => unexpected path ty (.keyKind other.kind)

mutual

def ofMsgpack (path : Path) (ty : Ty) : Msgpack → Except ProviderError Value
  | .nil => .ok (.null ty)
  | .extension type _ => if type = unknownExtension then .ok (.unknown ty) else unexpected path ty (.kind "extension")
  | .bool b =>
    match ty with
    | .bool => ofRead ty (.bool b)
    | _     => unexpected path ty (.kind "bool")
  | .int n =>
    match ty with
    | .number =>
      match Number.ofInt? n with
      | some k => ofRead ty (.number k)
      | none   => unexpected path ty .outOfRange
    | _ => unexpected path ty (.kind "integer")
  | .float x =>
    match ty with
    | .number =>
      match x with
      | some y => ofRead ty (.number (.float y))
      | none   => unexpected path ty .nonFinite
    | _ => unexpected path ty (.kind "float")
  | .string bytes =>
    match ty with
    | .string =>
      match Text.Utf8.decode? bytes with
      | some s => ofRead ty (.string s)
      | none   => unexpected path ty .invalidText
    | .number => ofNumeralText path ty (Text.Utf8.decode? bytes)
    | _       => unexpected path ty (.kind "string")
  | .binary _ => unexpected path ty (.kind "binary")
  | .array items =>
    match ty with
    | .list t | .set t => do ofRead ty (.list (← itemsOfMsgpack path t 0 items))
    | .tuple ts        =>
      if ts.length = items.length then do ofRead ty (.list (← tupleOfMsgpack path 0 ts items))
      else unexpected path ty (.length items.length)
    | _ => unexpected path ty (.kind "array")
  | .map pairs =>
    match ty with
    | .map t        => do ofRead ty (.map (Table.ofList (← entriesOfMsgpack path ty t pairs)))
    | .object attrs => do
      ofRead ty (.map (completed attrs (Table.ofList (← attributesOfMsgpack path ty attrs pairs))))
    | _ => unexpected path ty (.kind "map")

def itemsOfMsgpack (path : Path) (elem : Ty) : Nat → List Msgpack → Except ProviderError (List Value)
  | _, []           => .ok []
  | i, item :: rest => do
    let v ← ofMsgpack (path ++ [.index i]) elem item
    let vs ← itemsOfMsgpack path elem (i + 1) rest
    pure (v :: vs)

def tupleOfMsgpack (path : Path) : Nat → List Ty → List Msgpack → Except ProviderError (List Value)
  | i, t :: ts, item :: rest => do
    let v ← ofMsgpack (path ++ [.index i]) t item
    let vs ← tupleOfMsgpack path (i + 1) ts rest
    pure (v :: vs)
  | _, _, _ => .ok []

def entriesOfMsgpack (path : Path) (ty elem : Ty) :
    List (Msgpack × Msgpack) → Except ProviderError (List (String × Value))
  | []               => .ok []
  | (k, item) :: rest => do
    let name ← keyOfMsgpack path ty k
    let v ← ofMsgpack (path ++ [.key name]) elem item
    let vs ← entriesOfMsgpack path ty elem rest
    pure ((name, v) :: vs)

def attributesOfMsgpack (path : Path) (ty : Ty) (attrs : List (String × Ty)) :
    List (Msgpack × Msgpack) → Except ProviderError (List (String × Value))
  | []               => .ok []
  | (k, item) :: rest => do
    let name ← keyOfMsgpack path ty k
    match Table.find? name attrs with
    | none   => .error (.decode (.unsupported path name))
    | some t =>
      let v ← ofMsgpack (path ++ [.attribute name]) t item
      let vs ← attributesOfMsgpack path ty attrs rest
      pure ((name, v) :: vs)

end

/-! ## From JSON -/

mutual

def ofJsonAt (path : Path) (ty : Ty) : Json → Except ProviderError Value
  | .null   => .ok (.null ty)
  | .bool b =>
    match ty with
    | .bool => ofRead ty (.bool b)
    | _     => unexpected path ty (.kind "bool")
  | .number n =>
    match ty with
    | .number => ofRead ty (.number n)
    | _       => unexpected path ty (.kind "number")
  | .string s =>
    match ty with
    | .string => ofRead ty (.string s)
    | .number => ofNumeralText path ty (some s)
    | _       => unexpected path ty (.kind "string")
  | .array items =>
    match ty with
    | .list t | .set t => do ofRead ty (.list (← itemsOfJson path t 0 items))
    | .tuple ts        =>
      if ts.length = items.length then do ofRead ty (.list (← tupleOfJson path 0 ts items))
      else unexpected path ty (.length items.length)
    | _ => unexpected path ty (.kind "array")
  | .object members =>
    match ty with
    | .map t        => do ofRead ty (.map (Table.ofList (← entriesOfJson path t members)))
    | .object attrs => do ofRead ty (.map (completed attrs (Table.ofList (← attributesOfJson path attrs members))))
    | _             => unexpected path ty (.kind "object")

def itemsOfJson (path : Path) (elem : Ty) : Nat → List Json → Except ProviderError (List Value)
  | _, []           => .ok []
  | i, item :: rest => do
    let v ← ofJsonAt (path ++ [.index i]) elem item
    let vs ← itemsOfJson path elem (i + 1) rest
    pure (v :: vs)

def tupleOfJson (path : Path) : Nat → List Ty → List Json → Except ProviderError (List Value)
  | i, t :: ts, item :: rest => do
    let v ← ofJsonAt (path ++ [.index i]) t item
    let vs ← tupleOfJson path (i + 1) ts rest
    pure (v :: vs)
  | _, _, _ => .ok []

def entriesOfJson (path : Path) (elem : Ty) : List (String × Json) → Except ProviderError (List (String × Value))
  | []                 => .ok []
  | (name, item) :: rest => do
    let v ← ofJsonAt (path ++ [.key name]) elem item
    let vs ← entriesOfJson path elem rest
    pure ((name, v) :: vs)

def attributesOfJson (path : Path) (attrs : List (String × Ty)) :
    List (String × Json) → Except ProviderError (List (String × Value))
  | []                 => .ok []
  | (name, item) :: rest =>
    match Table.find? name attrs with
    | none   => .error (.decode (.unsupported path name))
    | some t => do
      let v ← ofJsonAt (path ++ [.attribute name]) t item
      let vs ← attributesOfJson path attrs rest
      pure ((name, v) :: vs)

end

def ofJson (ty : Ty) (j : Json) : Except ProviderError Value := ofJsonAt [] ty j

end Value

end ProviderProtocol
