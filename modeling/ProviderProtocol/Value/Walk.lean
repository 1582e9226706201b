import ProviderProtocol.Path
import ProviderProtocol.Value.Equality
/-!
# Following a path through a value

`Value.walkDeepest` follows a path as far as it goes and says where it stopped: at the addressed node, at a null or
unknown value before the last step, or at a collection that lacks the key, index or element.  A step that does not
fit the type of a known value is a fault.  A set step selects the first element that equals the key.
-/
namespace ProviderProtocol

inductive PathFault
  | noAttribute (path : Path) (ty : Ty) (name : String)
  | step (path : Path) (ty : Ty)
  | other (text : String)

def PathFault.message : PathFault → String
  | .noAttribute p t name => p.text ++ ": " ++ t.text ++ " has no attribute " ++ Text.quote name
  | .step p t             => p.text ++ ": step does not apply to a value of type " ++ t.text
  | .other text           => text

inductive Walk
  | reached (v : Value)
  | blocked (v : Value)
  | missing (v : Value)

namespace Value

/-- The child that a step selects in a known content; the path is for the fault only. -/
def child (path : Path) (ty : Ty) : Step → Content → Except PathFault (Option Value)
  | .attribute name, .map es =>
    match ty with
    | .object attrs => if Table.has name attrs then .ok (Table.find? name es) else .error (.noAttribute path ty name)
    | _             => .error (.step path ty)
  | .key k, .map es =>
    match ty with
    | .map _ => .ok (Table.find? k es)
    | _      => .error (.step path ty)
  | .index i, .list xs =>
    match ty with
    | .list _ | .tuple _ => .ok (if i < 0 then none else xs[i.toNat]?)
    | _                  => .error (.step path ty)
  | .element key, .list xs =>
    match ty with
    | .set _ => .ok (xs.find? (·.equal key))
    | _      => .error (.step path ty)
  | _, _ => .error (.step path ty)

def walkFrom (path : Path) : List Step → Value → Except PathFault Walk
  | [], v            => .ok (.reached v)
  | step :: steps, v =>
    match v with
    | .known ty c =>
      match child path ty step c with
      | .error fault   => .error fault
      | .ok none       => .ok (.missing v)
      | .ok (some next) => walkFrom path steps next
    | _ => .ok (.blocked v)

def walkDeepest (v : Value) (path : Path) : Except PathFault Walk := walkFrom path path v

/-- The addressed node, if the walk gets there. -/
def walk (v : Value) (path : Path) : Except PathFault (Option Value) :=
  (v.walkDeepest path).map fun
    | .reached x => some x
    | _          => none

end Value

end ProviderProtocol
