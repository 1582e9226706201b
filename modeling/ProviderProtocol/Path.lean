import ProviderProtocol.Value.Basic
/-!
# Attribute paths

A path is the list of steps from the root of a value to a node: an attribute of an object, a key of a map, an index
of a list or tuple, or an element of a set, which has no name of its own and is addressed by its value.

On the wire a path has no set steps: `toWire` stops before the first one, which still points at the enclosing set.
Wire steps without a selector are skipped by `ofWire`.
-/
namespace ProviderProtocol

inductive Step
  | attribute (name : String)
  | key (key : String)
  | index (i : Int)
  | element (v : Value)

abbrev Path := List Step

namespace Step

/-- The text of a step that is not the first. -/
def text : Step → String
  | .attribute name => "." ++ name
  | .key k          => "[" ++ Text.quote k ++ "]"
  | .index i        => "[" ++ toString i ++ "]"
  | .element v      => "[" ++ v.text ++ "]"

end Step

namespace Path

/-- An attribute in front stands without a dot. -/
def text : Path → String
  | []                       => ""
  | .attribute name :: steps => name ++ String.join (steps.map Step.text)
  | steps                    => String.join (steps.map Step.text)

/-- The place of a node in messages. -/
def place (p : Path) : String := if p.isEmpty then "root" else p.text

/-! ## Wire form -/

inductive Selector
  | attribute (name : String)
  | key (key : String)
  | index (i : Int)
  deriving DecidableEq

/-- A step on the wire may lack its selector. -/
abbrev Wire := List (Option Selector)

def selector? : Step → Option Selector
  | .attribute name => some (.attribute name)
  | .key k          => some (.key k)
  | .index i        => some (.index i)
  | .element _      => none

def toWire : Path → Wire
  | []            => []
  | step :: steps =>
    match selector? step with
    | some s => some s :: toWire steps
    | none   => []

def Selector.step : Selector → Step
  | .attribute name => .attribute name
  | .key k          => .key k
  | .index i        => .index i

def ofWire : Wire → Path
  | []              => []
  | some s :: steps => s.step :: ofWire steps
  | none :: steps   => ofWire steps

end Path

end ProviderProtocol
