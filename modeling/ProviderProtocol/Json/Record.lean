import ProviderProtocol.Json.Basic
/-!
# Records in JSON documents

A record is a set of named fields.  In a document it is an object in which no field repeats and other members are
ignored, or an array of the fields in order, of which the last may be left out.  `record?` gives each field if it is
there; the readers of single fields say what a field must look like.
-/
namespace ProviderProtocol.Json

namespace Document

/-- Members whose names are readable, in order. -/
def named? : List (Option String × Document) → Option (List (String × Document))
  | []                   => some []
  | (some k, d) :: rest  => (named? rest).map ((k, d) :: ·)
  | (none, _) :: _       => none

def members? : Document → Option (List (String × Document))
  | .object ms => named? ms
  | _          => none

/-- The field of that name, if any; the outer `none` is a repeated field. -/
def field? (ms : List (String × Document)) (name : String) : Option (Option Document) :=
  match ms.filter (·.1 == name) with
  | []       => some none
  | [(_, d)] => some (some d)
  | _        => none

/-- The fields of these names of an object. -/
def fields? (ms : List (String × Document)) : List String → Option (List (Option Document))
  | []            => some []
  | name :: names =>
    match field? ms name, fields? ms names with
    | some f, some fs => some (f :: fs)
    | _, _            => none

/-- The items of an array as fields of these names. -/
def positional? : List String → List Document → Option (List (Option Document))
  | names, []          => some (names.map fun _ => none)
  | [], _ :: _         => none
  | _ :: names, d :: ds => (positional? names ds).map (some d :: ·)

def record? (names : List String) : Document → Option (List (Option Document))
  | .object ms   => (named? ms).bind (fields? · names)
  | .array items => positional? names items
  | _            => none

/-! ## Single fields -/

/-- An absent field stands for a default. -/
def orElse (default : α) (read : Document → Option α) : Option Document → Option α
  | none   => some default
  | some d => read d

def bool? : Document → Option Bool
  | .bool b => some b
  | _       => none

/-- A text or null. -/
def optionalText? : Document → Option (Option String)
  | .null            => some none
  | .string (some s) => some (some s)
  | _                => none

/-- An integer written as one, between the bounds. -/
def integer? (low high : Int) : Document → Option Int
  | .number (some (.int n _)) => if low ≤ n ∧ n ≤ high then some n else none
  | _                         => none

def int64? (d : Document) : Option Int64 :=
  (integer? (-9223372036854775808) 9223372036854775807 d).map Int64.ofInt

def uint32? (d : Document) : Option UInt32 := (integer? 0 4294967295 d).map fun n => UInt32.ofNat n.toNat

/-- The name of a choice: a string, or an object with that name alone and an empty content, which `isUnit` accepts. -/
def choice? (isUnit : Document → Bool) : Document → Option String
  | .string (some s)     => some s
  | .object [(some k, d)] => if isUnit d then some k else none
  | _                    => none

def isNull : Document → Bool
  | .null => true
  | _     => false

/-- Null or an object without members. -/
def isVoid : Document → Bool
  | .null      => true
  | .object [] => true
  | _          => false

end Document

end ProviderProtocol.Json
