import ProviderProtocol.Number.Basic
import ProviderProtocol.Table
import ProviderProtocol.Text.Utf8
/-!
# JSON values and JSON documents

A `Json` is a value: its objects are ascending tables, so each name stands once.  A `Json.Document` is a text as
written: members keep their order and may repeat, and a leaf that is well-formed but denotes no value (a number
that rounds to an infinity, a lone surrogate escape) is kept as `none`.

`Document.json?` is the value of a document.  It refuses unreadable leaves and more than the given number of
nested arrays and objects, and of several members with one name it takes the last.  Readers that must see the order
or the repetition of members work on documents; all others work on values.
-/
namespace ProviderProtocol

inductive Json
  | null
  | bool (b : Bool)
  | number (n : Number)
  | string (s : String)
  | array (items : List Json)
  | object (members : List (String × Json))

namespace Json

instance : Inhabited Json := ⟨.null⟩

inductive Document
  | null
  | bool (b : Bool)
  | number (n : Option Number)
  | string (s : Option String)
  | array (items : List Document)
  | object (members : List (Option String × Document))

/-- Arrays and objects may be nested this deep in a text that is read. -/
def depthLimit : Nat := 127

mutual

def Document.json? : Nat → Document → Option Json
  | _, .null         => some .null
  | _, .bool b       => some (.bool b)
  | _, .number n     => n.map .number
  | _, .string s     => s.map .string
  | 0, .array _      => none
  | 0, .object _     => none
  | d + 1, .array items    => (jsonItems? d items).map .array
  | d + 1, .object members => (jsonMembers? d members).map fun ms => .object (Table.ofList ms)

def Document.jsonItems? : Nat → List Document → Option (List Json)
  | _, []         => some []
  | d, item :: rest =>
    match item.json? d, jsonItems? d rest with
    | some j, some js => some (j :: js)
    | _, _            => none

def Document.jsonMembers? : Nat → List (Option String × Document) → Option (List (String × Json))
  | _, []                   => some []
  | d, (name, item) :: rest =>
    match name, item.json? d, jsonMembers? d rest with
    | some k, some j, some ms => some ((k, j) :: ms)
    | _, _, _                 => none

end

/-- What kind of value it is, as messages name it. -/
def kind : Json → String
  | .null     => "null"
  | .bool _   => "bool"
  | .number _ => "number"
  | .string _ => "string"
  | .array _  => "array"
  | .object _ => "object"

end Json

end ProviderProtocol
