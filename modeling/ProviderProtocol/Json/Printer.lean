import ProviderProtocol.Json.Basic
/-!
# Writing JSON text

Compact text: no blanks, members in the order of the object.  In strings the quote, the backslash and the control
characters are escaped, the usual ones by a letter and the rest as `\u00xx`; everything else is written raw.
-/
namespace ProviderProtocol.Json

def escapeChar (c : Char) : List Char :=
  if c = '"' then ['\\', '"']
  else if c = '\\' then ['\\', '\\']
  else if c = '\x08' then ['\\', 'b']
  else if c = '\x0c' then ['\\', 'f']
  else if c = '\n' then ['\\', 'n']
  else if c = '\r' then ['\\', 'r']
  else if c = '\t' then ['\\', 't']
  else if c.toNat < 16 then ['\\', 'u', '0', '0', '0', Nat.digitChar c.toNat]
  else if c.toNat < 32 then ['\\', 'u', '0', '0', '1', Nat.digitChar (c.toNat - 16)]
  else [c]

/-- A string between quotes, and what follows it. -/
def stringChars (s : String) (rest : List Char) : List Char := '"' :: (s.toList.flatMap escapeChar ++ '"' :: rest)

mutual

/-- The characters of a value, and what follows them. -/
def chars : Json → List Char → List Char
  | .null, rest           => "null".toList ++ rest
  | .bool b, rest         => (if b then "true" else "false").toList ++ rest
  | .number n, rest       => n.text.toList ++ rest
  | .string s, rest       => stringChars s rest
  | .array items, rest    => '[' :: itemsChars items (']' :: rest)
  | .object members, rest => '\x7b' :: membersChars members ('\x7d' :: rest)

def itemsChars : List Json → List Char → List Char
  | [], rest           => rest
  | [j], rest          => j.chars rest
  | j :: k :: js, rest => j.chars (',' :: itemsChars (k :: js) rest)

def membersChars : List (String × Json) → List Char → List Char
  | [], rest                   => rest
  | [(name, j)], rest          => stringChars name (':' :: j.chars rest)
  | (name, j) :: m :: ms, rest => stringChars name (':' :: j.chars (',' :: membersChars (m :: ms) rest))

end

def text (j : Json) : String := String.ofList (j.chars [])

end ProviderProtocol.Json
