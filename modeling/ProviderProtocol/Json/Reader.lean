import ProviderProtocol.Json.Basic
/-!
# Reading JSON text

The strict grammar of RFC 8259: blanks are the space, the tab and the two line ends; a numeral has no leading zero
and no sign but `-`; a string holds no control character.  Every function takes the characters from the front and
returns those that are left.  `readDocument?` recurses on a fuel that `Document.ofText?` takes from the length of
the text: each level of nesting and each further element consumes a character, so it never runs out.
-/
namespace ProviderProtocol.Json

def isBlank (c : Char) : Bool := c == ' ' || c == '\t' || c == '\n' || c == '\r'

def skipBlank (s : List Char) : List Char := s.dropWhile isBlank

/-! ## Strings

A `\u` escape is a UTF-16 unit.  Units are kept apart from characters until the whole string is read, because only
two neighbouring escapes make a surrogate pair. -/

inductive Piece
  | char (c : Char)
  | unit (u : Nat)

def hexDigit? (c : Char) : Option Nat :=
  if c.isDigit then some (c.toNat - 48)
  else if 'a' ≤ c ∧ c ≤ 'f' then some (c.toNat - 87)
  else if 'A' ≤ c ∧ c ≤ 'F' then some (c.toNat - 55)
  else none

def hexUnit? (a b c d : Char) : Option Nat := do
  return 4096 * (← hexDigit? a) + 256 * (← hexDigit? b) + 16 * (← hexDigit? c) + (← hexDigit? d)

def plainEscape? (c : Char) : Option Char :=
  if c = '"' ∨ c = '\\' ∨ c = '/' then some c
  else if c = 'b' then some '\x08'
  else if c = 'f' then some '\x0c'
  else if c = 'n' then some '\n'
  else if c = 'r' then some '\r'
  else if c = 't' then some '\t'
  else none

/-- The pieces up to the closing quote, and what follows it. -/
def readPieces? : List Char → Option (List Piece × List Char)
  | []                                => none
  | '"' :: rest                       => some ([], rest)
  | '\\' :: 'u' :: a :: b :: c :: d :: rest =>
    match hexUnit? a b c d, readPieces? rest with
    | some u, some (ps, r) => some (.unit u :: ps, r)
    | _, _                 => none
  | '\\' :: c :: rest =>
    match plainEscape? c, readPieces? rest with
    | some e, some (ps, r) => some (.char e :: ps, r)
    | _, _                 => none
  | c :: rest =>
    if c.toNat < 32 then none
    else match readPieces? rest with
      | some (ps, r) => some (.char c :: ps, r)
      | none         => none

/-- The text of the pieces; none if a surrogate stands alone. -/
def joinPieces? : List Piece → Option (List Char)
  | []             => some []
  | .char c :: rest => (joinPieces? rest).map (c :: ·)
  | .unit u :: rest =>
    if 0xDC00 ≤ u ∧ u ≤ 0xDFFF then none
    else if 0xD800 ≤ u ∧ u ≤ 0xDBFF then
      match rest with
      | .unit v :: rest =>
        if 0xDC00 ≤ v ∧ v ≤ 0xDFFF then
          (joinPieces? rest).map (Char.ofNat (0x10000 + 1024 * (u - 0xD800) + (v - 0xDC00)) :: ·)
        else none
      | _ => none
    else (joinPieces? rest).map (Char.ofNat u :: ·)

def readString? (s : List Char) : Option (Option String × List Char) :=
  (readPieces? s).map fun (ps, r) => ((joinPieces? ps).map String.ofList, r)

/-! ## Numerals -/

/-- A numeral whose sign, if any, has been read. -/
def readNumeral? (negative : Bool) (s : List Char) : Option (Numeral × List Char) := do
  let (whole, rest) := Numeral.spanDigits s
  guard (!whole.isEmpty && (whole.length == 1 || whole.head? != some '0'))
  let (fraction, rest) ← match rest with
    | '.' :: r =>
      let (ds, r) := Numeral.spanDigits r
      if ds.isEmpty then none else some (some ds, r)
    | r => some (none, r)
  let (exponent, rest) ← Numeral.readExponent? rest
  pure (⟨negative, whole, fraction, exponent⟩, rest)

/-! ## Documents -/

mutual

def readDocument? : Nat → List Char → Option (Document × List Char)
  | 0, _        => none
  | fuel + 1, s =>
    match skipBlank s with
    | 'n' :: 'u' :: 'l' :: 'l' :: r        => some (.null, r)
    | 't' :: 'r' :: 'u' :: 'e' :: r        => some (.bool true, r)
    | 'f' :: 'a' :: 'l' :: 's' :: 'e' :: r => some (.bool false, r)
    | '"' :: r                             => (readString? r).map fun (t, r) => (.string t, r)
    | '[' :: r =>
      match skipBlank r with
      | ']' :: r => some (.array [], r)
      | r        => (readItems? fuel r).map fun (items, r) => (.array items, r)
    | '\x7b' :: r =>
      match skipBlank r with
      | '\x7d' :: r => some (.object [], r)
      | r           => (readMembers? fuel r).map fun (members, r) => (.object members, r)
    | '-' :: r => (readNumeral? true r).map fun (x, r) => (.number (Number.ofNumeral? x), r)
    | r        => (readNumeral? false r).map fun (x, r) => (.number (Number.ofNumeral? x), r)

/-- Items up to the closing bracket; there is at least one. -/
def readItems? : Nat → List Char → Option (List Document × List Char)
  | 0, _        => none
  | fuel + 1, s =>
    match readDocument? fuel s with
    | none        => none
    | some (d, r) =>
      match skipBlank r with
      | ',' :: r => (readItems? fuel r).map fun (ds, r) => (d :: ds, r)
      | ']' :: r => some ([d], r)
      | _        => none

/-- Members up to the closing brace; there is at least one. -/
def readMembers? : Nat → List Char → Option (List (Option String × Document) × List Char)
  | 0, _        => none
  | fuel + 1, s =>
    match readMember? fuel s with
    | none             => none
    | some (member, r) =>
      match skipBlank r with
      | ','    :: r => (readMembers? fuel r).map fun (ms, r) => (member :: ms, r)
      | '\x7d' :: r => some ([member], r)
      | _           => none

def readMember? : Nat → List Char → Option ((Option String × Document) × List Char)
  | 0, _        => none
  | fuel + 1, s =>
    match skipBlank s with
    | '"' :: r =>
      match readString? r with
      | none           => none
      | some (name, r) =>
        match skipBlank r with
        | ':' :: r => (readDocument? fuel r).map fun (d, r) => ((name, d), r)
        | _        => none
    | _ => none

end

/-- The document that fills a text, blanks around it apart. -/
def Document.ofText? (s : String) : Option Document :=
  let cs := s.toList
  match readDocument? (2 * cs.length + 2) cs with
  | some (d, r) => if (skipBlank r).isEmpty then some d else none
  | none        => none

/-- The value of a text. -/
def ofText? (s : String) : Option Json := (Document.ofText? s).bind (·.json? depthLimit)

def ofBytes? (bytes : Bytes) : Option Json := (Text.Utf8.decode? bytes).bind ofText?

end ProviderProtocol.Json
