import ProviderProtocol.Text.Printable
/-!
# Quoted text

Names and strings stand in messages and in displayed values between double quotes.  A quote, a backslash and the
usual blanks get their two-character escapes; every other character that is not shown as it is gets its code point
in hexadecimal (`\u{301}`), so a message holds no character that a reader cannot see.
-/
namespace ProviderProtocol.Text

def escape (c : Char) : List Char :=
  if c = '"' then ['\\', '"']
  else if c = '\\' then ['\\', '\\']
  else if c = '\n' then ['\\', 'n']
  else if c = '\r' then ['\\', 'r']
  else if c = '\t' then ['\\', 't']
  else if c = '\x00' then ['\\', '0']
  else if isShown c then [c]
  else ['\\', 'u', '\x7b'] ++ Nat.toDigits 16 c.toNat ++ ['\x7d']

def quote (s : String) : String := String.ofList ('"' :: (s.toList.flatMap escape ++ ['"']))

/-- Quoted texts in brackets, separated by a comma and a space. -/
def quoteAll (texts : List String) : String := "[" ++ ", ".intercalate (texts.map quote) ++ "]"

end ProviderProtocol.Text
