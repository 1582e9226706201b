/-!
# Enumerations on the wire

An enumeration crosses the wire as a number; each number in use has a name, and zero stands for a value that was not
set.  `nameOf?` and `numberOf?` go back and forth over one table, so a number or a name outside it has no partner.
-/
namespace ProviderProtocol

abbrev Enumeration := List (Int × String)

namespace Enumeration

def nameOf? (n : Int) : Enumeration → Option String
  | []                => none
  | (k, name) :: rest => if k = n then some name else nameOf? n rest

def numberOf? (name : String) : Enumeration → Option Int
  | []             => none
  | (n, k) :: rest => if k = name then some n else numberOf? name rest

def severities : Enumeration := [(0, "INVALID"), (1, "ERROR"), (2, "WARNING")]

def nestings : Enumeration := [(0, "INVALID"), (1, "SINGLE"), (2, "LIST"), (3, "SET"), (4, "MAP"), (5, "GROUP")]

end Enumeration

end ProviderProtocol
