import TinyMips.Json.Basic

/-!
# Records in JSON

A record with named fields is read from an object, or from a list that gives the fields in order.
Fields may be missing from an object and from the end of a list. Members with other names count
for nothing, but no field may be given twice.
-/

namespace TinyMips.Json

/-- The members of an object whose keys are among the given names, by their decoded keys. Every
key must decode, and a name may stand for one member only. -/
def knownMembers? (names : List String) : List (String × Json) → Option (List (String × Json))
  | [] => some []
  | (key, value) :: rest => do
    let key ← unescape? key.toList
    let name := String.ofList key
    let known ← knownMembers? names rest
    if names.contains name = false then return known
    else if (known.lookup name).isSome then none
    else return (name, value) :: known

/-- The fields of a record with the given names, from an object or from a list that gives the
first of them in order. -/
def record? (names : List String) : Json → Option (List (String × Json))
  | array values => if values.length ≤ names.length then some (names.zip values) else none
  | object members => knownMembers? names members
  | _ => none

/-- The value of a field: the default when it is missing, and nothing when it does not read as a
value of its type. -/
def field? {α : Type} (fields : List (String × Json)) (name : String) (read : Json → Option α)
    (default : α) : Option α :=
  match fields.lookup name with
  | some value => read value
  | none => some default

/-- The 64-bit number of an unsigned integer literal. -/
def uint64? : Json → Option UInt64
  | number literal =>
    (Numeral.value? 10 literal.toList).bind fun n =>
      if n < UInt64.size then some (UInt64.ofNat n) else none
  | _ => none

end TinyMips.Json
