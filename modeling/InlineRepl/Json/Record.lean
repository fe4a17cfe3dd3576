import InlineRepl.Json.Raw

/-!
# Records in JSON text

A record is read from an object, its members in any order, or from an array of its field values in
declaration order. Members of other names are skipped; a field given twice is a fault, and so is an
array with more items than the record has fields.

A field is required, or optional (`null` is absent), or has a default (it may be missing, but `null`
is not a value of it).
-/

namespace InlineRepl.Json

/-- The fields of a record that a text gives, each at most once. -/
abbrev Record := List (String × Raw)

namespace Record

/-- Members under the text of their keys. A key without a text is a fault. -/
def named : List (List Unit16 × Raw) → Option (List (String × Raw))
  | [] => some []
  | (key, value) :: members => do
    let key ← joinUnits key
    let members ← named members
    return (String.ofList key, value) :: members

/-- The members of the given names. A name that occurs twice is a fault. -/
def select (names : List String) : List (String × Raw) → Option Record
  | [] => some []
  | (name, value) :: members => do
    let chosen ← select names members
    if name ∈ names then
      if (chosen.lookup name).isSome then none else some ((name, value) :: chosen)
    else some chosen

/-- Field values in declaration order. -/
def ofItems (names : List String) (items : List Raw) : Option Record :=
  if items.length ≤ names.length then some (names.zip items) else none

/-- The fields of the given names that a text gives. -/
def ofRaw (names : List String) : Raw → Option Record
  | .object members => (named members).bind (select names)
  | .array items => ofItems names items
  | _ => none

/-- A field that has to be given. -/
def required {α : Type} (record : Record) (name : String) (read : Raw → Option α) : Option α :=
  (record.lookup name).bind read

/-- A field that may be missing or `null`. -/
def optional {α : Type} (record : Record) (name : String) (read : Raw → Option α) :
    Option (Option α) :=
  match record.lookup name with
  | none => some none
  | some .null => some none
  | some value => (read value).map some

/-- A field with a value of its own when it is missing. -/
def defaulted {α : Type} (record : Record) (name : String) (absent : α)
    (read : Raw → Option α) : Option α :=
  match record.lookup name with
  | none => some absent
  | some value => read value

end Record

/-- Reads a record from JSON text. -/
def readText {α : Type} (read : Raw → Option α) (text : String) : Option α :=
  (Raw.parse? text.toList).bind read

end InlineRepl.Json
