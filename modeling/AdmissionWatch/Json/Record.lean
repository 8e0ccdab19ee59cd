import AdmissionWatch.Json.Kept

/-!
# Reading records

A record is read from an object, whose members come in any order, are known by name and may be
followed by others that are ignored; or from an array, whose items are the fields in their order. A
field that stands twice, under one of its names each time, is refused. What an ignored member holds
matters only as far as the grammar goes.
-/

namespace AdmissionWatch.Json.Raw

/-- The fields found in a record, in the order in which the record declares them. -/
abbrev Found := List (Option Raw)

/-- The place of the field that goes by a name. -/
def placeOf? (names : List (List String)) (key : String) : Option Nat :=
  names.findIdx? (·.contains key)

/-- Adds a member of an object to the fields found so far. -/
def addMember (names : List (List String)) (found : Found) (member : List Char × Raw) : Option Found := do
  let key ← unescape member.1
  match placeOf? names (String.ofList key) with
  | none => some found
  | some i => if (found.getD i none).isSome then none else some (found.set i (some member.2))

/-- The fields of a record whose declared fields go by these names. -/
def record? (names : List (List String)) : Raw → Option Found
  | obj members => members.foldlM (addMember names) (names.map fun _ => none)
  | arr items =>
    if items.length ≤ names.length then
      some (items.map some ++ List.replicate (names.length - items.length) none)
    else none
  | _ => none

/-- The field at a place, read by `read?` when it was found, else `absent`. -/
def fieldOr {α : Type} (found : Found) (place : Nat) (absent : α) (read? : Raw → Option α) : Option α :=
  match found.getD place none with
  | some raw => read? raw
  | none => some absent

/-- The field at a place, which has to be there. -/
def field? {α : Type} (found : Found) (place : Nat) (read? : Raw → Option α) : Option α :=
  match found.getD place none with
  | some raw => read? raw
  | none => none

/-- A string. -/
def string? : Raw → Option String
  | str s => (unescape s).map String.ofList
  | _ => none

/-- A truth value. -/
def bool? : Raw → Option Bool
  | bool b => some b
  | _ => none

/-- An integer from `least` to `most`, written without fraction and exponent. -/
def intIn? (least most : Int) : Raw → Option Int
  | num n =>
    match n.number? with
    | some (.int i) => if least ≤ i ∧ i ≤ most then some i else none
    | _ => none
  | _ => none

/-- A signed integer of 32 bits. -/
def int32? : Raw → Option Int := intIn? (-0x80000000) 0x7FFFFFFF

/-- A signed integer of 64 bits. -/
def int64? : Raw → Option Int := intIn? (-0x8000000000000000) 0x7FFFFFFFFFFFFFFF

/-- `null`, or a value that `read?` reads. -/
def nullable? {α : Type} (read? : Raw → Option α) : Raw → Option (Option α)
  | null => some none
  | raw => (read? raw).map some

/-- An array of values that `read?` reads. -/
def listOf? {α : Type} (read? : Raw → Option α) : Raw → Option (List α)
  | arr items => items.mapM read?
  | _ => none

/-- An object as a map of values that `read?` reads; of a key that stands twice the last value
counts. -/
def dictOf? {α : Type} (read? : Raw → Option α) : Raw → Option (Dict α)
  | obj members =>
    (members.mapM fun (m : List Char × Raw) => do
      let key ← unescape m.1
      let v ← read? m.2
      return (String.ofList key, v)).map Dict.ofEntries
  | _ => none

/-- One of a set of words, or an object whose only member is that word with the value `null`. -/
def word? {α : Type} (meaning? : String → Option α) : Raw → Option α
  | str s => (unescape s).bind fun s => meaning? (String.ofList s)
  | obj [(key, null)] => (unescape key).bind fun s => meaning? (String.ofList s)
  | _ => none

/-- The members of an object that is kept, `depth` levels below the text. -/
def fieldsAt? (depth : Nat) (raw : Raw) : Option Fields :=
  match value? (maxDepth - depth) raw with
  | some (.obj fields) => some fields
  | _ => none

end AdmissionWatch.Json.Raw
