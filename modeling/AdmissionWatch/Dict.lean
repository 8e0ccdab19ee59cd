/-!
# Maps from strings

Maps kept as lists of entries in increasing order of keys, one entry a key. Every operation keeps
this order, so two maps with the same entries are equal, and the order in which answers list the
entries is the order of the map.
-/

namespace AdmissionWatch

/-- Entries in increasing order of keys. -/
abbrev Dict (α : Type) := List (String × α)

namespace Dict

variable {α : Type}

/-- The value at a key. -/
def get? (key : String) : Dict α → Option α
  | [] => none
  | (k, v) :: rest => if k = key then some v else get? key rest

/-- Sets the value at a key. -/
def insert (key : String) (value : α) : Dict α → Dict α
  | [] => [(key, value)]
  | (k, v) :: rest =>
    if key < k then (key, value) :: (k, v) :: rest
    else if key = k then (key, value) :: rest
    else (k, v) :: insert key value rest

/-- Removes a key. -/
def erase (key : String) (d : Dict α) : Dict α :=
  d.filter fun e => e.1 != key

/-- Entries in any order, the last of each key kept. -/
def ofEntries (entries : List (String × α)) : Dict α :=
  entries.foldl (fun d e => insert e.1 e.2 d) []

/-- The keys in order. -/
def keys (d : Dict α) : List String :=
  d.map Prod.fst

end Dict

end AdmissionWatch
