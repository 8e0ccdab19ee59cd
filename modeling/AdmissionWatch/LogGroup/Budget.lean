import AdmissionWatch.LogGroup.Call

/-!
# Budgets

A poll looks at messages up to a number of bytes. The first message that does not fit ends it:
neither that one nor any after it is looked at, whether it would fit or not, so what is looked at is
a prefix of what was read.
-/

namespace AdmissionWatch.LogGroup

/-- How many bytes may be used and how many are. -/
structure Budget where
  limit : Nat
  used : Nat := 0
  /-- Whether some message did not fit. -/
  isSpent : Bool := false
  deriving DecidableEq, Repr

namespace Budget

/-- The entries at the head of a batch that fit. A sum that is cut off at the end of 64 bits decides the
same as the plain one: it is over every limit but that end, and no messages come to so many bytes. -/
def take (b : Budget) : List Entry → List Entry × Budget
  | [] => ([], b)
  | e :: rest =>
    let used := b.used + e.message.utf8ByteSize
    if b.limit < used then ([], { b with isSpent := true })
    else
      let (taken, left) := { b with used }.take rest
      (e :: taken, left)

end Budget

end AdmissionWatch.LogGroup
