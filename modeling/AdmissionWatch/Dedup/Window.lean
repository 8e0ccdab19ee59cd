import AdmissionWatch.Time.Moment
import Std.Data.HashMap

/-!
# The window of known identifiers

Which correlation identifiers have been seen lately. An entry lives for a fixed time, and the
entries together cost at most a number of bytes, for which the oldest make room; the newest entry
always stays. An identifier that is not in the window was never seen or has been forgotten.
-/

namespace AdmissionWatch.Dedup

open Time

/-- Identifiers with the moments at which they came in. -/
structure Window where
  /-- How long an entry lives. -/
  ttl : Span
  /-- What the entries may cost together. -/
  maxBytes : Nat
  /-- When each identifier came in. -/
  entries : Std.HashMap String Moment := {}
  /-- The entries in the order in which they came, oldest first. -/
  order : List (String × Moment) := []
  /-- What the entries cost. -/
  bytes : Nat := 0

namespace Window

/-- How long an entry lives unless something else is asked for: an hour. -/
def defaultTtl : Span := .ofSeconds 3600

/-- What the entries may cost unless something else is asked for: 256 MiB. -/
def defaultMaxBytes : Nat := 256 * 1024 * 1024

/-- A window without entries. -/
def empty (ttl : Span := defaultTtl) (maxBytes : Nat := defaultMaxBytes) : Window :=
  { ttl, maxBytes }

/-- What an entry costs on top of the bytes of its identifier. -/
def overhead : Nat := 64

/-- What the entry of an identifier costs. -/
def cost (key : String) : Nat := key.utf8ByteSize + overhead

/-- Drops the oldest entry. -/
def dropOldest (w : Window) : Window :=
  match w.order with
  | [] => w
  | (key, moment) :: rest =>
    { w with
      entries := if w.entries[key]? = some moment then w.entries.erase key else w.entries
      order := rest
      bytes := w.bytes - cost key }

theorem length_order_dropOldest (w : Window) : w.dropOldest.order.length = w.order.length - 1 := by
  unfold dropOldest
  split <;> simp_all

/-- Whether an entry of that moment still lives. -/
def isLive (w : Window) (now : Moment) (moment : Moment) : Bool :=
  decide (moment.elapsed now < w.ttl)

/-- Drops the entries that live no longer, up to the first that does. -/
def expire (now : Moment) (w : Window) : Window :=
  match _order : w.order with
  | [] => w
  | (_, moment) :: _ => if w.isLive now moment then w else expire now w.dropOldest
termination_by w.order.length
decreasing_by
  rw [length_order_dropOldest, _order]
  simp

/-- Drops the oldest entries until one of that cost fits or none is left. -/
def makeRoom (cost : Nat) (w : Window) : Window :=
  match _order : w.order with
  | [] => w
  | _ :: _ => if w.maxBytes < w.bytes + cost then makeRoom cost w.dropOldest else w
termination_by w.order.length
decreasing_by
  rw [length_order_dropOldest, _order]
  simp

/-- Adds an entry as the newest. -/
def push (key : String) (now : Moment) (w : Window) : Window :=
  { w with
    entries := w.entries.insert key now
    order := w.order ++ [(key, now)]
    bytes := w.bytes + cost key }

/-- Takes an identifier in. Also answered: whether it was not there. -/
def enter (key : String) (now : Moment) (w : Window) : Bool × Window :=
  let w := w.expire now
  if w.entries.contains key then (false, w) else (true, (w.makeRoom (cost key)).push key now)

/-- Whether an identifier is there. -/
def contains (key : String) (now : Moment) (w : Window) : Bool :=
  match w.entries[key]? with
  | some moment => w.isLive now moment
  | none => false

/-- The number of entries, after those that live no longer have been dropped. -/
def size (now : Moment) (w : Window) : Nat × Window :=
  let w := w.expire now
  (w.entries.size, w)

end Window

end AdmissionWatch.Dedup
