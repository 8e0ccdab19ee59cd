import AdmissionWatch.Time.Span

/-!
# Settings of log group polling
-/

namespace AdmissionWatch.LogGroup

open Time

/-- Which log group is polled, and how. -/
structure Settings where
  /-- The name of the log group. -/
  group : String
  /-- The region it is in. -/
  region : String
  /-- The pattern that events have to match; none and the empty pattern match all. -/
  pattern : Option String := none
  /-- The most events that one request asks for. -/
  batchSize : Nat := 100
  /-- How long it is from the end of one poll to the start of the next. -/
  interval : Span := .ofSeconds 30
  /-- The most bytes of messages that one poll looks at, in units of `megabyte`. -/
  maxMemory : Nat := 512
  /-- The address of the service, if it is not the one of the region. -/
  endpoint : Option String := none
  deriving DecidableEq, Repr

namespace Settings

/-- The number of bytes in a unit of `maxMemory`. -/
def megabyte : Nat := 1024 * 1024

/-- The largest number of bytes. -/
def maxSize : Nat := 0xFFFFFFFFFFFFFFFF

/-- The most bytes of messages that one poll looks at. -/
def maxBytes (s : Settings) : Nat := min (s.maxMemory * megabyte) maxSize

end Settings

end AdmissionWatch.LogGroup
