import AdmissionWatch.Failure

/-!
# Calls to the log service

What can be asked of the service that keeps log groups, and what it answers. A log group holds log
streams, a log stream holds entries. All times are in milliseconds since the epoch.
-/

namespace AdmissionWatch.LogGroup

/-- A log stream, as it is listed. -/
structure Stream where
  name : String := ""
  /-- The time of its newest entry. -/
  lastEntry : Option Int := none
  /-- When the service last took in an entry for it. -/
  lastIngestion : Option Int := none
  deriving DecidableEq, Repr, Inhabited

/-- An entry of a log. -/
structure Entry where
  time : Option Int := none
  /-- When the service took it in. -/
  ingestion : Option Int := none
  /-- The name of its log stream. -/
  stream : Option String := none
  message : String := ""
  deriving DecidableEq, Repr, Inhabited

/-- What can be asked of the service. -/
inductive Call where
  /-- The names of at most `limit` log groups that start with a text. -/
  | groups (start : String) (limit : Nat)
  /-- At most `limit` log streams of a group, those with the newest entries first. -/
  | streams (group : String) (limit : Nat)
  /-- The first entries of a log stream from a time on, at most `limit`. -/
  | entries (group stream : String) (since : Int) (limit : Nat)
  /-- The first entries of all log streams of a group from a time on that match a pattern, at most
  `limit`. -/
  | matching (group pattern : String) (since : Int) (limit : Nat)
  deriving DecidableEq, Repr

namespace Call

/-- What a list that answers a call is a list of. -/
abbrev Item : Call → Type
  | groups .. => String
  | streams .. => Stream
  | entries .. | matching .. => Entry

/-- The answer to a call. -/
abbrev Reply (c : Call) : Type := Except Failure (List c.Item)

/-- The name of the operation that a call asks for. -/
def operation : Call → String
  | groups .. => "DescribeLogGroups"
  | streams .. => "DescribeLogStreams"
  | entries .. => "GetLogEvents"
  | matching .. => "FilterLogEvents"

end Call

end AdmissionWatch.LogGroup
