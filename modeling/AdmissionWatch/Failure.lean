/-!
# Causes of failure

Everything that can go wrong in this library, one constructor a cause, and the text of each. Only a
source that failed in passing is worth another try.
-/

namespace AdmissionWatch

/-- Why an operation failed. -/
inductive Failure where
  /-- A source record is malformed. -/
  | parse (detail : String)
  /-- An object has no metadata. -/
  | missingMetadata
  /-- The metadata of an object is not a map. -/
  | invalidMetadataType
  /-- A value that should be an object is of the named type. -/
  | unsupportedObjectType (typeName : String)
  /-- A field that a handler needs is absent or empty. -/
  | missingField (field : String)
  /-- A field that a handler needs has the wrong shape. -/
  | invalidFieldType (field : String)
  /-- A source failed in passing. -/
  | retryableSource (detail : String)
  /-- A source failed for good. -/
  | nonRetryableSource (detail : String)
  /-- No delivery token came free in time. -/
  | rateLimitExceeded (detail : String)
  /-- The reporting endpoint refused the payload or was not reached. -/
  | delivery (detail : String)
  /-- The settings are wrong. -/
  | config (detail : String)
  /-- The operating system refused a file. -/
  | io (detail : String)
  /-- A value could not be written or read as JSON. -/
  | serialization (detail : String)
  /-- The watcher was used against its rules. -/
  | internal (detail : String)
  deriving DecidableEq, Repr, Inhabited

namespace Failure

/-- What is reported of a failure. -/
def message : Failure → String
  | parse detail => "parse error: " ++ detail
  | missingMetadata => "object missing metadata field"
  | invalidMetadataType => "metadata is not a map"
  | unsupportedObjectType typeName => "unsupported object type: " ++ typeName
  | missingField field => "missing field: " ++ field
  | invalidFieldType field => "invalid field type: " ++ field
  | retryableSource detail => "retryable source error: " ++ detail
  | nonRetryableSource detail => "source error: " ++ detail
  | rateLimitExceeded detail => "rate limit exceeded: " ++ detail
  | delivery detail => "delivery error: " ++ detail
  | config detail => "configuration error: " ++ detail
  | io detail => "io error: " ++ detail
  | serialization detail => "serialization error: " ++ detail
  | internal detail => "internal error: " ++ detail

/-- Whether another try may succeed. -/
def isRetryable : Failure → Bool
  | retryableSource _ => true
  | _ => false

end Failure

end AdmissionWatch
