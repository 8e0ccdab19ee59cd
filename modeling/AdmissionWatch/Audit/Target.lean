import AdmissionWatch.Audit.Record
import AdmissionWatch.Text.Search

/-!
# The object a denial names

An audit record of a denied request may lack the identity of its object, while the message of the
denial names it as `resource Kind/namespace/name was blocked`. `ObjectRef.named` takes from the
message what it finds there.
-/

namespace AdmissionWatch.Audit.ObjectRef

/-- The reference with resource, namespace and name as the message gives them. A reference with a
uid is complete and stays as it is; of an incomplete phrase the parts before the break are taken. -/
def named (message : String) (ref : ObjectRef) : ObjectRef :=
  if ref.uid ≠ "" then ref
  else
    match Text.cut? "denied the request:" message with
    | none => ref
    | some (_, denied) =>
      match Text.cut? "resource " denied with
      | none => ref
      | some (_, phrase) =>
        match Text.cut? "/" phrase with
        | none => ref
        | some (kind, rest) =>
          let ref := { ref with resource := kind }
          match Text.cut? "/" rest with
          | none => ref
          | some (namespaceName, rest) =>
            let ref := { ref with namespaceName := namespaceName }
            match Text.cut? " was blocked" rest with
            | none => ref
            | some (name, _) => { ref with name := name }

end AdmissionWatch.Audit.ObjectRef
