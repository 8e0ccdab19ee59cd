import AdmissionWatch.Category

/-!
# Which outcomes are reported

Violations of audit kinds are reported whatever their outcome, since their requests are never
blocked. Of every other kind only the blocked ones are.
-/

namespace AdmissionWatch.Dispatch

/-- Which outcomes of a kind are reported. -/
inductive Forward where
  /-- Only blocked requests. -/
  | blockedOnly
  /-- Every outcome. -/
  | always
  deriving DecidableEq, Repr, Inhabited

namespace Forward

/-- The rule for a kind. -/
def ofCategory (c : Category) : Forward :=
  if c.isAuditOnly then always else blockedOnly

/-- Whether an outcome is reported. -/
def allows : Forward → (blocked : Bool) → Bool
  | blockedOnly, blocked => blocked
  | always, _ => true

/-- The rule in diagnostics. -/
def diagnostic : Forward → String
  | blockedOnly => "BlockedOnly"
  | always => "Always"

end Forward

end AdmissionWatch.Dispatch
