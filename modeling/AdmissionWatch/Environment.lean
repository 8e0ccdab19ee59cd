import AdmissionWatch.Dict

/-!
# The environment

The variables that a process is started with.
-/

namespace AdmissionWatch

/-- Variables and their values. -/
abbrev Environment := Dict String

end AdmissionWatch
