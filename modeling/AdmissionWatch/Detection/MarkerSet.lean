import AdmissionWatch.Detection.Marker

/-!
# Sets of markers

The markers of a message as the bits of a number. All their texts are searched for at once by an
engine that is not part of this library: all that is known of it is what it reports
(`Engine.IsExact`). Where it cannot be set up each text is searched for by itself.
-/

namespace AdmissionWatch.Detection

/-- A place where one of several texts stands: which text, and how many bytes there are before it. -/
structure Hit where
  text : Nat
  start : Nat
  deriving DecidableEq, Repr

/-- What sets up a search for several texts at once; none when it cannot. -/
abbrev Engine := List String → Option (String → List Hit)

/-- A search reports every place where a text stands, overlapping or not, and no other. -/
def Engine.IsExact (engine : Engine) : Prop :=
  ∀ texts find, engine texts = some find → ∀ s hit, hit ∈ find s ↔
    ∃ t before after, texts[hit.text]? = some t ∧ s = before ++ t ++ after ∧ hit.start = before.utf8ByteSize

/-- The bit of a marker. -/
def Marker.bit (m : Marker) : BitVec 16 := 1#16 <<< m.ctorIdx

/-- Markers, each by its bit. -/
structure MarkerSet where
  bits : BitVec 16 := 0#16
  deriving DecidableEq, Repr

namespace MarkerSet

/-- The set, with this marker in it. -/
def insert (set : MarkerSet) (m : Marker) : MarkerSet := { bits := set.bits ||| m.bit }

/-- Whether a marker is in the set. -/
def has (set : MarkerSet) (m : Marker) : Bool := set.bits &&& m.bit != 0#16

/-- The markers of a set, in the order of `Marker.all`. -/
def markers (set : MarkerSet) : List Marker := Marker.all.filter set.has

/-- The markers whose texts stand in a message; none when the search reports a text that was not
searched for. -/
def scan? (engine : Engine) (message : String) : Option MarkerSet :=
  match engine (Marker.all.map Marker.text) with
  | some find => (find message).foldlM (fun set hit => Marker.all[hit.text]?.map set.insert) {}
  | none => some (Marker.all.foldl (fun set m => if Text.hasText m.text message then set.insert m else set) {})

end MarkerSet

end AdmissionWatch.Detection
