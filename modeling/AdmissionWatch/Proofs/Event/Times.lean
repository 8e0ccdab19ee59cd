import AdmissionWatch.Audit.Wire
import AdmissionWatch.Event.OfAudit
import AdmissionWatch.Proofs.Event.PolicyEvents
import AdmissionWatch.Proofs.Time.Shown

/-!
# When events happened

Whatever an event was brought about from, the strict reader reads its time, and the timestamp of the
event is the second it reads (`event_times_read`). An event object keeps the time that it gives as long
as that can be read at all, at whatever offset and with whatever fraction; every other time is written
from an instant.
-/

namespace AdmissionWatch

/-! ## The times of records -/

theorem Audit.proper_of_fieldOr {found : Json.Raw.Found} {place : Nat} {t? : Option Time.Instant}
    (h : Json.Raw.fieldOr found place none (Json.Raw.nullable? instant?) = some t?) : ∀ t ∈ t?, t.Proper := by
  rintro t rfl
  unfold Json.Raw.fieldOr at h
  split at h
  · unfold Json.Raw.nullable? at h
    split at h
    · cases h
    · obtain ⟨t', ht, heq⟩ := Option.map_eq_some_iff.mp h
      obtain rfl := Option.some.inj heq
      obtain ⟨text, -, hread⟩ := Option.bind_eq_some_iff.mp ht
      exact Time.proper_of_relaxed? hread
  · cases h

/-- The times of a record that was read are ones that clocks show. -/
theorem Audit.Record.proper_of_read {line : String} {r : Record} (h : read line = .ok r) :
    (∀ t ∈ r.received, t.Proper) ∧ ∀ t ∈ r.staged, t.Proper := by
  unfold read at h
  split at h
  · rename_i r' hread
    obtain rfl := Except.ok.inj h
    obtain ⟨raw, -, hraw⟩ := Option.bind_eq_some_iff.mp hread
    unfold ofRaw? at hraw
    -- Whatever the fields before them hold, the times are the last two.
    iterate 14 obtain ⟨_, -, hraw⟩ := Option.bind_eq_some_iff.mp hraw
    obtain ⟨received, hreceived, hraw⟩ := Option.bind_eq_some_iff.mp hraw
    obtain ⟨staged, hstaged, hraw⟩ := Option.bind_eq_some_iff.mp hraw
    obtain rfl := Option.some.inj hraw
    exact ⟨proper_of_fieldOr hreceived, proper_of_fieldOr hstaged⟩
  · cases h

theorem Json.bind_str?_eq_some_iff {v? : Option Json} {s : String} : v?.bind str? = some s ↔ v? = some (.str s) := by
  cases v? with
  | none => simp
  | some v => cases v <;> simp [str?]

namespace Event

variable {now : Time.Instant} {r : Audit.Record} {object : Json} {e : Event}

/-! ## The times of events -/

/-- A violation happened at a time of its record, or now. -/
theorem auditTime_cases (now : Time.Instant) (r : Audit.Record) (c : Category) :
    auditTime now r c = now ∨ auditTime now r c ∈ r.received ∨ auditTime now r c ∈ r.staged := by
  unfold auditTime
  cases r.received <;> cases r.staged <;> cases c.isAuditOnly <;> simp

theorem firstTimestamp_ofAudit (now : Time.Instant) (r : Audit.Record) (c : Category) (source : String) :
    (ofAudit now r c source).dataText? "firstTimestamp" = some (r.received.getD (auditTime now r c)).text := by
  simp [ofAudit, dataText?, Dict.ofEntries, Dict.get?_insert, Json.str?]

theorem lastTimestamp_ofAudit (now : Time.Instant) (r : Audit.Record) (c : Category) (source : String) :
    (ofAudit now r c source).dataText? "lastTimestamp" =
      some ((r.staged.or r.received).getD (auditTime now r c)).text := by
  simp [ofAudit, dataText?, Dict.ofEntries, Dict.get?_insert, Json.str?]

/-- A time that is given stays as it is if it can be read. -/
theorem resolvedTime_eq (now : Time.Instant) (given : Option String) :
    (∃ text t, given = some text ∧ Time.readStrict? text = some t ∧ resolvedTime now given = text) ∨
      (∀ text ∈ given, Time.readStrict? text = none) ∧ resolvedTime now given = now.text := by
  cases given with
  | none => exact .inr ⟨fun _ h => (nomatch h), rfl⟩
  | some text =>
    cases hread : Time.readStrict? text with
    | none =>
      refine .inr ⟨fun text' h => ?_, by simp [resolvedTime, hread]⟩
      obtain rfl := Option.some.inj h
      exact hread
    | some t => exact .inl ⟨text, t, rfl, hread, by simp [resolvedTime, hread]⟩

theorem eventTime_ofObject {change : ChangeKind} {resourceType : String}
    (h : ofObject now change object resourceType = .ok e) :
    e.eventTime = resolvedTime now ((object.member? "eventTime").bind Json.str?) := by
  unfold ofObject at h
  split at h
  · split at h
    · cases h
    · obtain rfl := Except.ok.inj h
      rfl
    · cases h
  · cases h

/-- The event of an event object has the time that is resolved from the one given, and the second of it. -/
theorem time_ofPolicyEvent (h : ofPolicyEvent now object = .ok e) :
    e.eventTime = resolvedTime now ((object.member? "eventTime").bind Json.str?) ∧
      ∀ t, Time.readStrict? e.eventTime = some t → e.timestamp = t.seconds := by
  obtain ⟨given, hobject, htime, hsecond, -⟩ := exists_ofObject h
  refine ⟨htime.trans (eventTime_ofObject hobject), fun t ht => ?_⟩
  rw [hsecond, ← htime, ht]
  rfl

theorem ordinary_auditTime (hnow : now.Ordinary) (hreceived : ∀ t ∈ r.received, t.Ordinary)
    (hstaged : ∀ t ∈ r.staged, t.Ordinary) (c : Category) : (auditTime now r c).Ordinary := by
  rcases auditTime_cases now r c with h | h | h
  · rw [h]
    exact hnow
  · exact hreceived _ h
  · exact hstaged _ h

/-- Every event has a time that the strict reader reads, and the timestamp is the second of it. The event
of an audit record has the time of its record, and so have the first and the last time in its data; the
event of an event object has the time it gives, unless that is no text that can be read. -/
theorem event_times_read (hnow : now.Ordinary) :
    (∀ text t, Time.readStrict? text = some t ↔ Time.Shows text.toList t) ∧
      (∀ line r, Audit.Record.read line = .ok r → (∀ t ∈ r.received, t.Proper) ∧
        ∀ t ∈ r.staged, t.Proper) ∧
      (∀ (r : Audit.Record) c source, (∀ t ∈ r.received, t.Ordinary) → (∀ t ∈ r.staged, t.Ordinary) →
        let e := ofAudit now r c source
        let time := auditTime now r c
        Time.readStrict? e.eventTime = some time.whole ∧ e.timestamp = time.whole.seconds ∧
          (∃ first, e.dataText? "firstTimestamp" = some first ∧
            Time.readStrict? first = some (r.received.getD time).whole) ∧
          ∃ last, e.dataText? "lastTimestamp" = some last ∧
            Time.readStrict? last = some ((r.staged.or r.received).getD time).whole) ∧
      ∀ object e, ofPolicyEvent now object = .ok e →
        (∃ t, Time.readStrict? e.eventTime = some t ∧ e.timestamp = t.seconds) ∧
          (∀ text, object.member? "eventTime" = some (.str text) → (∃ t, Time.readStrict? text = some t) →
            e.eventTime = text) ∧
          ((∀ text, object.member? "eventTime" = some (.str text) → Time.readStrict? text = none) →
            e.eventTime = now.text) := by
  refine ⟨fun _ _ => Time.strict?_eq_some_iff, fun _ _ => Audit.Record.proper_of_read, ?_, ?_⟩
  · intro r c source hreceived hstaged e time
    have htime : time.Ordinary := ordinary_auditTime hnow hreceived hstaged c
    have hread : ∀ t? : Option Time.Instant, (∀ t ∈ t?, t.Ordinary) →
        Time.readStrict? (t?.getD time).text = some (t?.getD time).whole := by
      intro t? h
      cases t? with
      | none => exact htime.readStrict?_text
      | some t => exact (h t rfl).readStrict?_text
    have hlast : ∀ t ∈ r.staged.or r.received, t.Ordinary := by
      intro t ht
      rcases Option.or_eq_some_iff.mp ht with h | ⟨-, h⟩
      · exact hstaged t h
      · exact hreceived t h
    exact ⟨htime.readStrict?_text, rfl, ⟨_, firstTimestamp_ofAudit now r c source, hread _ hreceived⟩,
      _, lastTimestamp_ofAudit now r c source, hread _ hlast⟩
  · intro object e h
    obtain ⟨htime, hsecond⟩ := time_ofPolicyEvent h
    -- The time is the one given if that can be read, and else the text of now, which can.
    rcases resolvedTime_eq now ((object.member? "eventTime").bind Json.str?) with ⟨text, t, htext, hread, heq⟩ |
      ⟨hnone, heq⟩
    · rw [Json.bind_str?_eq_some_iff] at htext
      rw [← heq, ← htime] at hread
      refine ⟨⟨t, hread, hsecond t hread⟩, fun text' htext' _ => ?_, fun hnone => ?_⟩
      · obtain rfl : text = text' := by simpa [htext] using htext'
        exact htime.trans heq
      · rw [htime, heq, hnone text htext] at hread
        cases hread
    · have hread := hnow.readStrict?_text
      rw [← heq, ← htime] at hread
      refine ⟨⟨now.whole, hread, hsecond _ hread⟩, fun text htext ⟨t, ht⟩ => ?_, fun _ => htime.trans heq⟩
      rw [hnone text (Json.bind_str?_eq_some_iff.mpr htext)] at ht
      cases ht

/-- A record of a leap second, decided on before 1970, and an event object that gives a time at an offset
and a fraction of a second. -/
theorem event_times_read_leap :
    let r : Audit.Record := { received := some ⟨1483228799, 1000000001⟩, staged := some ⟨-1, 500000000⟩ }
    let e := ofAudit ⟨0, 0⟩ r .auditOnlyValidatingAdmissionPolicy "audit-log"
    let object : Json := .object [("metadata", .object []), ("eventTime", .str "1969-12-31T23:59:59.9+05:30")]
    (Time.readStrict? e.eventTime = some ⟨1483228799, 1000000000⟩ ∧ e.timestamp = 1483228799 ∧
        ∃ last, e.dataText? "lastTimestamp" = some last ∧ Time.readStrict? last = some ⟨-1, 0⟩) ∧
      ∃ e, ofPolicyEvent ⟨0, 0⟩ object = .ok e ∧ e.eventTime = "1969-12-31T23:59:59.9+05:30" ∧
        e.timestamp = -19801 := by
  intro r e object
  have hnow : (⟨0, 0⟩ : Time.Instant).Ordinary := by decide +kernel
  have hreceived : ∀ t ∈ r.received, t.Ordinary := by
    rintro t ⟨⟩
    decide +kernel
  have hstaged : ∀ t ∈ r.staged, t.Ordinary := by
    rintro t ⟨⟩
    decide +kernel
  have hgiven : Time.readStrict? "1969-12-31T23:59:59.9+05:30" = some ⟨-19801, 900000000⟩ := by decide +kernel
  obtain ⟨-, -, haudit, hpolicy⟩ := event_times_read hnow
  obtain ⟨htime, hsecond, -, hlast⟩ := haudit r .auditOnlyValidatingAdmissionPolicy "audit-log" hreceived hstaged
  have hwhole : (auditTime ⟨0, 0⟩ r .auditOnlyValidatingAdmissionPolicy).whole = ⟨1483228799, 1000000000⟩ := by
    decide
  have hdecided : ((r.staged.or r.received).getD (auditTime ⟨0, 0⟩ r .auditOnlyValidatingAdmissionPolicy)).whole =
      ⟨-1, 0⟩ := by
    decide
  rw [hwhole] at htime hsecond
  rw [hdecided] at hlast
  refine ⟨⟨htime, hsecond, hlast⟩, _, rfl, ?_⟩
  obtain ⟨⟨t, hread, hsecond⟩, hkept, -⟩ := hpolicy object _ rfl
  have htext := hkept _ rfl ⟨_, hgiven⟩
  rw [htext, hgiven] at hread
  obtain rfl := Option.some.inj hread
  exact ⟨htext, hsecond⟩

end Event

end AdmissionWatch
