import AdmissionWatch.Proofs.Dict
import AdmissionWatch.Proofs.Time.Span
import AdmissionWatch.Settings.File

/-!
# The spans of a settings file

The spans that a settings file says or leaves out are ones that are read back from what is written for
them, so they survive when settings are written and read again (`spans_read_back`).
-/

namespace AdmissionWatch

open Time Yaml.Reading

/-! ## Fields that are read -/

section
variable {α : Type} {read? : Yaml.Reading α} {targets : List (Nat × Yaml.Node)} {found : Found} {place : Nat}

theorem Yaml.Reading.fieldOr_cases {absent a : α} (h : fieldOr targets found place absent read? = some a) :
    a = absent ∨ ∃ node, read? targets node = some a := by
  unfold fieldOr at h
  split at h
  · exact .inr ⟨_, h⟩
  · exact .inl (Option.some.inj h).symm

theorem Yaml.Reading.through_cases {node : Yaml.Node} {a : α} (h : through read? targets node = some a) :
    ∃ node', read? targets node' = some a := by
  unfold through at h
  split at h
  · obtain ⟨node', -, h⟩ := Option.bind_eq_some_iff.mp h
    exact ⟨node', h⟩
  · exact ⟨_, h⟩

theorem Yaml.Reading.optional?_cases {node : Yaml.Node} {a : α} (h : optional? read? targets node = some (some a)) :
    ∃ node', read? targets node' = some a := by
  obtain ⟨node', h⟩ := through_cases h
  split at h
  · cases h
  · obtain ⟨a', hread, heq⟩ := Option.map_eq_some_iff.mp h
    obtain rfl := Option.some.inj heq
    exact ⟨node', hread⟩
  · cases h

end

namespace FileSettings

variable {targets : List (Nat × Yaml.Node)} {found : Found} {place : Nat} {node : Yaml.Node}

theorem isWhole_of_span? {d : Span} (h : span? targets node = some d) : d.IsWhole := by
  obtain ⟨s, -, h⟩ := Option.bind_eq_some_iff.mp h
  cases hread : Span.read s with
  | error e =>
    rw [hread] at h
    cases h
  | ok d' =>
    rw [hread] at h
    obtain rfl := Option.some.inj h
    exact (Span.denotes_of_read hread).isWhole

theorem isWhole_of_fieldOr {absent d : Span} (habsent : absent.IsWhole)
    (h : fieldOr targets found place absent span? = some d) : d.IsWhole := by
  rcases fieldOr_cases h with rfl | ⟨node, h⟩
  · exact habsent
  · exact isWhole_of_span? h

/-- Half a minute, which is every span that is left out. -/
theorem isWhole_default : (Span.ofSeconds 30).IsWhole := ⟨30, by decide, .inr rfl⟩

theorem isWhole_policyEvents {p : PolicyEventSettings} (h : policyEvents? targets node = some p) :
    p.interval.IsWhole := by
  unfold policyEvents? at h
  iterate 2 obtain ⟨_, -, h⟩ := Option.bind_eq_some_iff.mp h
  obtain ⟨interval, hinterval, h⟩ := Option.bind_eq_some_iff.mp h
  obtain rfl := Option.some.inj h
  exact isWhole_of_fieldOr isWhole_default hinterval

theorem isWhole_logGroup {s : LogGroup.Settings} (h : logGroup? targets node = some s) : s.interval.IsWhole := by
  unfold logGroup? at h
  iterate 5 obtain ⟨_, -, h⟩ := Option.bind_eq_some_iff.mp h
  obtain ⟨interval, hinterval, h⟩ := Option.bind_eq_some_iff.mp h
  iterate 2 obtain ⟨_, -, h⟩ := Option.bind_eq_some_iff.mp h
  obtain rfl := Option.some.inj h
  exact isWhole_of_fieldOr isWhole_default hinterval

/-! ## The spans of settings -/

/-- The spans of settings. -/
def spans (f : FileSettings) : List Span :=
  [f.httpTimeout, f.metricsInterval, f.policyEvents.interval] ++ (f.logGroup.map LogGroup.Settings.interval).toList

theorem isWhole_of_mem_spans {f : FileSettings} (h : ofNode? targets node = some f) : ∀ d ∈ f.spans, d.IsWhole := by
  unfold ofNode? at h
  iterate 2 obtain ⟨_, -, h⟩ := Option.bind_eq_some_iff.mp h
  obtain ⟨httpTimeout, hhttp, h⟩ := Option.bind_eq_some_iff.mp h
  iterate 4 obtain ⟨_, -, h⟩ := Option.bind_eq_some_iff.mp h
  obtain ⟨metricsInterval, hmetrics, h⟩ := Option.bind_eq_some_iff.mp h
  iterate 2 obtain ⟨_, -, h⟩ := Option.bind_eq_some_iff.mp h
  obtain ⟨policyEvents, hevents, h⟩ := Option.bind_eq_some_iff.mp h
  obtain ⟨logGroup, hgroup, h⟩ := Option.bind_eq_some_iff.mp h
  obtain rfl := Option.some.inj h
  simp only [spans, List.cons_append, List.nil_append, List.forall_mem_cons]
  refine ⟨isWhole_of_fieldOr isWhole_default hhttp, isWhole_of_fieldOr isWhole_default hmetrics, ?_, fun d hd => ?_⟩
  · rcases fieldOr_cases hevents with rfl | ⟨node, hnode⟩
    · exact isWhole_default
    · exact isWhole_policyEvents hnode
  · obtain ⟨s, rfl, rfl⟩ := Option.map_eq_some_iff.mp (Option.mem_toList.mp hd)
    rcases fieldOr_cases hgroup with hnone | ⟨node, hnode⟩
    · cases hnone
    · obtain ⟨node', hnode'⟩ := optional?_cases hnode
      exact isWhole_logGroup hnode'

/-- Where spans stand in settings that are written. -/
def spanPaths : List (List String) :=
  [["http_timeout"], ["metrics_log_interval"], ["kubernetes_events", "poll_interval"], ["cloudwatch", "poll_interval"]]

/-- The texts of the spans in settings that are written. -/
def spanTexts (written : Json) : List String :=
  spanPaths.filterMap fun path => (written.at? path).bind Json.str?

theorem spanTexts_toJson (f : FileSettings) : spanTexts f.toJson = f.spans.map Span.settingText := by
  cases hgroup : f.logGroup with
  | none =>
    simp [spanTexts, spanPaths, toJson, spans, hgroup, Json.at?, Json.object, Json.member?, Json.str?, Dict.ofEntries,
      Dict.get?_insert]
  | some s =>
    simp [spanTexts, spanPaths, toJson, logGroupJson, spans, hgroup, Json.at?, Json.object, Json.member?, Json.str?,
      Dict.ofEntries, Dict.get?_insert]

end FileSettings

/-- A text is read as a span exactly if it is written as spans are: blanks do not matter around it and
before the unit, the number has 64 bits, and minutes and hours saturate at the seconds that 64 bits
hold. Every span that is read is read back as the same span from what settings write for it; and so are
all spans of a settings file, from what is written for that file. -/
theorem spans_read_back :
    (∀ (s : String) (d : Span), Span.read s = .ok d ↔ Span.Denotes s.toList d) ∧
      (∀ (s : String) (d : Span), Span.read s = .ok d → Span.read d.settingText = .ok d) ∧
      ∀ (text : String) (f : FileSettings), FileSettings.read? text = some f →
        (FileSettings.spanTexts f.toJson).map Span.read = f.spans.map .ok := by
  refine ⟨fun s d => Span.read_eq_ok_iff, fun s d h => (Span.denotes_of_read h).isWhole.read_settingText,
    fun text f h => ?_⟩
  obtain ⟨root, -, h⟩ := Option.bind_eq_some_iff.mp h
  have hwhole := FileSettings.isWhole_of_mem_spans h
  rw [FileSettings.spanTexts_toJson, List.map_map]
  exact List.map_congr_left fun d hd => by rw [Function.comp_apply, (hwhole d hd).read_settingText]

/-- One hour more than 64 bits hold in seconds. -/
theorem spans_read_back_saturated :
    Span.read " 5124095576030432 h\n" = .ok ⟨18446744073709551615000000000⟩ ∧
      Span.read "18446744073709551615s" = .ok ⟨18446744073709551615000000000⟩ := by
  have hread : Span.read " 5124095576030432 h\n" = .ok ⟨18446744073709551615000000000⟩ := by decide +kernel
  have hback := spans_read_back.2.1 _ _ hread
  have htext : (⟨18446744073709551615000000000⟩ : Span).settingText = "18446744073709551615s" := by decide +kernel
  rw [htext] at hback
  exact ⟨hread, hback⟩

end AdmissionWatch
