import Mathlib.Data.List.Infix
import AdmissionWatch.Detection.MarkerSet
import AdmissionWatch.Proofs.Text.Occurrence

/-!
# What a scan for markers finds

Each marker has a bit of its own, so a set has the markers that were put into it (`MarkerSet.has_insert`).
Whichever exact engine searches, and also when none could be set up, a scan finds the markers whose
texts are part of the message, which are those of the plain search (`scan?_exact`).
-/

namespace AdmissionWatch.Detection

namespace Marker

theorem mem_all (m : Marker) : m ∈ all := by
  cases m <;> decide

theorem ctorIdx_lt (m : Marker) : m.ctorIdx < 16 := by
  cases m <;> decide

theorem ctorIdx_inj {m m' : Marker} : m.ctorIdx = m'.ctorIdx ↔ m = m' := by
  cases m <;> cases m' <;> decide

theorem mem_scan_iff {m : Marker} {message : String} : m ∈ scan message ↔ m.text.toList <:+: message.toList := by
  simp [scan, mem_all]

end Marker

theorem hasAll_pair_iff {m m' : Marker} {message : String} : hasAll (Marker.scan message) [m, m'] = true ↔
    m.text.toList <:+: message.toList ∧ m'.text.toList <:+: message.toList := by
  simp [hasAll, Marker.mem_scan_iff]

namespace MarkerSet
variable {set : MarkerSet} {m : Marker} {engine : Engine} {message : String}

theorem has_eq_getLsbD (set : MarkerSet) (m : Marker) : set.has m = set.bits.getLsbD m.ctorIdx := by
  have hne : BitVec.twoPow 16 m.ctorIdx ≠ 0#16 := by cases m <;> decide
  rw [has, Marker.bit, ← BitVec.twoPow, BitVec.and_twoPow]
  cases set.bits.getLsbD m.ctorIdx with
  | false => rfl
  | true => simpa using hne

theorem has_insert (set : MarkerSet) (m m' : Marker) : (set.insert m).has m' = (set.has m' || m == m') := by
  have hbit : m.bit.getLsbD m'.ctorIdx = (m == m') := by
    rw [Marker.bit, ← BitVec.twoPow, BitVec.getLsbD_twoPow, decide_eq_true m.ctorIdx_lt, Bool.true_and,
      Bool.eq_iff_iff, decide_eq_true_iff, beq_iff_eq, Marker.ctorIdx_inj]
  rw [has_eq_getLsbD, has_eq_getLsbD, insert, BitVec.getLsbD_or, hbit]

theorem not_has_empty (m : Marker) : ({} : MarkerSet).has m = false := by
  simp [has_eq_getLsbD]

theorem has_foldl (p : Marker → Bool) (found : List Marker) (set : MarkerSet) (m : Marker) :
    (found.foldl (fun set m => if p m then set.insert m else set) set).has m = true ↔
      set.has m = true ∨ (m ∈ found ∧ p m = true) := by
  induction found generalizing set with
  | nil => simp
  | cons m' found ih =>
    rw [List.foldl_cons, ih]
    split
    · rename_i hp
      simp only [has_insert, Bool.or_eq_true, beq_iff_eq, List.mem_cons]
      constructor
      · rintro ((h | rfl) | h)
        · exact .inl h
        · exact .inr ⟨.inl rfl, hp⟩
        · exact .inr ⟨.inr h.1, h.2⟩
      · rintro (h | ⟨rfl | h, hm⟩)
        · exact .inl (.inl h)
        · exact .inl (.inr rfl)
        · exact .inr ⟨h, hm⟩
    · rename_i hp
      simp only [List.mem_cons]
      refine or_congr_right (and_congr_left fun hm => (or_iff_right ?_).symm)
      rintro rfl
      exact hp hm

/-- Hits on texts that were searched for put their markers into the set. -/
theorem foldlM_hits {hits : List Hit} (hknown : ∀ hit ∈ hits, ∃ m, Marker.all[hit.text]? = some m)
    (set : MarkerSet) :
    ∃ set', hits.foldlM (fun set hit => Marker.all[hit.text]?.map set.insert) set = some set' ∧
      ∀ m, set'.has m = true ↔ set.has m = true ∨ ∃ hit ∈ hits, Marker.all[hit.text]? = some m := by
  induction hits generalizing set with
  | nil => exact ⟨set, rfl, by simp⟩
  | cons hit hits ih =>
    obtain ⟨⟨m₀, hm₀⟩, hrest⟩ := List.forall_mem_cons.mp hknown
    obtain ⟨set', hset', hhas⟩ := ih hrest (set.insert m₀)
    refine ⟨set', ?_, fun m => ?_⟩
    · rw [List.foldlM_cons, hm₀]
      exact hset'
    · rw [hhas, has_insert, Bool.or_eq_true, beq_iff_eq, or_assoc]
      simp [hm₀]

theorem scan?_exact (hexact : engine.IsExact) (message : String) :
    ∃ set, scan? engine message = some set ∧ set.markers = Marker.scan message ∧
      ∀ m : Marker, set.has m = true ↔ m.text.toList <:+: message.toList := by
  suffices h : ∃ set, scan? engine message = some set ∧ ∀ m : Marker, set.has m = true ↔
      m.text.toList <:+: message.toList by
    obtain ⟨set, hscan, hhas⟩ := h
    refine ⟨set, hscan, List.filter_congr fun m _ => ?_, hhas⟩
    rw [Bool.eq_iff_iff, hhas, Text.hasText_iff]
  unfold scan?
  cases hengine : engine (Marker.all.map Marker.text) with
  | none =>
    refine ⟨_, rfl, fun m => ?_⟩
    rw [has_foldl, not_has_empty, Text.hasText_iff]
    simp [Marker.mem_all]
  | some find =>
    have hhit := hexact _ _ hengine message
    have hknown : ∀ hit ∈ find message, ∃ m, Marker.all[hit.text]? = some m := by
      intro hit hmem
      obtain ⟨t, -, -, ht, -⟩ := (hhit hit).mp hmem
      rw [List.getElem?_map, Option.map_eq_some_iff] at ht
      exact ht.imp fun m hm => hm.1
    obtain ⟨set, hset, hhas⟩ := foldlM_hits hknown {}
    refine ⟨set, hset, fun m => ?_⟩
    rw [hhas, not_has_empty, Bool.false_eq_true, false_or]
    constructor
    · rintro ⟨hit, hmem, hm⟩
      obtain ⟨t, before, after, ht, rfl, -⟩ := (hhit hit).mp hmem
      rw [List.getElem?_map, hm, Option.map_some, Option.some.injEq] at ht
      exact ⟨before.toList, after.toList, by simp [ht]⟩
    · rintro ⟨before, after, heq⟩
      obtain ⟨k, hk⟩ := List.mem_iff_getElem?.mp m.mem_all
      refine ⟨⟨k, (String.ofList before).utf8ByteSize⟩,
        (hhit _).mpr ⟨m.text, .ofList before, .ofList after, ?_, ?_, rfl⟩, hk⟩
      · rw [List.getElem?_map, hk, Option.map_some]
      · rw [← String.toList_inj]
        simp [← heq]

end MarkerSet

/-! ### A plain engine -/

/-- Tries every text at every place. -/
def Engine.plain : Engine := fun texts => some fun s =>
  (List.range (s.toList.length + 1)).flatMap fun k => texts.zipIdx.filterMap fun t =>
    if t.1.toList <+: s.toList.drop k then some ⟨t.2, (String.ofList (s.toList.take k)).utf8ByteSize⟩ else none

theorem Engine.isExact_plain : plain.IsExact := by
  rintro texts _ ⟨⟩ s ⟨place, start⟩
  simp only [List.mem_flatMap, List.mem_range, List.mem_filterMap, Option.ite_none_right_eq_some,
    Option.some.injEq, Hit.mk.injEq]
  constructor
  · rintro ⟨k, -, ⟨t, _⟩, ht, ⟨after, hafter⟩, rfl, rfl⟩
    refine ⟨t, .ofList (s.toList.take k), .ofList after, List.mem_zipIdx_iff_getElem?.mp ht, ?_, rfl⟩
    rw [← String.toList_inj]
    simp [List.append_assoc, hafter]
  · rintro ⟨t, before, after, ht, rfl, rfl⟩
    refine ⟨before.toList.length, ?_, (t, place), List.mem_zipIdx_iff_getElem?.mpr ht, ?_, rfl, ?_⟩
    · simp only [String.toList_append, List.length_append]
      omega
    · simp
    · simp

end AdmissionWatch.Detection
