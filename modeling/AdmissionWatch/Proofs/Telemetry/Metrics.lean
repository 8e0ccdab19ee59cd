import AdmissionWatch.Telemetry.Metrics
import Mathlib.Algebra.GroupWithZero.Nat
import Mathlib.Data.List.Induction

/-!
# What is published of the counters

Counts of processed and dropped events are published as they are counted, so what is published between
two resets adds up to what the counters have grown by (`after_told`). The depth of the channel is
published whenever an event enters or leaves it. It is not published when counting begins anew, so from
then on up to the next event the depth that is shown is the one before (`published_follows_counters`).
-/

namespace AdmissionWatch.Telemetry

open Time

/-- The depth of the channel that an update tells. -/
def Update.depth? : Update → Option Nat
  | gauged name depth => if name = channelDepth then some depth else none
  | _ => none

/-- By how much an update lets a counter grow. -/
def Update.growth (counter : String) : Update → Nat
  | counted name _ amount => if name = counter then amount else 0
  | _ => 0

/-- The depth of the channel that updates show, the latest of which comes first. -/
def depthShown? (updates : List Update) : Option Nat := updates.findSome? Update.depth?

/-- By how much updates let a counter grow. -/
def totalGrowth (counter : String) (updates : List Update) : Nat := (updates.map (Update.growth counter)).sum

@[simp] theorem totalGrowth_append (counter : String) (updates more : List Update) :
    totalGrowth counter (updates ++ more) = totalGrowth counter updates + totalGrowth counter more := by
  rw [totalGrowth, List.map_append, List.sum_append, totalGrowth, totalGrowth]

namespace Metrics

/-- Whether an event enters or leaves the channel. -/
def Change.movesDepth : Change → Bool
  | entered | left => true
  | _ => false

/-- Whether a change sets everything back. -/
def Change.isReset : Change → Bool
  | reset _ => true
  | _ => false

/-- The collector after changes in turn. -/
def after (m : Metrics) (changes : List Change) : Metrics := changes.foldl record m

variable {m : Metrics} {c : Change} {changes : List Change}

@[simp] theorem after_concat : m.after (changes ++ [c]) = (m.after changes).record c := by simp [after]

/-! ### Growth -/

/-- Updates tell by how much the counters of two collectors differ. -/
structure Tells (told : List Update) (m m' : Metrics) : Prop where
  published : m'.published = told ++ m.published
  processed : m'.counters.processed = m.counters.processed + totalGrowth eventsProcessed told
  dropped : m'.counters.dropped = m.counters.dropped + totalGrowth eventsDropped told

theorem Tells.trans {told told' : List Update} {m₁ m₂ m₃ : Metrics} (h : Tells told m₁ m₂)
    (h' : Tells told' m₂ m₃) : Tells (told' ++ told) m₁ m₃ where
  published := by rw [h'.published, h.published, List.append_assoc]
  processed := by
    rw [h'.processed, h.processed, totalGrowth_append]
    omega
  dropped := by
    rw [h'.dropped, h.dropped, totalGrowth_append]
    omega

theorem record_told (m : Metrics) (h : c.isReset = false) : ∃ told, Tells told m (m.record c) := by
  cases c with
  | processed => exact ⟨[.counted eventsProcessed [] 1], rfl, rfl, rfl⟩
  | dropped => exact ⟨[.counted eventsDropped [] 1], rfl, rfl, rfl⟩
  | entered => exact ⟨[.gauged channelDepth (m.counters.inChannel + 1)], rfl, rfl, rfl⟩
  | left => exact ⟨[.gauged channelDepth (m.counters.inChannel - 1)], rfl, rfl, rfl⟩
  | delivered => exact ⟨[], rfl, rfl, rfl⟩
  | filtered => exact ⟨[], rfl, rfl, rfl⟩
  | failed => exact ⟨[], rfl, rfl, rfl⟩
  | took length => exact ⟨[.timed processingDuration length], rfl, rfl, rfl⟩
  | reset now => cases h

theorem after_told (m : Metrics) (h : ∀ c ∈ changes, c.isReset = false) :
    ∃ told, Tells told m (m.after changes) := by
  induction changes using List.reverseRecOn with
  | nil => exact ⟨[], rfl, rfl, rfl⟩
  | append_singleton changes c ih =>
    obtain ⟨told, htold⟩ := ih fun c' hc' => h c' (List.mem_append_left _ hc')
    obtain ⟨more, hmore⟩ := (m.after changes).record_told (h c (by simp))
    rw [after_concat]
    exact ⟨more ++ told, htold.trans hmore⟩

/-! ### Depth -/

theorem depthShown?_of_moves (m : Metrics) (h : c.movesDepth = true) :
    depthShown? (m.record c).published = some (m.record c).counters.inChannel := by
  cases c with
  | entered => rfl
  | left => rfl
  | _ => cases h

theorem depthShown?_of_stays (m : Metrics) (h : c.movesDepth = false) :
    depthShown? (m.record c).published = depthShown? m.published := by
  cases c with
  | entered | left => cases h
  | _ => rfl

theorem inChannel_of_stays (m : Metrics) (h : c.movesDepth = false) :
    (m.record c).counters.inChannel = if c.isReset then 0 else m.counters.inChannel := by
  cases c with
  | entered | left => cases h
  | _ => rfl

/-- Whether counting has begun anew since an event entered or left the channel. -/
def ResetSince (changes : List Change) : Prop :=
  ∃ before now later, changes = before ++ .reset now :: later ∧ ∀ c ∈ later, c.movesDepth = false

theorem resetSince_concat : ResetSince (changes ++ [c]) ↔
    c.isReset = true ∨ ResetSince changes ∧ c.movesDepth = false := by
  constructor
  · rintro ⟨before, now, later, heq, hstays⟩
    rcases List.eq_nil_or_concat later with rfl | ⟨later, last, rfl⟩
    · obtain ⟨-, hlast⟩ := List.append_inj' heq rfl
      obtain rfl := List.singleton_inj.mp hlast
      exact .inl rfl
    · rw [List.concat_eq_append, ← List.cons_append, ← List.append_assoc] at heq
      obtain ⟨rfl, hlast⟩ := List.append_inj' heq rfl
      obtain rfl := List.singleton_inj.mp hlast
      exact .inr ⟨⟨before, now, later, rfl, fun c hc => hstays c (by simp [hc])⟩, hstays c (by simp)⟩
  · rintro (hreset | ⟨⟨before, now, later, rfl, hstays⟩, hc⟩)
    · cases c with
      | reset now => exact ⟨changes, now, [], rfl, by simp⟩
      | _ => cases hreset
    · refine ⟨before, now, later ++ [c], by simp, fun c' hc' => ?_⟩
      rcases List.mem_append.mp hc' with hc' | hc'
      · exact hstays c' hc'
      · rwa [List.mem_singleton.mp hc']

/-- What the depth that is shown has to do with the counter, after changes. -/
structure Shows (changes : List Change) (m : Metrics) : Prop where
  isSome_iff : (depthShown? m.published).isSome = true ↔ ∃ c ∈ changes, c.movesDepth = true
  agrees : ¬ResetSince changes → ∀ depth, depthShown? m.published = some depth → depth = m.counters.inChannel
  zero : ResetSince changes → m.counters.inChannel = 0

theorem Shows.record (h : Shows changes m) (c : Change) : Shows (changes ++ [c]) (m.record c) := by
  cases hmoves : c.movesDepth with
  | true =>
    have hshown := m.depthShown?_of_moves hmoves
    have hno : ¬ResetSince (changes ++ [c]) := by
      rw [resetSince_concat, hmoves]
      cases c with
      | entered | left => simp [Change.isReset]
      | _ => cases hmoves
    refine ⟨?_, fun _ depth hdepth => ?_, fun hreset => absurd hreset hno⟩
    · simp [hshown, hmoves]
    · exact Option.some.inj (hdepth.symm.trans hshown)
  | false =>
    have hshown := m.depthShown?_of_stays hmoves
    have hcount := m.inChannel_of_stays hmoves
    refine ⟨?_, fun hno depth hdepth => ?_, fun hreset => ?_⟩
    · rw [hshown, h.isSome_iff]
      simp [hmoves]
    · rw [resetSince_concat, not_or] at hno
      rw [hcount, if_neg hno.1]
      exact h.agrees (fun hbefore => hno.2 ⟨hbefore, hmoves⟩) depth (hshown ▸ hdepth)
    · rw [hcount]
      rcases resetSince_concat.mp hreset with hnow | ⟨hbefore, -⟩
      · rw [if_pos hnow]
      · rw [h.zero hbefore, ite_self]

theorem shows_after (capacity : Nat) (start : Moment) (changes : List Change) :
    Shows changes ((create capacity start).after changes) := by
  induction changes using List.reverseRecOn with
  | nil =>
    have hnone : ¬ResetSince [] := by
      rintro ⟨before, now, later, heq, -⟩
      simp at heq
    refine ⟨?_, fun _ depth hdepth => ?_, fun hreset => absurd hreset hnone⟩
    · simp [after, create, depthShown?]
    · cases hdepth
  | append_singleton changes c ih =>
    rw [after_concat]
    exact ih.record c

end Metrics

open Metrics

/-- After any changes of a new collector, a depth of the channel has been published exactly if an event
has entered or left it. The depth published last is that of the counter exactly if it is zero or counting
has not begun anew since. And after changes among which counting does not begin anew, the counts of
processed and dropped events have grown by what was published of them meanwhile. -/
theorem published_follows_counters (capacity : Nat) (start : Moment) (changes : List Change) :
    let m := (create capacity start).after changes
    ((depthShown? m.published).isSome = true ↔ ∃ c ∈ changes, c.movesDepth = true) ∧
      (∀ depth, depthShown? m.published = some depth →
        (depth = m.counters.inChannel ↔ depth = 0 ∨ ¬ResetSince changes)) ∧
      ∀ before between, changes = before ++ between → (∀ c ∈ between, c.isReset = false) →
        ∃ told, m.published = told ++ ((create capacity start).after before).published ∧
          m.counters.processed = ((create capacity start).after before).counters.processed +
            totalGrowth eventsProcessed told ∧
          m.counters.dropped = ((create capacity start).after before).counters.dropped +
            totalGrowth eventsDropped told := by
  intro m
  have hshows := shows_after capacity start changes
  refine ⟨hshows.isSome_iff, fun depth hdepth => ?_, fun before between heq hbetween => ?_⟩
  · by_cases hreset : ResetSince changes
    · have hzero : m.counters.inChannel = 0 := hshows.zero hreset
      rw [hzero]
      exact ⟨.inl, fun hor => hor.elim id fun hno => absurd hreset hno⟩
    · exact ⟨fun _ => .inr hreset, fun _ => hshows.agrees hreset depth hdepth⟩
  · obtain ⟨told, htold⟩ := ((create capacity start).after before).after_told hbetween
    have hm : ((create capacity start).after before).after between = m := by
      simp [m, heq, after]
    rw [hm] at htold
    exact ⟨told, htold.published, htold.processed, htold.dropped⟩

/-- Counting begins anew with an event in the channel, and another event is dropped. -/
theorem published_follows_counters_reset :
    let m := (create 4 0).after [.processed, .entered, .reset 1, .dropped]
    depthShown? m.published = some 1 ∧ 1 ≠ m.counters.inChannel ∧
      ∃ told, m.published = told ++ ((create 4 0).after [.processed, .entered, .reset 1]).published ∧
        m.counters.dropped = 0 + totalGrowth eventsDropped told := by
  intro m
  obtain ⟨-, hdepth, hgrowth⟩ := published_follows_counters 4 0 [.processed, .entered, .reset 1, .dropped]
  refine ⟨rfl, fun hsame => ?_, ?_⟩
  · rcases (hdepth 1 rfl).mp hsame with hzero | hno
    · cases hzero
    · exact hno ⟨[.processed, .entered], 1, [.dropped], rfl, by decide⟩
  · obtain ⟨told, hpublished, -, hdropped⟩ := hgrowth [.processed, .entered, .reset 1] [.dropped] rfl (by decide)
    exact ⟨told, hpublished, hdropped⟩

/-- The depth published last is not always that of the counter: counting begins anew with an event in the
channel. -/
theorem depth_stale_after_reset :
    ¬∀ (capacity : Nat) (start : Moment) (changes : List Change) (depth : Nat),
      depthShown? ((create capacity start).after changes).published = some depth →
        depth = ((create capacity start).after changes).counters.inChannel := by
  intro hall
  have hsame : 1 = 0 := hall 4 0 [.entered, .reset 0] 1 rfl
  cases hsame

end AdmissionWatch.Telemetry
