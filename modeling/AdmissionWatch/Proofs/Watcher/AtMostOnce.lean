import AdmissionWatch.Proofs.Dedup.Journal
import AdmissionWatch.Proofs.Watcher.Traffic
import Mathlib.Algebra.GroupWithZero.Nat
import Mathlib.Algebra.Order.BigOperators.Group.Finset

/-!
# No identifier is delivered twice

As long as submissions are so close in time that no entry of the window grows old, and their
identifiers fit in its bytes together, the window forgets none: what it answers is whether there was
a submission with the identifier before, from whichever source. Every step keeps `Remembers`, which
says so of the whole history; with `Flows` it follows that an identifier is queued and delivered once
at most (`run_delivers_once`).
-/

namespace AdmissionWatch.Watcher

open Time Dedup

/-! ### Brief histories -/

/-- What the identifiers of submissions cost together, each taken once. -/
def distinctCost (submitted : List Submitted) : Nat :=
  (submitted.map (·.id)).toFinset.sum Window.cost

/-- Submissions during which a window forgets nothing: the clock does not go back, it goes on for less
than an entry lives, and there is room for all identifiers. -/
structure Brief (ttl : Span) (maxBytes : Nat) (submitted : List Submitted) : Prop where
  clock : (submitted.map (·.moment)).Pairwise (· ≤ ·)
  within : ∀ a ∈ submitted, ∀ b ∈ submitted, a.moment.elapsed b.moment < ttl
  fits : distinctCost submitted ≤ maxBytes

theorem distinctCost_mono {l₁ l₂ : List Submitted} (h : l₁ ⊆ l₂) :
    distinctCost l₁ ≤ distinctCost l₂ := by
  refine Finset.sum_le_sum_of_subset fun id hid => ?_
  rw [List.mem_toFinset] at hid ⊢
  exact List.map_subset _ h hid

/-- Identifiers among those of submissions, without repetition, cost no more than these. -/
theorem cost_le_distinctCost {ids : List String} (hnodup : ids.Nodup) {submitted : List Submitted}
    (hsub : ids ⊆ submitted.map (·.id)) : (ids.map Window.cost).sum ≤ distinctCost submitted := by
  rw [← List.sum_toFinset _ hnodup]
  refine Finset.sum_le_sum_of_subset fun id hid => ?_
  rw [List.mem_toFinset] at hid ⊢
  exact hsub hid

namespace Brief
variable {ttl : Span} {maxBytes : Nat} {l₁ l₂ : List Submitted}

theorem of_prefix (h : Brief ttl maxBytes l₂) (hbefore : l₁ <+: l₂) : Brief ttl maxBytes l₁ where
  clock := h.clock.sublist (hbefore.sublist.map _)
  within a ha b hb := h.within a (hbefore.subset ha) b (hbefore.subset hb)
  fits := Nat.le_trans (distinctCost_mono hbefore.subset) h.fits

theorem past {s : Submitted} (h : Brief ttl maxBytes (l₁ ++ [s])) : ∀ a ∈ l₁, a.moment ≤ s.moment := by
  have hclock := h.clock
  rw [List.map_append, List.pairwise_append] at hclock
  exact fun a ha => hclock.2.2 a.moment (List.mem_map_of_mem ha) s.moment List.mem_cons_self

end Brief

/-! ### What the window remembers -/

/-- The submissions that were not refused as duplicates. -/
def fresh (submitted : List Submitted) : List Submitted :=
  submitted.filter fun s => s.outcome != .duplicate

theorem mem_fresh {submitted : List Submitted} {s : Submitted} :
    s ∈ fresh submitted ↔ s ∈ submitted ∧ s.outcome ≠ .duplicate := by
  simp [fresh]

theorem fresh_append_of_duplicate {submitted : List Submitted} {s : Submitted} (h : s.outcome = .duplicate) :
    fresh (submitted ++ [s]) = fresh submitted := by
  simp [fresh, List.filter_append, h]

theorem fresh_append {submitted : List Submitted} {s : Submitted} (h : s.outcome ≠ .duplicate) :
    fresh (submitted ++ [s]) = fresh submitted ++ [s] := by
  simp [fresh, List.filter_append, h]

/-- The journal of a window that took in the identifiers of these submissions. -/
def journal (ttl : Span) (maxBytes : Nat) (submitted : List Submitted) : Journal :=
  { ttl, maxBytes, taken := (fresh submitted).map fun s => (s.id, s.moment) }

/-- The window knows which identifiers were submitted, and only those submissions were answered with
`duplicate` whose identifier was submitted before. -/
structure Remembers (ttl : Span) (maxBytes : Nat) (submitted : List Submitted) (window : Window) : Prop where
  window : ∀ now, (∀ s ∈ submitted, s.moment ≤ now) → (journal ttl maxBytes submitted).Matches now window
  nodup : ((fresh submitted).map (·.id)).Nodup
  seen : ∀ s ∈ submitted, s.id ∈ (fresh submitted).map (·.id)
  first : ∀ id s, submitted.find? (·.id == id) = some s → s.outcome ≠ .duplicate
  /-- What came as new to an open channel with room was queued. -/
  room : ∀ s ∈ submitted, s.outcome ≠ .duplicate → s.hasRoom = true → s.outcome = .queued

namespace Remembers
variable {ttl : Span} {maxBytes : Nat} {submitted : List Submitted} {window : Window} {s : Submitted}

theorem empty (ttl : Span) (maxBytes : Nat) : Remembers ttl maxBytes [] (.empty ttl maxBytes) where
  window now _ := .empty ttl maxBytes now
  nodup := List.nodup_nil
  seen s hs := by cases hs
  first id s hs := by cases hs
  room s hs := by cases hs

/-- In a brief history everything that was taken in still lives. -/
theorem knows_iff (h : Remembers ttl maxBytes submitted window) (hbrief : Brief ttl maxBytes (submitted ++ [s])) :
    (journal ttl maxBytes submitted).knows s.id s.moment = true ↔ s.id ∈ (fresh submitted).map (·.id) := by
  have hallows : (journal ttl maxBytes submitted).allows s.moment (journal ttl maxBytes submitted).taken = true := by
    refine Journal.allows_iff.mpr ⟨fun e he => ?_, .inr ?_⟩
    · obtain ⟨a, ha, rfl⟩ := List.mem_map.mp he
      exact hbrief.within a (List.mem_append_left _ (mem_fresh.mp ha).1) s (by simp)
    -- Each identifier was taken in once, so together they cost no more than all that were seen.
    · have hcost : totalCost (journal ttl maxBytes submitted).taken =
          (((fresh submitted).map (·.id)).map Window.cost).sum := by
        simp [totalCost, journal, Function.comp_def]
      rw [hcost]
      refine Nat.le_trans (cost_le_distinctCost h.nodup fun id hid => ?_) hbrief.fits
      obtain ⟨a, ha, rfl⟩ := List.mem_map.mp hid
      exact List.mem_map_of_mem (List.mem_append_left _ (mem_fresh.mp ha).1)
  rw [Journal.knows_iff, Journal.live, longestSuffix_of_pos hallows]
  simp [journal, Function.comp_def]

/-- So the next submission is a duplicate exactly if its identifier was submitted before. -/
theorem enter_iff (h : Remembers ttl maxBytes submitted window) (hbrief : Brief ttl maxBytes (submitted ++ [s])) :
    (window.enter s.id s.moment).1 = false ↔ s.id ∈ (fresh submitted).map (·.id) := by
  rw [((h.window s.moment hbrief.past).enter (Nat.le_refl _) s.id).1, ← h.knows_iff hbrief]
  cases (journal ttl maxBytes submitted).knows s.id s.moment <;> simp

theorem matches_enter (h : Remembers ttl maxBytes submitted window)
    (hanswer : s.outcome = .duplicate ↔ (window.enter s.id s.moment).1 = false)
    (hbrief : Brief ttl maxBytes (submitted ++ [s])) :
    (journal ttl maxBytes (submitted ++ [s])).Matches s.moment (window.enter s.id s.moment).2 := by
  obtain ⟨hnew, hmatches⟩ := (h.window s.moment hbrief.past).enter (Nat.le_refl _) s.id
  cases hknown : (journal ttl maxBytes submitted).knows s.id s.moment with
  | true =>
    have hold : s.outcome = .duplicate := hanswer.mpr (by rw [hnew, hknown]; rfl)
    simp only [Journal.answer, hknown, ↓reduceIte] at hmatches
    rw [journal, fresh_append_of_duplicate hold]
    exact hmatches
  | false =>
    have hfresh : s.outcome ≠ .duplicate := fun hold => by
      rw [hanswer, hnew, hknown] at hold
      cases hold
    simp only [Journal.answer, hknown, Bool.false_eq_true, ↓reduceIte] at hmatches
    rw [journal, fresh_append hfresh, List.map_append]
    exact hmatches

theorem submit (h : Remembers ttl maxBytes submitted window)
    (hanswer : s.outcome = .duplicate ↔ (window.enter s.id s.moment).1 = false)
    (hroom : s.outcome ≠ .duplicate → s.hasRoom = true → s.outcome = .queued)
    (hbrief : Brief ttl maxBytes (submitted ++ [s])) :
    Remembers ttl maxBytes (submitted ++ [s]) (window.enter s.id s.moment).2 := by
  have hdup : s.outcome = .duplicate ↔ s.id ∈ (fresh submitted).map (·.id) := hanswer.trans (h.enter_iff hbrief)
  have hold : ∀ id, id ∈ (fresh submitted).map (·.id) → id ∈ (fresh (submitted ++ [s])).map (·.id) := by
    intro id hid
    rw [fresh, List.filter_append, List.map_append]
    exact List.mem_append_left _ hid
  have hmem : ∀ {P : Submitted → Prop}, (∀ a ∈ submitted, P a) → P s → ∀ a ∈ submitted ++ [s], P a := by
    intro P hbefore hlast a ha
    rcases List.mem_append.mp ha with ha | ha
    · exact hbefore a ha
    · exact List.mem_singleton.mp ha ▸ hlast
  refine ⟨fun now hpast => ?_, ?_, hmem (fun a ha => hold _ (h.seen a ha)) ?_, fun id a ha => ?_, hmem h.room hroom⟩
  · exact (h.matches_enter hanswer hbrief).later (hpast s (by simp))
  · by_cases hduplicate : s.outcome = .duplicate
    · rw [fresh_append_of_duplicate hduplicate]
      exact h.nodup
    · rw [fresh_append hduplicate, List.map_append]
      refine List.nodup_append.mpr ⟨h.nodup, by simp, fun a ha b hb hab => hduplicate (hdup.mpr ?_)⟩
      have hid : a = s.id := hab.trans (List.mem_singleton.mp hb)
      exact hid ▸ ha
  · by_cases hduplicate : s.outcome = .duplicate
    · exact hold _ (hdup.mp hduplicate)
    · rw [fresh_append hduplicate]
      simp
  · rw [List.find?_append] at ha
    cases hbefore : submitted.find? (·.id == id) with
    | some b =>
      rw [hbefore, Option.some_or] at ha
      cases ha
      exact h.first id a hbefore
    | none =>
      rw [hbefore, Option.none_or] at ha
      have hlast := List.mem_singleton.mp (List.mem_of_find?_eq_some ha)
      have hid : a.id = id := by simpa using List.find?_some ha
      rw [hlast] at hid ⊢
      -- A duplicate was submitted before, so it is not the first with its identifier.
      intro hduplicate
      obtain ⟨b, hb, hsame⟩ := List.mem_map.mp (hdup.mp hduplicate)
      have hnone := List.find?_eq_none.mp hbefore b (mem_fresh.mp hb).1
      exact hnone (by simp [hsame, hid])

end Remembers

/-! ### At most once -/

namespace Traffic
variable {ttl : Span} {maxBytes : Nat} {t : Traffic}

theorem remembers_go (h : Remembers ttl maxBytes t.submitted t.intake.window) (position : Nat) (now : Clock)
    (reply : (c : LogGroup.Call) → c.Reply) (isCut : Bool)
    (hbrief : Brief ttl maxBytes (t.go position now reply isCut).submitted) :
    Remembers ttl maxBytes (t.go position now reply isCut).submitted (t.go position now reply isCut).intake.window := by
  obtain ⟨errands, hnone | ⟨id, event, hone⟩⟩ := t.go_cases position now reply isCut
  · rw [hnone]
    exact h
  · rw [hone] at hbrief ⊢
    have hsubmit := h.submit (s := .to t.intake now.moment id event) (t.intake.submit_duplicate id event now.moment)
      (fun hnew hroom => ?_) hbrief
    · show Remembers ttl maxBytes (t.submitted ++ [_]) (t.intake.submit id event now.moment).2.window
      rw [t.intake.submit_window id event now.moment]
      exact hsubmit
    · obtain ⟨hopen, hspace⟩ := (Bool.and_eq_true _ _).mp hroom
      exact t.intake.submit_queued id event now.moment hnew (by simpa using hopen) (of_decide_eq_true hspace)

/-- Only submissions ask the window. -/
theorem remembers_step (h : Remembers ttl maxBytes t.submitted t.intake.window) (s : Step)
    (hbrief : Brief ttl maxBytes (t.step s).submitted) :
    Remembers ttl maxBytes (t.step s).submitted (t.step s).intake.window := by
  cases s with
  | go position now reply isCut => exact remembers_go h position now reply isCut hbrief
  | start =>
    show Remembers ttl maxBytes t.submitted t.watcher.pipeline.start.intake.window
    rw [Pipeline.start_intake]
    exact h
  | take now =>
    have hsame : (t.take now).submitted = t.submitted ∧ (t.take now).intake.window = t.intake.window := by
      unfold Traffic.take
      dsimp only
      split <;> exact ⟨rfl, Pipeline.take_window _ now⟩
    show Remembers ttl maxBytes (t.take now).submitted (t.take now).intake.window
    rw [hsame.1, hsame.2]
    exact h
  | finish reply now =>
    show Remembers ttl maxBytes t.submitted (t.watcher.finishWith reply now).pipeline.intake.window
    rw [finishWith_window]
    exact h
  | stop wasCalled =>
    show Remembers ttl maxBytes t.submitted t.watcher.pipeline.stop.intake.window
    rw [Pipeline.stop_window]
    exact h
  | _ => exact h

theorem remembers_run (h : Remembers ttl maxBytes t.submitted t.intake.window) (steps : List Step)
    (hbrief : Brief ttl maxBytes (t.run steps).submitted) :
    Remembers ttl maxBytes (t.run steps).submitted (t.run steps).intake.window := by
  induction steps generalizing t with
  | nil => exact h
  | cons s rest ih => exact ih (remembers_step h s (hbrief.of_prefix (submitted_run (t.step s) rest))) hbrief

theorem queued_sublist (t : Traffic) : t.queued.Sublist (fresh t.submitted) := by
  have hqueued : t.queued = (fresh t.submitted).filter fun s => s.outcome == .queued := by
    rw [fresh, List.filter_filter]
    refine List.filter_congr fun s _ => ?_
    cases s.outcome <;> rfl
  rw [hqueued]
  exact List.filter_sublist

end Traffic

/-- Of submissions with different identifiers one alone has an identifier. -/
theorem filter_id_eq {l : List Submitted} (hnodup : (l.map (·.id)).Nodup) {s : Submitted} (hs : s ∈ l) :
    l.filter (·.id == s.id) = [s] := by
  induction l with
  | nil => cases hs
  | cons a rest ih =>
    rw [List.map_cons, List.nodup_cons] at hnodup
    have hnone : ∀ b ∈ rest, ¬(b.id == a.id) = true := fun b hb hsame =>
      hnodup.1 (beq_iff_eq.mp hsame ▸ List.mem_map_of_mem hb)
    rcases List.mem_cons.mp hs with rfl | hs
    · rw [List.filter_cons_of_pos (by simp), List.filter_eq_nil_iff.mpr hnone]
    · have hother : ¬(a.id == s.id) = true := fun hsame => hnone s hs (beq_iff_eq.mpr (beq_iff_eq.mp hsame).symm)
      rw [List.filter_cons_of_neg (p := fun b : Submitted => b.id == s.id) hother]
      exact ih hnodup.2 hs

/-- Whatever passes over sources meet, and in whatever order they, the consumer and a stop take their
steps: in a brief history no identifier is queued twice, the sink is called once at most for each,
and the first submission with an identifier is queued, and alone, if the channel was open and had room. -/
theorem run_delivers_once (w : Watcher) (capacity : Nat) (ttl : Span) (maxBytes : Nat) (created : Moment)
    (steps : List Traffic.Step)
    (hbrief : Brief ttl maxBytes ((Traffic.create w capacity ttl maxBytes created).run steps).submitted) :
    let t := (Traffic.create w capacity ttl maxBytes created).run steps
    (∀ id, (t.queued.map (·.id)).count id ≤ 1 ∧ (t.delivered.map (·.1.id)).count id ≤ 1) ∧
      (∀ id first, t.submitted.find? (·.id == id) = some first → first.hasRoom = true →
        t.queued.filter (·.id == id) = [first]) ∧
      t.Flows := by
  intro t
  have hflows : t.Flows := (Traffic.flows_create w capacity ttl maxBytes created).run steps
  have hremembers : Remembers ttl maxBytes t.submitted t.intake.window :=
    Traffic.remembers_run (.empty ttl maxBytes) steps hbrief
  have hqueued : (t.queued.map (·.id)).Nodup := hremembers.nodup.sublist (t.queued_sublist.map _)
  refine ⟨fun id => ⟨?_, ?_⟩, fun id first hfirst hroom => ?_, hflows⟩
  · exact List.nodup_iff_count.mp hqueued id
  · have hdelivered : (t.delivered.map Prod.fst).Sublist t.queued := by
      have horder := hflows.order
      rw [List.append_assoc] at horder
      exact (List.sublist_append_left _ _).trans horder
    have hids : t.delivered.map (·.1.id) = (t.delivered.map Prod.fst).map (·.id) := by simp
    rw [hids]
    exact List.nodup_iff_count.mp (hqueued.sublist (hdelivered.map _)) id
  · have hmem : first ∈ t.submitted := List.mem_of_find?_eq_some hfirst
    have hid : first.id = id := by simpa using List.find?_some hfirst
    have houtcome := hremembers.room first hmem (hremembers.first id first hfirst) hroom
    rw [← hid]
    exact filter_id_eq hqueued (List.mem_filter.mpr ⟨hmem, by simp [houtcome]⟩)

/-- Two polls list the same two objects in different orders, and their steps alternate. There is room
for one event: what was submitted first is queued, and what comes again is held back. -/
theorem run_delivers_once_alternating :
    let object (name : String) : Json :=
      .object [("reason", .str "PolicyViolation"), ("action", .str "Resource Passed"),
      ("involvedObject", .object [("kind", .str "Policy")]), ("metadata", .object [("uid", .str name)])]
    let go (position : Nat) (now : Moment) : Traffic.Step := .go position ⟨⟨0, 0⟩, now⟩ (fun _ => .ok []) false
    let steps : List Traffic.Step :=
      [.start, .list [] [object "a", object "b"], .list [] [object "b", object "a"], go 0 1, go 1 2,
      go 1 4, go 0 5, .stop false]
    let t := (Traffic.create ⟨.create 1 0, {}, { started := 0, version := "" }, [], .created, .zero, none⟩ 1
      ⟨5⟩ 1000 0).run steps
    Brief ⟨5⟩ 1000 t.submitted ∧ t.submitted.map (·.moment) = [1, 2, 4, 5] ∧
      (t.queued.filter (·.id == "--Policy-a")).map (·.moment) = [1] := by
  intro object go steps t
  have hbrief : Brief ⟨5⟩ 1000 t.submitted := ⟨by decide +kernel, by decide +kernel, by decide +kernel⟩
  have hfirst : (t.submitted.find? (·.id == "--Policy-a")).map (fun s => (s.moment, s.hasRoom)) = some (1, true) := by
    decide +kernel
  obtain ⟨first, hfound, hshown⟩ := Option.map_eq_some_iff.mp hfirst
  obtain ⟨hmoment, hroom⟩ := Prod.mk.injEq _ _ _ _ ▸ hshown
  refine ⟨hbrief, by decide +kernel, ?_⟩
  rw [(run_delivers_once _ 1 ⟨5⟩ 1000 0 steps hbrief).2.1 "--Policy-a" first hfound hroom,
    List.map_singleton, hmoment]

end AdmissionWatch.Watcher
