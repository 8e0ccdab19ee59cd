import AdmissionWatch.Proofs.Basics
import AdmissionWatch.Proofs.LogGroup.Cursors
import AdmissionWatch.Proofs.LogGroup.Service

/-!
# What cursors cover

A cursor stands at the time of an entry that was looked at, and whatever is older was looked at too
or was too old for the window of some poll (`Covers`). This is kept (`Sound`) whatever the service
takes in, answers or refuses: entries come in by their times, and what a read is answered with is a
prefix of what is there from its start on, so a cursor may move to any entry of it that was looked at.
-/

namespace AdmissionWatch.LogGroup

open Time Session

theorem newest?_entries {name : String} {found : List (Stored × Nat)} {time : Int}
    (h : newest? (found.map fun f => f.1.entry name) = some time) : ∃ f ∈ found, f.1.time = time := by
  have hmem := List.max?_mem h
  simp only [List.filterMap_map, List.mem_filterMap] at hmem
  obtain ⟨f, hf, htime⟩ := hmem
  exact ⟨f, hf, Option.some.inj htime⟩

/-! ### What every interaction keeps -/

/-- Nothing that was in the window and not looked at before a read was older than its start. -/
def Read.IsComplete (r : Read) : Prop :=
  ∀ i e, r.stored[i]? = some e → r.start ≤ e.time → (r.name, i) ∈ r.processed ∨ r.since ≤ e.time

namespace Service

/-- An entry is done with when it was looked at, or was too old for the window of some poll. -/
def Done (s : Service) (p : Place) (e : Stored) : Prop :=
  p ∈ s.processed ∨ ∃ start ∈ s.starts, e.time < start

/-- A cursor of a log stream stands at the time of an entry there, and what is older is done with. -/
structure Covers (s : Service) (name : String) (cursor : Int) : Prop where
  stored : ∃ e ∈ (s.logs name).stored, e.time = cursor
  below : ∀ i e, s.stored? (name, i) = some e → e.time < cursor → s.Done (name, i) e

/-- The record of a service is right, and the cursors cover their log streams. -/
structure Sound (s : Service) (cursors : Cursors) : Prop where
  covers : ∀ c ∈ cursors, s.Covers c.1 c.2
  latest : ∀ start ∈ s.starts, start ≤ s.start
  /-- The messages that were handed over are those of the entries that count as processed. -/
  handed : s.handed.map some = s.processed.map fun p => (s.stored? p).map (·.message)
  reads : ∀ r ∈ s.reads, r.IsComplete

variable {s t : Service} {cursors : Cursors}

theorem Done.later (h : Extends s t) {p : Place} {e : Stored} (hdone : s.Done p e) : t.Done p e := by
  rcases hdone with hprocessed | hold
  · exact .inl (h.processed.subset hprocessed)
  · exact .inr (h.starts ▸ hold)

/-- What comes in later is not older than the entry at which a cursor stands. -/
theorem Covers.later (h : Extends s t) {name : String} {cursor : Int} (hcovers : s.Covers name cursor) :
    t.Covers name cursor := by
  obtain ⟨a, ha, htime⟩ := hcovers.stored
  refine ⟨⟨a, (h.logs name).subset ha, htime⟩, fun i e he hlt => ?_⟩
  have hbefore : s.stored? (name, i) = some e := h.stored?_of_time_lt he ha (htime ▸ hlt)
  exact (hcovers.below i e hbefore hlt).later h

namespace Sound

theorem create (logs : String → Log) (plan : Nat → Happening) (intake : Intake) :
    Sound { logs, plan, intake } [] where
  covers c hc := by cases hc
  latest start hstart := by cases hstart
  handed := rfl
  reads r hr := by cases hr

theorem subset (h : Sound s cursors) {cursors' : Cursors} (hsub : cursors' ⊆ cursors) : Sound s cursors' :=
  { h with covers := fun c hc => h.covers c (hsub hc) }

theorem stored_of_processed (h : Sound s cursors) {p : Place} (hp : p ∈ s.processed) :
    ∃ e, s.stored? p = some e := by
  have hmem : (s.stored? p).map (·.message) ∈ s.handed.map some :=
    h.handed ▸ List.mem_map_of_mem (f := fun p => (s.stored? p).map (·.message)) hp
  obtain ⟨message, -, hmessage⟩ := List.mem_map.mp hmem
  obtain ⟨e, he, -⟩ := Option.map_eq_some_iff.mp hmessage.symm
  exact ⟨e, he⟩

/-- The messages of what was processed are the same later. -/
theorem handed_later (h : Sound s cursors) (hext : Extends s t) :
    s.handed.map some = s.processed.map fun p => (t.stored? p).map (·.message) := by
  rw [h.handed]
  refine List.map_congr_left fun p hp => ?_
  obtain ⟨e, he⟩ := h.stored_of_processed hp
  rw [he, hext.stored? he]

/-- What only lets the log streams grow keeps everything. -/
theorem later (h : Sound s cursors) (hext : Extends s t) (hprocessed : t.processed = s.processed)
    (hhanded : t.handed = s.handed) (hreads : ∀ r ∈ t.reads, r.IsComplete) : Sound t cursors where
  covers c hc := (h.covers c hc).later hext
  latest := by
    rw [start, hext.starts]
    exact h.latest
  handed := by
    rw [hhanded, hprocessed]
    exact h.handed_later hext
  reads := hreads

/-- What is older than the start of a read is done with. -/
theorem done_of_lt_startFor (h : Sound s cursors) {name : String} {start : Int} (hstart : start ∈ s.starts)
    {i : Nat} {e : Stored} (he : s.stored? (name, i) = some e) (hlt : e.time < cursors.startFor name start) :
    s.Done (name, i) e := by
  rcases cursors.startFor_cases name start with hcase | hcursor
  · exact .inr ⟨start, hstart, hcase ▸ hlt⟩
  · exact (h.covers _ (Dict.mem_of_get? hcursor)).below i e he hlt

/-- With a new window, if it is no earlier than those before, everything stays as it is. -/
theorem begin (h : Sound s cursors) {start : Int} (hclock : ∀ a ∈ s.starts, a ≤ start) :
    Sound { s with starts := start :: s.starts } cursors := by
  refine ⟨fun c hc => ?_, fun a ha => ?_, h.handed, h.reads⟩
  · obtain ⟨hstored, hbelow⟩ := h.covers c hc
    refine ⟨hstored, fun i e he hlt => ?_⟩
    rcases hbelow i e he hlt with hprocessed | ⟨a, ha, hold⟩
    · exact .inl hprocessed
    · exact .inr ⟨a, List.mem_cons_of_mem _ ha, hold⟩
  · show a ≤ start
    rcases List.mem_cons.mp ha with rfl | ha
    · exact Int.le_refl _
    · exact hclock a ha

theorem proceed (h : Sound s cursors) : Sound s.proceed cursors := by
  obtain ⟨logs, heq, hgrow⟩ := s.proceed_eq
  rw [heq]
  exact h.later ⟨hgrow, rfl, List.prefix_rfl⟩ rfl rfl h.reads

/-- A read that starts where the cursor says misses nothing that is in the window. -/
theorem noteRead (h : Sound s cursors) (name : String) {start : Int} (hstart : start ∈ s.starts) :
    Sound (s.noteRead name (cursors.startFor name start)) cursors := by
  refine h.later ⟨fun _ => List.prefix_rfl, rfl, List.prefix_rfl⟩ rfl rfl fun r hr => ?_
  rcases List.mem_append.mp hr with hr | hr
  · exact h.reads r hr
  · obtain rfl := List.mem_singleton.mp hr
    intro i e he hwindow
    by_cases hlt : e.time < cursors.startFor name start
    · rcases h.done_of_lt_startFor hstart he hlt with hprocessed | ⟨a, ha, hold⟩
      · exact .inl hprocessed
      · have hle := h.latest a ha
        have hin : s.start ≤ e.time := hwindow
        omega
    · exact .inr (Int.not_lt.mp hlt)

theorem answerRead (h : Sound s cursors) (name : String) (since : Int) (limit : Nat) (failure? : Option Failure) :
    Sound (s.answerRead name since limit failure?).2 cursors := by
  cases failure? with
  | none => exact h.later ⟨fun _ => List.prefix_rfl, rfl, List.prefix_rfl⟩ rfl rfl h.reads
  | some e => exact h

end Sound

/-! ### Calls -/

/-- A call has left what was processed and the windows as they were, and the service sound. -/
structure Asked (cursors : Cursors) (s t : Service) : Prop where
  sound : Sound t cursors
  starts : t.starts = s.starts
  processed : t.processed = s.processed

theorem Asked.proceed (h : Asked cursors s t) : Asked cursors s t.proceed where
  sound := h.sound.proceed
  starts := t.proceed_extends.starts.trans h.starts
  processed := t.proceed_processed.trans h.processed

theorem ensures_streams (h : Sound s cursors) (rule : RetryRule) (group : String) (limit : Nat) :
    Ensures surroundings (retry rule (.streams group limit)) s
      (Answered (fun _ => Asked cursors s) (Asked cursors s)) := by
  refine retry_ensures rule (fun t ht => ?_) (fun t ht => ht.proceed) ⟨h, rfl, rfl⟩
  show Answered (c := .streams group limit) _ _ (t.plan 0).listing t.proceed
  cases (t.plan 0).listing with
  | ok streams => exact ht.proceed
  | error e => exact ht.proceed

/-- The entries that a read is answered with are the first of the log stream from its start on. -/
structure Found (cursors : Cursors) (s : Service) (name : String) (since : Int) (limit : Nat) (batch : List Entry)
    (t : Service) : Prop extends Asked cursors s t where
  entries : batch = (t.find name since limit).map fun f => f.1.entry name
  places : t.batch = (t.find name since limit).map fun f => (name, f.2)

theorem ensures_entries (h : Sound s cursors) (rule : RetryRule) (group name : String) {start : Int}
    (hstart : start ∈ s.starts) (limit : Nat) :
    Ensures surroundings (retry rule (.entries group name (cursors.startFor name start) limit)) s
      (Answered (Found cursors s name (cursors.startFor name start) limit) (Asked cursors s)) := by
  refine retry_ensures rule (fun t ht => ?_) (fun t ht => ht.proceed) ⟨h, rfl, rfl⟩
  have hafter := ht.proceed
  have hread := (hafter.sound.noteRead name (hafter.starts ▸ hstart)).answerRead name
    (cursors.startFor name start) limit
    (t.plan 0).failure?
  show Answered (c := .entries group name (cursors.startFor name start) limit) _ _
    (answerRead _ _ _ _ (t.plan 0).failure?).1 (answerRead _ _ _ _ (t.plan 0).failure?).2
  cases hfailure : (t.plan 0).failure? with
  | none =>
    rw [hfailure] at hread
    exact ⟨⟨hread, hafter.starts, hafter.processed⟩, rfl, rfl⟩
  | some e => exact ⟨hfailure ▸ hread, hafter.starts, hafter.processed⟩

/-! ### Handing over -/

/-- What is handed over are the messages of entries at known places. -/
theorem Sound.hand (h : Sound s cursors) {name : String} {found : List (Stored × Nat)} {messages : List String}
    (hfound : ∀ f ∈ found, s.stored? (name, f.2) = some f.1)
    (hplaces : s.batch.take messages.length = found.map fun f => (name, f.2))
    (hmessages : messages = found.map (·.1.message)) : Sound (s.hand messages).2 cursors := by
  have hext := s.hand_extends messages
  refine ⟨fun c hc => (h.covers c hc).later hext, ?_, ?_, ?_⟩
  · rw [start, hext.starts]
    exact h.latest
  · show (s.handed ++ messages).map some =
      (s.processed ++ s.batch.take messages.length).map fun p => ((s.hand messages).2.stored? p).map (·.message)
    rw [List.map_append, List.map_append, h.handed_later hext, hplaces, hmessages, List.map_map, List.map_map]
    refine congrArg _ (List.map_congr_left fun f hf => ?_)
    have hplace := hext.stored? (hfound f hf)
    rw [hmessages] at hplace
    simp [hplace]
  · obtain ⟨logs, heq, -⟩ := s.proceed_eq
    unfold Service.hand
    rw [heq]
    exact h.reads

/-- The first `n` entries of an answer are handed over. -/
theorem Found.hand {name : String} {since : Int} {limit : Nat} {batch : List Entry}
    (h : Found cursors s name since limit batch t) {n : Nat} (hn : n ≤ batch.length) :
    Sound (t.hand ((batch.take n).map (·.message))).2 cursors ∧
      (t.hand ((batch.take n).map (·.message))).2.processed =
        t.processed ++ ((t.find name since limit).take n).map fun f => (name, f.2) := by
  have hfound : ∀ f ∈ (t.find name since limit).take n, t.stored? (name, f.2) = some f.1 := fun f hf =>
    (Log.mem_since.mp (List.mem_of_mem_take (List.mem_of_mem_take hf))).1
  have hmessages : (batch.take n).map (·.message) = ((t.find name since limit).take n).map (·.1.message) := by
    rw [h.entries, ← List.map_take, List.map_map]
    rfl
  have hplaces : t.batch.take ((batch.take n).map (·.message)).length =
      ((t.find name since limit).take n).map fun f => (name, f.2) := by
    rw [h.places, List.length_map, List.length_take_of_le hn, List.map_take]
  refine ⟨h.sound.hand hfound hplaces hmessages, ?_⟩
  rw [← hplaces]
  rfl

/-- When the first entries from a time on were looked at and what is older is done with, a cursor may
stand at any of them. -/
theorem covers_of_taken (hext : Extends s t) {name : String} {since : Int} {n : Nat}
    (hdone : ∀ i e, s.stored? (name, i) = some e → e.time < since → s.Done (name, i) e)
    (hprocessed : ∀ f ∈ ((s.logs name).since since).take n, (name, f.2) ∈ t.processed)
    {f : Stored × Nat} (hf : f ∈ ((s.logs name).since since).take n) : t.Covers name f.1.time := by
  have hstored : f.1 ∈ (s.logs name).stored :=
    List.mem_of_getElem? (Log.mem_since.mp (List.mem_of_mem_take hf)).1
  refine ⟨⟨f.1, (hext.logs name).subset hstored, rfl⟩, fun i e he hlt => ?_⟩
  have hbefore : s.stored? (name, i) = some e := hext.stored?_of_time_lt he hstored hlt
  by_cases hold : e.time < since
  · exact (hdone i e hbefore hold).later hext
  · -- It stands before the entry in what was found, so it was looked at with it.
    have hfound : (e, i) ∈ (s.logs name).since since := Log.mem_since.mpr ⟨hbefore, Int.not_lt.mp hold⟩
    exact .inl (hprocessed _ (mem_take_of_not_rel ((s.logs name).sorted_since since) hf hfound (Int.not_le.mpr hlt)))

/-- A cursor never moves back, so it comes to stand where it is covered. -/
theorem Sound.advance (h : Sound s cursors) {name : String} {time : Int} (hcovers : s.Covers name time) :
    Sound s (cursors.advance name time) := by
  refine { h with covers := fun c hc => ?_ }
  rcases Cursors.advance_cases hc with rfl | hc
  · exact hcovers
  · exact h.covers c hc

end Service

end AdmissionWatch.LogGroup
