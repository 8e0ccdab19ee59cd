import AdmissionWatch.Proofs.LogGroup.Newest
import AdmissionWatch.Proofs.LogGroup.NoLoss
import AdmissionWatch.Settings.Resolved

/-!
# When a read finds something new

A read starts at the cursor, with the entries of that very time, and those that were looked at come
first. So a read that is looked at as a whole finds something new exactly when it asks for more entries
than it repeats (`read_finds_new_iff`). A batch that is filled by entries of one time holds the cursor
up: with a batch of one entry every log stream does (`single_entry_batch_stalls`).
-/

namespace AdmissionWatch.LogGroup

open Time Session

theorem Log.since_positions (l : Log) (time : Int) : (l.since time).Pairwise fun a b => a.2 < b.2 := by
  refine List.Pairwise.filter _ ?_
  have hsorted := List.pairwise_lt_range' (s := 0) (n := l.stored.length)
  rw [← List.zipIdx_map_snd 0 l.stored, List.pairwise_map] at hsorted
  exact hsorted

/-- A batch that leaves the budget unspent is looked at as a whole. -/
theorem Budget.take_of_unspent {b : Budget} {batch : List Entry} (h : (b.take batch).2.isSpent = false) :
    (b.take batch).1 = batch ∧ b.isSpent = false := by
  induction batch generalizing b with
  | nil => exact ⟨rfl, h⟩
  | cons e rest ih =>
    unfold take at h ⊢
    dsimp only at h ⊢
    split at h
    · cases h
    · rename_i hfits
      obtain ⟨hrest, hbefore⟩ := ih h
      rw [if_neg hfits]
      exact ⟨congrArg (e :: ·) hrest, hbefore⟩

/-! ### Nothing is passed over -/

namespace Service

/-- Before an entry that was looked at, everything in its log stream is done with. -/
def Gapless (s : Service) : Prop :=
  ∀ name i, (name, i) ∈ s.processed → ∀ j e, j < i → s.stored? (name, j) = some e → s.Done (name, j) e

/-- How many entries a read from a time on repeats: those of that very time that were looked at. -/
def repeats (s : Service) (name : String) (since : Int) : Nat :=
  (s.logs name).stored.zipIdx.countP fun f => decide (f.1.time = since ∧ (name, f.2) ∈ s.processed)

variable {s t : Service} {cursors : Cursors}

theorem Gapless.later (h : s.Gapless) (hprocessed : t.processed = s.processed)
    (hstored : ∀ p ∈ s.processed, ∃ e, s.stored? p = some e) (hext : Extends s t) : t.Gapless := by
  intro name i hi j e hlt he
  rw [hprocessed] at hi
  obtain ⟨a, ha⟩ := hstored _ hi
  exact (h name i hi j e hlt (hext.stored?_of_lt ha hlt he)).later hext

theorem Gapless.look (h : s.Gapless) (hext : Extends s t) {name : String} {since : Int} {n : Nat}
    (hstored : ∀ p ∈ s.processed, ∃ e, s.stored? p = some e)
    (hdone : ∀ i e, s.stored? (name, i) = some e → e.time < since → s.Done (name, i) e)
    (hprocessed : t.processed = s.processed ++ (((s.logs name).since since).take n).map fun f => (name, f.2)) :
    t.Gapless := by
  intro name' i hi j e hlt he
  rw [hprocessed] at hi
  rcases List.mem_append.mp hi with hi | hi
  · obtain ⟨a, ha⟩ := hstored _ hi
    exact (h name' i hi j e hlt (hext.stored?_of_lt ha hlt he)).later hext
  · obtain ⟨f, hf, heq⟩ := List.mem_map.mp hi
    obtain ⟨rfl, rfl⟩ := Prod.mk.inj heq
    have hbefore : s.stored? (name, j) = some e :=
      hext.stored?_of_lt (Log.mem_since.mp (List.mem_of_mem_take hf)).1 hlt he
    by_cases hold : e.time < since
    · exact (hdone j e hbefore hold).later hext
    · -- It stands before an entry at the head of what was found.
      have hfound : (e, j) ∈ (s.logs name).since since := Log.mem_since.mpr ⟨hbefore, Int.not_lt.mp hold⟩
      have hhead := mem_take_of_not_rel ((s.logs name).since_positions since) hf hfound (Nat.lt_asymm hlt)
      refine .inl ?_
      rw [hprocessed]
      exact List.mem_append_right _ (List.mem_map_of_mem (f := fun f => (name, f.2)) hhead)

end Service

/-! ### What every poll keeps -/

/-- The cursors cover their log streams and stand at the newest of what was looked at, and nothing was
passed over. -/
structure Service.Steady (s : Service) (cursors : Cursors) : Prop where
  sound : s.Sound cursors
  newest : s.Newest id cursors
  gapless : s.Gapless

namespace Service.Steady
variable {s t : Service} {cursors : Cursors}

theorem later (h : s.Steady cursors) (hext : Extends s t) (hasked : Asked cursors s t) : t.Steady cursors where
  sound := hasked.sound
  newest := h.newest.later hext hasked.processed
  gapless := h.gapless.later hasked.processed (fun _ => h.sound.stored_of_processed) hext

theorem begin (h : s.Steady cursors) {start : Int} (hclock : ∀ a ∈ s.starts, a ≤ start) :
    Steady { s with starts := start :: s.starts } (cursors.prune start) where
  sound := (h.sound.begin hclock).subset List.filter_sublist.subset
  newest := h.newest.begin start
  gapless name i hi j e hlt he := by
    rcases h.gapless name i hi j e hlt he with hprocessed | ⟨a, ha, hold⟩
    · exact .inl hprocessed
    · exact .inr ⟨a, List.mem_cons_of_mem _ ha, hold⟩

/-- What was looked at before stands at the head of what a read finds. -/
theorem old_first (h : s.Steady cursors) {name : String} {since : Int} (hsince : ∀ a ∈ s.starts, a ≤ since) :
    ((s.logs name).since since).Pairwise fun a b =>
      decide ((name, b.2) ∈ s.processed) = true → decide ((name, a.2) ∈ s.processed) = true := by
  refine ((s.logs name).since_positions since).imp_of_mem fun {a b} ha _ hlt hb => ?_
  obtain ⟨hstored, hle⟩ := Log.mem_since.mp ha
  rcases h.gapless name b.2 (of_decide_eq_true hb) a.2 a.1 hlt hstored with hprocessed | ⟨start, hstart, hold⟩
  · exact decide_eq_true hprocessed
  · have hbefore := hsince start hstart
    omega

/-- What a read finds and was looked at before has the time at which the read starts. -/
theorem countP_old (h : s.Steady cursors) (name : String) {start : Int} (hlatest : ∀ a ∈ s.starts, a ≤ start) :
    ((s.logs name).since (cursors.startFor name start)).countP (fun f => decide ((name, f.2) ∈ s.processed)) =
      s.repeats name (cursors.startFor name start) := by
  unfold Log.since Service.repeats
  rw [List.countP_filter]
  refine List.countP_congr fun f hf => ?_
  simp only [Bool.and_eq_true, decide_eq_true_eq]
  refine ⟨fun ⟨hprocessed, hle⟩ => ⟨?_, hprocessed⟩,
    fun ⟨heq, hprocessed⟩ => ⟨hprocessed, heq ▸ Int.le_refl _⟩⟩
  have hstored : s.stored? (name, f.2) = some f.1 := List.mem_zipIdx_iff_getElem?.mp hf
  exact Int.le_antisymm (h.newest.time_le_startFor hlatest hprocessed hstored) hle

end Service.Steady

namespace Poll
variable {s t : Service}

/-- A look hands over the messages that fit and moves the cursor of the log to the newest entry of them. -/
theorem run_look {σ : Type} (w : Surroundings σ) (p : Poll) (name : String) (batch : List Entry) (world : σ) :
    (p.look name batch).run w world =
      (⟨((newest? (p.budget.take batch).1).map (p.cursors.advance name)).getD p.cursors, (p.budget.take batch).2,
          p.tally + (w.hand ((p.budget.take batch).1.map (·.message)) world).1⟩,
        (w.hand ((p.budget.take batch).1.map (·.message)) world).2) := rfl

theorem look_keeps (p : Poll) {name : String} {start : Int} (hstart : start ∈ s.starts) {limit : Nat}
    {batch : List Entry} (hsteady : t.Steady p.cursors)
    (h : Service.Found p.cursors s name (p.cursors.startFor name start) limit batch t) :
    Ensures Service.surroundings (p.look name batch) t fun p' u => u.Steady p'.cursors := by
  obtain ⟨n, hn, htaken⟩ := p.budget.exists_take batch
  have hsound := (p.ensures_look hstart h).sound
  have hext := t.hand_extends ((batch.take n).map (·.message))
  obtain ⟨-, hprocessed⟩ := h.hand hn
  have hstored : ∀ f ∈ t.find name (p.cursors.startFor name start) limit, t.stored? (name, f.2) = some f.1 :=
    fun f hf => (Log.mem_since.mp (List.mem_of_mem_take hf)).1
  unfold Ensures at hsound ⊢
  rw [run_look, htaken] at hsound ⊢
  refine ⟨hsound, ?_, ?_⟩
  · let taken : List Located := ((t.find name (p.cursors.startFor name start) limit).take n).map fun f =>
      (f.1, (name, f.2))
    have hnewest : newest? (batch.take n) = (taken.map (·.1.time)).max? := by
      rw [← newest?_located, h.entries, ← List.map_take, List.map_map]
      rfl
    dsimp only
    rw [hnewest]
    refine hsteady.newest.look hext (fun f hf => ?_) (fun f hf => ?_) (hprocessed.trans ?_)
    · obtain ⟨g, hg, rfl⟩ := List.mem_map.mp hf
      exact hstored g (List.mem_of_mem_take hg)
    · obtain ⟨g, hg, rfl⟩ := List.mem_map.mp hf
      rfl
    · rw [List.map_map]
      rfl
  · have hdone : ∀ i e, t.stored? (name, i) = some e → e.time < p.cursors.startFor name start →
        t.Done (name, i) e :=
      fun i e he hlt => hsteady.sound.done_of_lt_startFor (h.starts ▸ hstart) he hlt
    refine hsteady.gapless.look hext (fun _ => hsteady.sound.stored_of_processed) hdone (n := min n limit) ?_
    rw [← List.take_take]
    exact hprocessed

theorem readStream_keeps (p : Poll) (settings : Settings) {start : Int} (hstart : start ∈ s.starts) (stream : Stream)
    (h : s.Steady p.cursors) : Ensures Service.surroundings (p.readStream settings start stream) s fun p' t =>
      t.Steady p'.cursors := by
  unfold readStream
  split
  · exact Ensures.pure h
  · have hanswer := Service.ensures_entries h.sound .entries settings.group stream.name hstart settings.batchSize
    refine (hanswer.and (Service.run_extends _ s)).bind fun reply t ⟨ht, hext⟩ => ?_
    cases reply with
    | error e => exact Ensures.pure (h.later hext ht)
    | ok batch => exact p.look_keeps hstart (h.later hext ht.toAsked) ht

theorem readStreams_keeps (p : Poll) (settings : Settings) {start : Int} (hstart : start ∈ s.starts)
    (streams : List Stream) (h : s.Steady p.cursors) :
    Ensures Service.surroundings (p.readStreams settings start streams) s fun p' t =>
      t.Steady p'.cursors := by
  induction streams generalizing p s with
  | nil => exact Ensures.pure h
  | cons stream rest ih =>
    have hfirst := (p.readStream_keeps settings hstart stream h).and (Service.run_extends _ s)
    refine hfirst.bind fun p' t ⟨ht, hext⟩ => ?_
    exact ih p' (hext.starts ▸ hstart) ht

/-- Log streams are read one after the other. -/
theorem run_readStreams_append {σ : Type} (w : Surroundings σ) (settings : Settings) (start : Int)
    (before after : List Stream) (p : Poll) (world : σ) :
    (p.readStreams settings start (before ++ after)).run w world =
      (((p.readStreams settings start before).run w world).1.readStreams settings start after).run w
        ((p.readStreams settings start before).run w world).2 := by
  induction before generalizing p world with
  | nil => rfl
  | cons stream rest ih =>
    rw [List.cons_append, readStreams, run_bind, ih, readStreams, run_bind]

end Poll

/-! ### Where polls are -/

namespace Polling

/-- How the log streams are listed when a poll begins. -/
def listing (g : Polling) (p : Settings × Instant) : Except Failure (List Stream) × Service :=
  (retry .streams (.streams p.1.group streamLimit)).run Service.surroundings (g.begin p.2)

/-- How far a poll has come when it has been through these log streams. -/
def through (g : Polling) (p : Settings × Instant) (streams : List Stream) : Poll × Service :=
  (Poll.readStreams p.1 (windowStart p.2)
    { cursors := g.cursors.prune (windowStart p.2), budget := { limit := p.1.maxBytes } }
    streams).run Service.surroundings (g.listing p).2

/-- Where the next read of a log stream starts after these. -/
def since (g : Polling) (p : Settings × Instant) (before : List Stream) (name : String) : Int :=
  (g.through p before).1.cursors.startFor name (windowStart p.2)

/-- What a log stream is answered with when it is read after these. -/
def answer (g : Polling) (p : Settings × Instant) (before : List Stream) (name : String) :
    Except Failure (List Entry) × Service :=
  (retry .entries (.entries p.1.group name (g.since p before name) p.1.batchSize)).run Service.surroundings
    (g.through p before).2

/-- A poll reads a log stream: it is listed, after some and before others, and recent, the read is
answered, and afterwards the budget is not spent. -/
structure Reading (g : Polling) (p : Settings × Instant) (before : List Stream) (stream : Stream)
    (after : List Stream) : Prop where
  listed : (g.listing p).1 = .ok (before ++ stream :: after)
  isRecent : Poll.isRecent (windowStart p.2) stream = true
  answered : ∃ batch, (g.answer p before stream.name).1 = .ok batch
  unspent : (g.through p (before ++ [stream])).1.budget.isSpent = false

variable {g : Polling}

theorem run_poll (g : Polling) (p : Settings × Instant) (hmode : p.1.pattern.filter (· ≠ "") = none) :
    (LogGroup.poll p.1 p.2 g.cursors).run Service.surroundings (g.begin p.2) =
      match (g.listing p).1 with
      | .ok streams => ((.ok (g.through p streams).1.tally, (g.through p streams).1.cursors), (g.through p streams).2)
      | .error e => ((.error e, g.cursors.prune (windowStart p.2)), (g.listing p).2) := by
  unfold LogGroup.poll Poll.readGroup
  dsimp only
  rw [hmode, run_bind, run_bind]
  have hlisting : (retry .streams (.streams p.1.group streamLimit)).run Service.surroundings (g.begin p.2) =
      g.listing p := rfl
  rw [hlisting]
  cases (g.listing p).1 with
  | error e => rfl
  | ok streams =>
    dsimp only
    rw [run_bind]
    rfl

/-- A poll goes on from where it is after some log streams. -/
theorem through_append (g : Polling) (p : Settings × Instant) (before after : List Stream) :
    g.through p (before ++ after) =
      ((g.through p before).1.readStreams p.1 (windowStart p.2) after).run Service.surroundings
        (g.through p before).2 :=
  Poll.run_readStreams_append _ _ _ _ _ _ _

theorem through_extends (g : Polling) (p : Settings × Instant) (before after : List Stream) :
    Service.Extends (g.through p before).2 (g.through p (before ++ after)).2 := by
  rw [through_append]
  exact Service.run_extends _ _

theorem begin_extends (g : Polling) (p : Settings × Instant) (streams : List Stream) :
    Service.Extends (g.begin p.2) (g.through p streams).2 :=
  (Service.run_extends _ _).trans (Service.run_extends _ _)

theorem listing_keeps (h : g.service.Steady g.cursors) (p : Settings × Instant)
    (hclock : ∀ start ∈ g.service.starts, start ≤ windowStart p.2) :
    (g.listing p).2.Steady (g.cursors.prune (windowStart p.2)) := by
  have hbegin : (g.begin p.2).Steady (g.cursors.prune (windowStart p.2)) := h.begin hclock
  have hanswer := Service.ensures_streams hbegin.sound .streams p.1.group streamLimit
  exact hbegin.later (Service.run_extends _ _) hanswer.always

theorem through_keeps (h : g.service.Steady g.cursors) (p : Settings × Instant)
    (hclock : ∀ start ∈ g.service.starts, start ≤ windowStart p.2) (streams : List Stream) :
    (g.through p streams).2.Steady (g.through p streams).1.cursors := by
  have hext : Service.Extends (g.begin p.2) (g.listing p).2 := Service.run_extends _ _
  have hstart : windowStart p.2 ∈ (g.listing p).2.starts := hext.starts ▸ List.mem_cons_self
  exact Poll.readStreams_keeps _ p.1 hstart streams (g.listing_keeps h p hclock)

theorem poll_keeps (h : g.service.Steady g.cursors) (p : Settings × Instant)
    (hmode : p.1.pattern.filter (· ≠ "") = none)
    (hclock : ∀ start ∈ g.service.starts, start ≤ windowStart p.2) :
    (g.poll p).service.Steady (g.poll p).cursors := by
  unfold Polling.poll
  dsimp only
  rw [g.run_poll p hmode]
  cases (g.listing p).1 with
  | error e => exact g.listing_keeps h p hclock
  | ok streams => exact g.through_keeps h p hclock streams

/-- What holds when a poll begins that follows others at dates that do not go back. -/
theorem run_steady (logs : String → Log) (plan : Nat → Happening) (intake : Intake)
    {polls : List (Settings × Instant)} {p : Settings × Instant}
    (hmode : ∀ q ∈ polls, q.1.pattern.filter (· ≠ "") = none)
    (hclock : ((polls ++ [p]).map fun q => q.2.millis).Pairwise (· ≤ ·)) :
    let g := ({ service := { logs, plan, intake } } : Polling).run polls
    g.service.Steady g.cursors ∧ ∀ start ∈ g.service.starts, start ≤ windowStart p.2 := by
  have hcreate : Service.Steady { logs, plan, intake } [] :=
    ⟨.create logs plan intake, .create id logs plan intake, fun _ _ hi => by cases hi⟩
  exact run_keeps_until (g := { service := { logs, plan, intake } }) poll_starts
    (fun g q hq hbefore hg => g.poll_keeps hg q (hmode q hq) hbefore) hcreate rfl hclock

/-- A read that is answered and leaves the budget unspent goes on with a look at the answer. -/
theorem through_read {p : Settings × Instant} {before after : List Stream} {stream : Stream}
    (hread : g.Reading p before stream after) {batch : List Entry}
    (hbatch : (g.answer p before stream.name).1 = .ok batch) : g.through p (before ++ [stream]) =
      ((g.through p before).1.look stream.name batch).run Service.surroundings (g.answer p before stream.name).2 := by
  have hthrough : g.through p (before ++ [stream]) =
      ((g.through p before).1.readStream p.1 (windowStart p.2) stream).run Service.surroundings
        (g.through p before).2 := by
    rw [through_append, Poll.readStreams, run_bind]
    rfl
  have hunspent := hread.unspent
  rw [hthrough] at hunspent ⊢
  unfold Poll.readStream at hunspent ⊢
  split at hunspent
  · -- A read that is left out because the budget is spent leaves it spent.
    rename_i hskip
    rw [hread.isRecent, Bool.not_true, Bool.false_or] at hskip
    exact absurd (hskip.symm.trans hunspent) (by decide)
  · rename_i hgoes
    rw [if_neg hgoes, run_bind]
    have hanswer : (retry .entries (.entries p.1.group stream.name
        ((g.through p before).1.cursors.startFor stream.name (windowStart p.2)) p.1.batchSize)).run Service.surroundings
          (g.through p before).2 = g.answer p before stream.name := rfl
    rw [hanswer, hbatch]

/-- No window is later than that of the poll. -/
theorem through_latest (p : Settings × Instant) (hclock : ∀ start ∈ g.service.starts, start ≤ windowStart p.2)
    (streams : List Stream) : ∀ a ∈ (g.through p streams).2.starts, a ≤ windowStart p.2 := by
  rw [(g.begin_extends p streams).starts]
  exact List.forall_mem_cons.mpr ⟨Int.le_refl _, hclock⟩

/-- What a read is answered with are the first entries from its start on. -/
theorem answer_found (h : g.service.Steady g.cursors) {p : Settings × Instant}
    (hclock : ∀ start ∈ g.service.starts, start ≤ windowStart p.2) {before : List Stream} {name : String}
    {batch : List Entry} (hbatch : (g.answer p before name).1 = .ok batch) :
    Service.Found (g.through p before).1.cursors (g.through p before).2 name (g.since p before name) p.1.batchSize batch
      (g.answer p before name).2 := by
  have hsteady := g.through_keeps h p hclock before
  have hstart : windowStart p.2 ∈ (g.through p before).2.starts :=
    (g.begin_extends p before).starts ▸ List.mem_cons_self
  have hanswer := Service.ensures_entries hsteady.sound .entries p.1.group name hstart p.1.batchSize
  change Answered (c := .entries p.1.group name (g.since p before name) p.1.batchSize) _ _ (g.answer p before name).1
    (g.answer p before name).2 at hanswer
  rw [hbatch] at hanswer
  exact hanswer

/-- All that a read finds is looked at. -/
theorem read_processed (h : g.service.Steady g.cursors) {p : Settings × Instant}
    (hclock : ∀ start ∈ g.service.starts, start ≤ windowStart p.2) {before after : List Stream} {stream : Stream}
    (hread : g.Reading p before stream after) :
    (g.through p (before ++ [stream])).2.processed = (g.through p before).2.processed ++
      ((g.answer p before stream.name).2.find stream.name (g.since p before stream.name) p.1.batchSize).map
        fun f => (stream.name, f.2) := by
  obtain ⟨batch, hbatch⟩ := hread.answered
  have hfound := g.answer_found h hclock hbatch
  have hnext := g.through_read hread hbatch
  have hunspent := hread.unspent
  rw [hnext, Poll.run_look] at hunspent
  have hwhole := (Budget.take_of_unspent hunspent).1
  have hhand := (hfound.hand (Nat.le_refl batch.length)).2
  have hlength :
      ((g.answer p before stream.name).2.find stream.name (g.since p before stream.name) p.1.batchSize).length ≤
      batch.length :=
    Nat.le_of_eq (by rw [hfound.entries, List.length_map])
  rw [List.take_length, hfound.processed, List.take_of_length_le hlength] at hhand
  rw [hnext, Poll.run_look, hwhole]
  exact hhand

/-- A read of a log stream that holds something new in the window finds something new exactly when it
asks for more than it repeats. -/
theorem new_iff_repeats_lt (h : g.service.Steady g.cursors) {p : Settings × Instant}
    (hclock : ∀ start ∈ g.service.starts, start ≤ windowStart p.2) {before after : List Stream} {stream : Stream}
    (hread : g.Reading p before stream after)
    (hpending : ∃ i e, (g.answer p before stream.name).2.stored? (stream.name, i) = some e ∧
      windowStart p.2 ≤ e.time ∧
      (stream.name, i) ∉ (g.answer p before stream.name).2.processed) :
    (∃ i, (stream.name, i) ∈ (g.through p (before ++ [stream])).2.processed ∧
        (stream.name, i) ∉ (g.through p before).2.processed) ↔
      (g.answer p before stream.name).2.repeats stream.name (g.since p before stream.name) < p.1.batchSize := by
  obtain ⟨batch, hbatch⟩ := hread.answered
  have hfound := g.answer_found h hclock hbatch
  have hsteady : (g.answer p before stream.name).2.Steady (g.through p before).1.cursors :=
    (g.through_keeps h p hclock before).later (Service.run_extends _ _) hfound.toAsked
  have hlatest : ∀ a ∈ (g.answer p before stream.name).2.starts, a ≤ windowStart p.2 :=
    hfound.starts ▸ g.through_latest p hclock before
  have hsince : ∀ a ∈ (g.answer p before stream.name).2.starts, a ≤ g.since p before stream.name :=
    fun a ha => Int.le_trans (hlatest a ha) (Cursors.le_startFor _ _ _)
  -- What is new and in the window was not passed over, so the read finds it if it asks for enough.
  have hnew : ∃ f ∈ ((g.answer p before stream.name).2.logs stream.name).since (g.since p before stream.name),
      decide ((stream.name, f.2) ∈ (g.answer p before stream.name).2.processed) = false := by
    obtain ⟨i, e, he, hwindow, hunprocessed⟩ := hpending
    refine ⟨(e, i), Log.mem_since.mpr ⟨he, Int.not_lt.mp fun hlt => ?_⟩, decide_eq_false hunprocessed⟩
    have hstart : windowStart p.2 ∈ (g.answer p before stream.name).2.starts := by
      rw [hfound.starts, (g.begin_extends p before).starts]
      exact List.mem_cons_self
    rcases hsteady.sound.done_of_lt_startFor hstart he hlt with hprocessed | ⟨a, ha, hold⟩
    · exact hunprocessed hprocessed
    · have hle := hlatest a ha
      omega
  have hiff := exists_new_mem_take_iff (hsteady.old_first hsince) hnew p.1.batchSize
  unfold since at hiff ⊢
  rw [hsteady.countP_old stream.name hlatest] at hiff
  rw [g.read_processed h hclock hread, ← hfound.processed]
  refine Iff.trans ⟨fun ⟨i, hi, hunprocessed⟩ => ?_, fun ⟨f, hf, hunprocessed⟩ => ?_⟩ hiff
  · rcases List.mem_append.mp hi with hi | hi
    · exact absurd hi hunprocessed
    · obtain ⟨f, hf, heq⟩ := List.mem_map.mp hi
      exact ⟨f, hf, decide_eq_false (heq ▸ hunprocessed)⟩
  · exact ⟨f.2, List.mem_append_right _ (List.mem_map_of_mem (f := fun f => (stream.name, f.2)) hf),
      of_decide_eq_false hunprocessed⟩

end Polling

/-- Whatever polls of the log streams went before, at dates that do not go back: when a log stream holds
something in the window that was not looked at, a read of it that is answered and leaves the budget
unspent looks at something new exactly when the batch is larger than the number of entries that it
repeats. Then the poll looks at something that no poll before it has looked at. -/
theorem read_finds_new_iff (logs : String → Log) (plan : Nat → Happening) (intake : Intake)
    (polls : List (Settings × Instant)) (p : Settings × Instant) (before : List Stream) (stream : Stream)
    (after : List Stream) (hmode : ∀ q ∈ polls ++ [p], q.1.pattern.filter (· ≠ "") = none)
    (hclock : ((polls ++ [p]).map fun q => q.2.millis).Pairwise (· ≤ ·)) :
    let g := ({ service := { logs, plan, intake } } : Polling).run polls
    let asked := (g.answer p before stream.name).2
    let since := g.since p before stream.name
    g.Reading p before stream after →
      (∃ i e, asked.stored? (stream.name, i) = some e ∧ windowStart p.2 ≤ e.time ∧
        (stream.name, i) ∉ asked.processed) →
      ((∃ i, (stream.name, i) ∈ (g.through p (before ++ [stream])).2.processed ∧
          (stream.name, i) ∉ (g.through p before).2.processed) ↔
            asked.repeats stream.name since < p.1.batchSize) ∧
        (asked.repeats stream.name since < p.1.batchSize →
          ∃ i, (stream.name, i) ∈ (g.poll p).service.processed ∧ (stream.name, i) ∉ g.service.processed) := by
  intro g asked since hread hpending
  obtain ⟨hsteady, hlatest⟩ :=
    Polling.run_steady logs plan intake (fun q hq => hmode q (List.mem_append_left _ hq)) hclock
  have hiff := Polling.new_iff_repeats_lt hsteady hlatest hread hpending
  refine ⟨hiff, fun hlt => ?_⟩
  obtain ⟨i, hi, hnew⟩ := hiff.mpr hlt
  refine ⟨i, ?_, fun hold => hnew ((g.begin_extends p before).processed.subset hold)⟩
  have hend : (g.poll p).service = (g.through p (before ++ stream :: after)).2 := by
    unfold Polling.poll
    rw [g.run_poll p (hmode p (List.mem_append_right _ List.mem_cons_self)), hread.listed]
  rw [hend, List.append_cons]
  exact (g.through_extends p _ after).processed.subset hi

/-- An answer holds two entries, and the second read repeats one: it looks at one that is new. -/
theorem read_finds_new_iff_cut_batch :
    let log : Log := ⟨[⟨800000, none, "x"⟩, ⟨850000, none, "y"⟩, ⟨900000, none, "z"⟩], by decide⟩
    let stream : Stream := { name := "a", lastIngestion := some 900000 }
    let plan (_ : Nat) : Happening := { listing := .ok [stream], now := ⟨⟨1000, 0⟩, 0⟩ }
    let settings : Settings := { group := "g", region := "r", batchSize := 2 }
    let g := ({ service := { logs := fun _ => log, plan, intake := .create 1 .empty 0 } } : Polling).run
      [(settings, ⟨1000, 0⟩)]
    let p : Settings × Instant := (settings, ⟨1030, 0⟩)
    g.service.processed = [("a", 0), ("a", 1)] ∧ g.Reading p [] stream [] ∧
      (g.answer p [] "a").2.repeats "a" (g.since p [] "a") = 1 ∧
      ∃ i, ("a", i) ∈ (g.poll p).service.processed ∧ ("a", i) ∉ g.service.processed := by
  intro log stream plan settings g p
  have hread : g.Reading p [] stream [] :=
    ⟨toOption_eq_some_iff.mp (by decide +kernel), by decide +kernel,
      ⟨[⟨some 850000, none, some "a", "y"⟩, ⟨some 900000, none, some "a", "z"⟩],
        toOption_eq_some_iff.mp (by decide +kernel)⟩, by decide +kernel⟩
  have hrepeats : (g.answer p [] "a").2.repeats "a" (g.since p [] "a") = 1 := by decide +kernel
  have hpending : ∃ i e, (g.answer p [] "a").2.stored? ("a", i) = some e ∧ windowStart p.2 ≤ e.time ∧
      ("a", i) ∉ (g.answer p [] "a").2.processed :=
    ⟨2, ⟨900000, none, "z"⟩, by decide +kernel, by decide, by decide +kernel⟩
  refine ⟨by decide +kernel, hread, hrepeats, ?_⟩
  exact (read_finds_new_iff (fun _ => log) plan (.create 1 .empty 0) [(settings, ⟨1000, 0⟩)] p [] stream []
    (by decide) (by decide) hread hpending).2 (hrepeats ▸ (by decide))

/-- A batch of one entry makes sense to the settings, but a poll with it only repeats what it looked at
before: the next entry of the log stream, at a later time and in the window, is not looked at. -/
theorem single_entry_batch_stalls :
    let log : Log := ⟨[⟨800000, none, "x"⟩, ⟨850000, none, "y"⟩], by decide⟩
    let stream : Stream := { name := "a", lastIngestion := some 900000 }
    let plan (_ : Nat) : Happening := { listing := .ok [stream], now := ⟨⟨1000, 0⟩, 0⟩ }
    let settings : Settings := { group := "g", region := "r", batchSize := 1 }
    let g := ({ service := { logs := fun _ => log, plan, intake := .create 1 .empty 0 } } : Polling).run
      [(settings, ⟨1000, 0⟩)]
    let p : Settings × Instant := (settings, ⟨1030, 0⟩)
    (∀ f ∈ AdmissionWatch.Settings.logGroupFaults settings, f.1 = false) ∧ g.Reading p [] stream [] ∧
      ((g.answer p [] "a").2.stored? ("a", 1) = some ⟨850000, none, "y"⟩ ∧ windowStart p.2 ≤ 850000 ∧
        ("a", 1) ∉ (g.answer p [] "a").2.processed) ∧
      ¬ ∃ i, ("a", i) ∈ (g.poll p).service.processed ∧ ("a", i) ∉ g.service.processed := by
  intro log stream plan settings g p
  have hread : g.Reading p [] stream [] :=
    ⟨toOption_eq_some_iff.mp (by decide +kernel), by decide +kernel,
      ⟨[⟨some 800000, none, some "a", "x"⟩], toOption_eq_some_iff.mp (by decide +kernel)⟩, by decide +kernel⟩
  have hbefore : g.service.processed = [("a", 0)] := by decide +kernel
  have hafter : (g.poll p).service.processed = [("a", 0), ("a", 0)] := by decide +kernel
  refine ⟨by decide, hread, ⟨by decide +kernel, by decide, by decide +kernel⟩, ?_⟩
  rintro ⟨i, hi, hnew⟩
  rw [hafter] at hi
  rw [hbefore] at hnew
  simp_all

end AdmissionWatch.LogGroup
