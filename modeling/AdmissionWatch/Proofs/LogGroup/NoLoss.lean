import AdmissionWatch.Proofs.LogGroup.Cover

/-!
# Polls lose no entry

Wherever the budget or the limit of a batch cuts an answer, wherever a call fails and wherever a poll
is cut off, what a poll looks at of each answer is a prefix of it. So the cursors that it leaves cover
their log streams (`ensures_poll`), and what it counts as records is what it has looked at; with that
no poll of a run loses an entry (`polls_lose_nothing`).
-/

namespace AdmissionWatch.LogGroup

open Time Session

/-! ### What is looked at -/

theorem Budget.take_prefix (b : Budget) (batch : List Entry) : (b.take batch).1 <+: batch := by
  induction batch generalizing b with
  | nil => exact List.prefix_rfl
  | cons e rest ih =>
    unfold take
    dsimp only
    split
    · exact List.nil_prefix
    · exact List.cons_prefix_cons.mpr ⟨rfl, ih _⟩

theorem Budget.exists_take (b : Budget) (batch : List Entry) :
    ∃ n, n ≤ batch.length ∧ (b.take batch).1 = batch.take n :=
  ⟨_, (b.take_prefix batch).length_le, List.prefix_iff_eq_take.mp (b.take_prefix batch)⟩

theorem submitRecord_records (now : Clock) (source : String) (p : Source.Pass) (r : Audit.Record) :
    (p.submitRecord now source r).tally.records = p.tally.records := by
  unfold Source.Pass.submitRecord
  split
  · split
    · rfl
    · dsimp only
      unfold Source.Tally.count
      split <;> rfl
  · rfl

theorem readMessage_records (now : Clock) (p : Source.Pass) (message : String) :
    (readMessage now p message).tally.records = p.tally.records + 1 := by
  unfold readMessage
  dsimp only
  split
  · exact submitRecord_records now sourceName _ _
  · rfl

/-- Every message that is looked at counts as a record. -/
theorem readMessages_records (now : Clock) (intake : Intake) (messages : List String) :
    (readMessages now intake messages).tally.records = messages.length := by
  have hfold : ∀ p : Source.Pass, (messages.foldl (readMessage now) p).tally.records =
      p.tally.records + messages.length := by
    induction messages with
    | nil => exact fun p => rfl
    | cons message rest ih =>
      intro p
      rw [List.foldl_cons, ih, readMessage_records, List.length_cons]
      omega
  exact (hfold _).trans (Nat.zero_add _)

/-! ### Polls -/

/-- How a poll has come on: what it counts as records is what was processed since. -/
structure Poll.Progress (p : Poll) (s : Service) (p' : Poll) (t : Service) : Prop where
  sound : t.Sound p'.cursors
  starts : t.starts = s.starts
  counted : p'.tally.records + s.processed.length = p.tally.records + t.processed.length

namespace Poll.Progress
variable {p p' p'' : Poll} {s t u : Service}

theorem ofAsked (h : Service.Asked p.cursors s t) : Progress p s p t :=
  ⟨h.sound, h.starts, by rw [h.processed]⟩

theorem trans (h : Progress p s p' t) (h' : Progress p' t p'' u) : Progress p s p'' u where
  sound := h'.sound
  starts := h'.starts.trans h.starts
  counted := by
    have hfirst := h.counted
    have hsecond := h'.counted
    omega

end Poll.Progress

/-! ### What every poll keeps -/

namespace Poll
variable {s t : Service}

/-- Of an answer a prefix is looked at, and the cursor moves to the newest entry in it. -/
theorem ensures_look (p : Poll) {name : String} {start : Int} (hstart : start ∈ s.starts) {limit : Nat}
    {batch : List Entry} (h : Service.Found p.cursors s name (p.cursors.startFor name start) limit batch t) :
    Ensures Service.surroundings (p.look name batch) t (Progress p t) := by
  obtain ⟨n, hn, htaken⟩ := p.budget.exists_take batch
  obtain ⟨hsound, hprocessed⟩ := h.hand hn
  have hext := t.hand_extends ((batch.take n).map (·.message))
  have hcursors : (t.hand ((batch.take n).map (·.message))).2.Sound
      (((newest? (batch.take n)).map (p.cursors.advance name)).getD p.cursors) := by
    cases hnewest : newest? (batch.take n) with
    | none => exact hsound
    | some time =>
      -- The newest entry is among the first from the start of the read on, which were all looked at.
      rw [h.entries, ← List.map_take] at hnewest
      obtain ⟨f, hf, rfl⟩ := newest?_entries hnewest
      refine hsound.advance (Service.covers_of_taken hext
        (fun i e he hlt => h.sound.done_of_lt_startFor (h.starts ▸ hstart) he hlt) (n := min n limit)
          (fun g hg => ?_) ?_)
      · rw [hprocessed, Service.find, List.take_take]
        exact List.mem_append_right _ (List.mem_map_of_mem (f := fun f => (name, f.2)) hg)
      · rw [Service.find, List.take_take] at hf
        exact hf
  have hcounted : ((t.hand ((batch.take n).map (·.message))).1).records = n := by
    show (readMessages _ _ _).tally.records = n
    rw [readMessages_records, List.length_map, List.length_take_of_le hn]
  show Progress p t ⟨((newest? (p.budget.take batch).1).map (p.cursors.advance name)).getD p.cursors, _,
    p.tally + (t.hand ((p.budget.take batch).1.map (·.message))).1⟩
      (t.hand ((p.budget.take batch).1.map (·.message))).2
  rw [htaken]
  refine ⟨hcursors, hext.starts, ?_⟩
  show p.tally.records + (t.hand _).1.records + t.processed.length = _
  rw [hcounted, hprocessed, List.length_append, List.length_map]
  have hlength : ((t.find name (p.cursors.startFor name start) limit).take n).length = n := by
    rw [List.length_take_of_le]
    rw [h.entries, List.length_map] at hn
    exact hn
  omega

theorem ensures_readStream (p : Poll) (settings : Settings) {start : Int} (hstart : start ∈ s.starts)
    (stream : Stream) (h : s.Sound p.cursors) :
    Ensures Service.surroundings (p.readStream settings start stream) s (Progress p s) := by
  have hnothing : Progress p s p s := .ofAsked ⟨h, rfl, rfl⟩
  unfold readStream
  split
  · exact Ensures.pure hnothing
  · have hentries := Service.ensures_entries h .entries settings.group stream.name hstart settings.batchSize
    refine hentries.bind fun reply t ht => ?_
    cases reply with
    | error e => exact Ensures.pure (.ofAsked ht)
    | ok batch =>
      exact (p.ensures_look hstart ht).mono fun p' u hu => (Progress.ofAsked ht.toAsked).trans hu

theorem ensures_readStreams (p : Poll) (settings : Settings) {start : Int} (hstart : start ∈ s.starts)
    (streams : List Stream) (h : s.Sound p.cursors) :
    Ensures Service.surroundings (p.readStreams settings start streams) s (Progress p s) := by
  induction streams generalizing p s with
  | nil => exact Ensures.pure (.ofAsked ⟨h, rfl, rfl⟩)
  | cons stream rest ih =>
    refine (p.ensures_readStream settings hstart stream h).bind fun p' t ht => ?_
    exact (ih p' (ht.starts ▸ hstart) ht.sound).mono fun p'' u hu => ht.trans hu

/-- What a poll of the log streams comes to: how far it has come, or nothing read when they cannot be
listed. -/
theorem ensures_readGroup (p : Poll) (settings : Settings) {start : Int} (hstart : start ∈ s.starts)
    (h : s.Sound p.cursors) : Ensures Service.surroundings (p.readGroup settings start) s fun result t =>
      match result with
      | .ok p' => Progress p s p' t
      | .error _ => Service.Asked p.cursors s t := by
  refine (Service.ensures_streams h .streams settings.group streamLimit).bind fun reply t ht => ?_
  cases reply with
  | error e => exact Ensures.pure ht
  | ok streams =>
    refine (p.ensures_readStreams settings (ht.starts ▸ hstart) streams ht.sound).bind fun p' u hu => ?_
    exact Ensures.pure ((Progress.ofAsked ht).trans hu)

end Poll

/-- How many records a poll has counted; one that fails has looked at none. -/
def countedRecords : Except Failure Source.Tally → Nat
  | .ok tally => tally.records
  | .error _ => 0

/-- A poll of the log streams keeps the record right and the cursors covered, and counts what it has
looked at. -/
theorem ensures_poll {s : Service} {cursors : Cursors} (settings : Settings)
    (hmode : settings.pattern.filter (· ≠ "") = none) {date : Instant} (hstart : windowStart date ∈ s.starts)
    (h : s.Sound cursors) : Ensures Service.surroundings (poll settings date cursors) s fun result t =>
      t.Sound result.2 ∧ t.starts = s.starts ∧ countedRecords result.1 + s.processed.length =
        t.processed.length := by
  have hkept : s.Sound (cursors.prune (windowStart date)) := h.subset List.filter_sublist.subset
  unfold poll
  dsimp only
  rw [hmode]
  let p : Poll := ⟨cursors.prune (windowStart date), { limit := settings.maxBytes }, {}⟩
  refine (p.ensures_readGroup settings hstart hkept).bind fun result t ht => ?_
  cases result with
  | ok p' =>
    refine Ensures.pure ⟨ht.sound, ht.starts, ?_⟩
    exact ht.counted.trans (Nat.zero_add _)
  | error e =>
    refine Ensures.pure ⟨ht.sound, ht.starts, ?_⟩
    rw [ht.processed]
    exact Nat.zero_add _

/-! ### Polls one after the other -/

/-- At dates that do not go back windows do not go back. -/
theorem windows_pairwise {polls : List (Settings × Instant)}
    (hclock : (polls.map fun p => p.2.millis).Pairwise (· ≤ ·)) :
    (polls.map fun p => windowStart p.2).Pairwise (· ≤ ·) := by
  rw [List.pairwise_map] at hclock ⊢
  exact hclock.imp fun hle => Int.sub_le_sub_right hle _

/-- A service that is polled, with the cursors and the number of records so far. -/
structure Polling where
  service : Service
  cursors : Cursors := []
  records : Nat := 0

namespace Polling

/-- The service as a poll begins: the window of the poll is the latest one. -/
def begin (g : Polling) (date : Instant) : Service :=
  { g.service with starts := windowStart date :: g.service.starts }

/-- One poll of the service, from the cursors that the last one left. -/
def poll (g : Polling) (p : Settings × Instant) : Polling :=
  let polled := (LogGroup.poll p.1 p.2 g.cursors).run Service.surroundings (g.begin p.2)
  { service := polled.2, cursors := polled.1.2, records := g.records + countedRecords polled.1.1 }

/-- Polls in turn. -/
def run (g : Polling) (polls : List (Settings × Instant)) : Polling := polls.foldl poll g

/-- What every poll keeps: the service is sound, and every entry that was processed was counted. -/
structure Kept (g : Polling) : Prop where
  sound : g.service.Sound g.cursors
  counted : g.records = g.service.processed.length

variable {g : Polling}

/-- What every poll keeps is kept by a run, when windows only move on; and the windows are those of the
polls. -/
theorem run_keeps {Inv : Polling → Prop} {step : Polling → Settings × Instant → Polling}
    (hstarts : ∀ g p, (step g p).service.starts = windowStart p.2 :: g.service.starts)
    {polls : List (Settings × Instant)}
    (hkeep : ∀ g, ∀ p ∈ polls, (∀ start ∈ g.service.starts, start ≤ windowStart p.2) → Inv g →
      Inv (step g p)) (h : Inv g)
    (hclock : (polls.map fun p => windowStart p.2).Pairwise (· ≤ ·))
    (hafter : ∀ p ∈ polls, ∀ start ∈ g.service.starts, start ≤ windowStart p.2) :
    Inv (polls.foldl step g) ∧
      ∀ start ∈ (polls.foldl step g).service.starts, start ∈ g.service.starts ∨
        ∃ p ∈ polls, start = windowStart p.2 := by
  induction polls generalizing g with
  | nil => exact ⟨h, fun start hstart => .inl hstart⟩
  | cons p rest ih =>
    rw [List.map_cons, List.pairwise_cons] at hclock
    obtain ⟨hfirst, hrest⟩ := hclock
    -- Windows only move on, so no later one starts before those of the polls so far.
    have hlater : ∀ q ∈ rest, ∀ start ∈ (step g p).service.starts, start ≤ windowStart q.2 := by
      intro q hq start hstart
      rw [hstarts] at hstart
      rcases List.mem_cons.mp hstart with rfl | hstart
      · exact hfirst _ (List.mem_map_of_mem (f := fun p => windowStart p.2) hq)
      · exact hafter q (List.mem_cons_of_mem _ hq) start hstart
    obtain ⟨hend, horigin⟩ := ih (fun g q hq => hkeep g q (List.mem_cons_of_mem _ hq))
      (hkeep g p List.mem_cons_self (hafter p List.mem_cons_self) h) hrest hlater
    refine ⟨hend, fun start hstart => ?_⟩
    rcases horigin start hstart with hbefore | ⟨q, hq, rfl⟩
    · rw [hstarts] at hbefore
      rcases List.mem_cons.mp hbefore with rfl | hbefore
      · exact .inr ⟨p, List.mem_cons_self, rfl⟩
      · exact .inl hbefore
    · exact .inr ⟨q, List.mem_cons_of_mem _ hq, rfl⟩

/-- What holds when a poll begins that follows others at dates that do not go back: what every poll
keeps, and its window is the latest. -/
theorem run_keeps_until {Inv : Polling → Prop} {step : Polling → Settings × Instant → Polling}
    (hstarts : ∀ g p, (step g p).service.starts = windowStart p.2 :: g.service.starts)
    {polls : List (Settings × Instant)} {p : Settings × Instant}
    (hkeep : ∀ g, ∀ q ∈ polls, (∀ start ∈ g.service.starts, start ≤ windowStart q.2) → Inv g →
      Inv (step g q)) (h : Inv g)
    (hfresh : g.service.starts = []) (hclock : ((polls ++ [p]).map fun q => q.2.millis).Pairwise (· ≤ ·)) :
    Inv (polls.foldl step g) ∧ ∀ start ∈ (polls.foldl step g).service.starts, start ≤ windowStart p.2 := by
  have hwindows := windows_pairwise hclock
  rw [List.map_append, List.pairwise_append] at hwindows
  obtain ⟨hpolls, -, hlast⟩ := hwindows
  obtain ⟨hend, horigin⟩ := run_keeps hstarts hkeep h hpolls fun q _ start hstart => by
    rw [hfresh] at hstart
    cases hstart
  refine ⟨hend, fun start hstart => ?_⟩
  rcases horigin start hstart with hbefore | ⟨q, hq, rfl⟩
  · rw [hfresh] at hbefore
    cases hbefore
  · exact hlast _ (List.mem_map_of_mem (f := fun q => windowStart q.2) hq) _ List.mem_cons_self

theorem poll_starts (g : Polling) (p : Settings × Instant) :
    (g.poll p).service.starts = windowStart p.2 :: g.service.starts :=
  (Service.run_extends _ (g.begin p.2)).starts

theorem Kept.poll (h : g.Kept) (p : Settings × Instant) (hmode : p.1.pattern.filter (· ≠ "") = none)
    (hclock : ∀ start ∈ g.service.starts, start ≤ windowStart p.2) : (g.poll p).Kept := by
  obtain ⟨hsound, -, hcounted⟩ :=
    ensures_poll p.1 hmode (s := g.begin p.2) List.mem_cons_self (h.sound.begin hclock)
  refine ⟨hsound, ?_⟩
  show g.records + countedRecords _ = _
  rw [h.counted, Nat.add_comm]
  exact hcounted

theorem Kept.run (h : g.Kept) {polls : List (Settings × Instant)}
    (hmode : ∀ p ∈ polls, p.1.pattern.filter (· ≠ "") = none)
    (hclock : (polls.map fun p => windowStart p.2).Pairwise (· ≤ ·))
    (hafter : ∀ p ∈ polls, ∀ start ∈ g.service.starts, start ≤ windowStart p.2) :
    (g.run polls).Kept ∧ ∀ start ∈ (g.run polls).service.starts, start ∈ g.service.starts ∨
      ∃ p ∈ polls, start = windowStart p.2 :=
  run_keeps poll_starts (fun _ p hp hbefore hg => hg.poll p (hmode p hp) hbefore) h hclock hafter

end Polling

/-- Whatever log streams take in and whatever the service answers, refuses or cuts off: after polls of
the log streams at dates that do not go back, every entry that is older than the cursor of its log
stream was looked at and counted, or was too old for the window of some poll; and no read started after
an entry that was in the window and had not been looked at. -/
theorem polls_lose_nothing (logs : String → Log) (plan : Nat → Happening) (intake : Intake)
    (polls : List (Settings × Instant)) (hmode : ∀ p ∈ polls, p.1.pattern.filter (· ≠ "") = none)
    (hclock : (polls.map fun p => p.2.millis).Pairwise (· ≤ ·)) :
    let g := ({ service := { logs, plan, intake } } : Polling).run polls
    (∀ name cursor, g.cursors.position? name = some cursor → ∀ i e, g.service.stored? (name, i) = some e →
      e.time < cursor →
        (name, i) ∈ g.service.processed ∨ ∃ p ∈ polls, e.time < windowStart p.2) ∧
      (g.records = g.service.processed.length ∧
        g.service.handed.map some = g.service.processed.map fun p => (g.service.stored? p).map (·.message)) ∧
      ∀ r ∈ g.service.reads, ∀ i e, r.stored[i]? = some e → r.start ≤ e.time →
        (r.name, i) ∈ r.processed ∨ r.since ≤ e.time := by
  intro g
  obtain ⟨⟨hsound, hcounted⟩, hstarts⟩ := Polling.Kept.run (g := { service := { logs, plan, intake } })
    ⟨.create logs plan intake, rfl⟩ hmode (windows_pairwise hclock) fun _ _ start hstart => by cases hstart
  refine ⟨fun name cursor hcursor i e he hlt => ?_, ⟨hcounted, hsound.handed⟩, hsound.reads⟩
  rcases (hsound.covers _ (Dict.mem_of_get? hcursor)).below i e he hlt with hprocessed | ⟨start, hstart, hold⟩
  · exact .inl hprocessed
  · rcases hstarts start hstart with hbefore | ⟨p, hp, rfl⟩
    · cases hbefore
    · exact .inr ⟨p, hp, hold⟩

/-- An answer holds two entries, and there are three: the second poll reads on from the cursor, and
looks at the entry there once more. -/
theorem polls_lose_nothing_cut_batch :
    let log : Log := ⟨[⟨800000, none, "x"⟩, ⟨850000, none, "y"⟩, ⟨900000, none, "z"⟩], by decide⟩
    let plan (_ : Nat) : Happening :=
      { listing := .ok [{ name := "a", lastIngestion := some 900000 }], now := ⟨⟨1000, 0⟩, 0⟩ }
    let settings : Settings := { group := "g", region := "r", batchSize := 2 }
    let polls : List (Settings × Instant) := [(settings, ⟨1000, 0⟩), (settings, ⟨1030, 0⟩)]
    let g := ({ service := { logs := fun _ => log, plan, intake := .create 1 .empty 0 } } : Polling).run polls
    (∀ p ∈ polls, p.1.pattern.filter (· ≠ "") = none) ∧
      (polls.map fun p => p.2.millis).Pairwise (· ≤ ·) ∧
      g.cursors.position? "a" = some 900000 ∧ g.service.reads.map (·.since) = [700000, 850000] ∧ g.records = 4 ∧
      (("a", 1) ∈ g.service.processed ∨ ∃ p ∈ polls, 850000 < windowStart p.2) := by
  intro log plan settings polls g
  have hmode : ∀ p ∈ polls, p.1.pattern.filter (· ≠ "") = none := by decide
  have hclock : (polls.map fun p => p.2.millis).Pairwise (· ≤ ·) := by decide
  have hcursor : g.cursors.position? "a" = some 900000 := by decide +kernel
  have hentry : g.service.stored? ("a", 1) = some ⟨850000, none, "y"⟩ := by decide +kernel
  exact ⟨hmode, hclock, hcursor, by decide +kernel, by decide +kernel,
    (polls_lose_nothing (fun _ => log) plan (.create 1 .empty 0) polls hmode hclock).1 "a" 900000 hcursor 1 _ hentry
      (by decide)⟩

end AdmissionWatch.LogGroup
