import Mathlib.Algebra.GroupWithZero.Nat
import AdmissionWatch.Proofs.LogGroup.Advance
import AdmissionWatch.Proofs.LogGroup.Reads

/-!
# What a poll looks at

All that a poll receives, batch after batch, is one list of entries, and one budget runs through it: the
poll looks at the longest prefix whose messages fit. Where the prefix ends within what was received the
poll asks for nothing more. Each cursor comes to stand at the newest of the entries that were looked at
under its name, or stays (`looks_at_longest_prefix`). What is carried from read to read is an account
of all this (`Account`).
-/

namespace AdmissionWatch.LogGroup

open Time Session

/-! ### Budgets -/

namespace Budget
variable (b : Budget) (batch : List Entry)

@[simp] theorem take_limit : (b.take batch).2.limit = b.limit := by
  induction batch generalizing b with
  | nil => rfl
  | cons e rest ih =>
    simp only [take]
    split
    · rfl
    · exact ih _

theorem take_used : (b.take batch).2.used = b.used + ((b.take batch).1.map (·.message.utf8ByteSize)).sum := by
  induction batch generalizing b with
  | nil => rfl
  | cons e rest ih =>
    simp only [take]
    split
    · rfl
    · simp only [ih, List.map_cons, List.sum_cons]
      omega

variable {b batch}

theorem take_used_le (h : b.used ≤ b.limit) : (b.take batch).2.used ≤ b.limit := by
  induction batch generalizing b with
  | nil => exact h
  | cons e rest ih =>
    simp only [take]
    split
    · exact h
    · rename_i hfits
      exact ih (b := { b with used := b.used + e.message.utf8ByteSize }) (Nat.not_lt.mp hfits)

theorem prefix_take {longer : List Entry} (hlonger : longer <+: batch)
    (hfits : b.used + (longer.map (·.message.utf8ByteSize)).sum ≤ b.limit) : longer <+: (b.take batch).1 := by
  induction batch generalizing b longer with
  | nil => exact hlonger
  | cons e rest ih =>
    cases longer with
    | nil => exact List.nil_prefix
    | cons a longer =>
      obtain ⟨rfl, hrest⟩ := List.cons_prefix_cons.mp hlonger
      rw [List.map_cons, List.sum_cons] at hfits
      simp only [take]
      rw [if_neg (by omega)]
      exact List.cons_prefix_cons.mpr ⟨rfl, ih hrest (by dsimp only; omega)⟩

end Budget

/-! ### Where cursors come to stand -/

/-- After a look the cursor stands at the newest entry that was looked at, or where it stood. -/
theorem Poll.position?_looked (p : Poll) (name : String) (batch : List Entry) (tally : Source.Tally) (name' : String) :
    (p.looked name batch tally).cursors.position? name' =
      if name = name' then ((p.cursors.position? name).toList ++ (p.budget.take batch).1.filterMap (·.time)).max?
      else p.cursors.position? name' := by
  unfold looked newest?
  rw [max?_append]
  cases (List.filterMap (·.time) (p.budget.take batch).1).max? with
  | none =>
    split
    · rename_i hname
      subst hname
      cases hposition : p.cursors.position? name <;> simp [hposition]
    · rfl
  | some time =>
    have hadvance := Dict.get?_insert p.cursors name name' (max ((p.cursors.position? name).getD time) time)
    refine hadvance.trans ?_
    split
    · cases p.cursors.position? name <;> simp [List.max?_cons]
    · rfl

/-! ### Accounts -/

/-- How many bytes the messages of entries are together. -/
def messageBytes (entries : List (String × Entry)) : Nat := (entries.map (·.2.message.utf8ByteSize)).sum

/-- The times of the entries of a log. -/
def timesOf (name : String) (entries : List (String × Entry)) : List Int :=
  (entries.filter (·.1 = name)).filterMap (·.2.time)

@[simp] theorem messageBytes_append (l m : List (String × Entry)) :
    messageBytes (l ++ m) = messageBytes l + messageBytes m := by
  simp [messageBytes]

@[simp] theorem messageBytes_under (name : String) (batch : List Entry) :
    messageBytes (batch.map fun e => (name, e)) = (batch.map (·.message.utf8ByteSize)).sum := by
  simp [messageBytes, Function.comp_def]

@[simp] theorem timesOf_append (name : String) (l m : List (String × Entry)) :
    timesOf name (l ++ m) = timesOf name l ++ timesOf name m := by
  simp [timesOf]

theorem timesOf_under (name name' : String) (batch : List Entry) :
    timesOf name' (batch.map fun e => (name, e)) = if name = name' then batch.filterMap (·.time) else [] := by
  unfold timesOf
  split
  · rename_i hname
    simp [hname, List.filter_map, List.filterMap_map, Function.comp_def]
  · rename_i hname
    simp [hname]

/-- Of the steps of a poll so far and how far it has come: which entries it has looked at. -/
structure Account (limit : Nat) (base : Cursors) (steps : List Interaction) (p : Poll)
    (looked : List (String × Entry)) : Prop where
  isPrefix : looked <+: received steps
  limited : p.budget.limit = limit
  used : p.budget.used = messageBytes looked
  fits : messageBytes looked ≤ limit
  longest : ∀ longer, longer <+: received steps → messageBytes longer ≤ limit → longer <+: looked
  whole : p.budget.isSpent = false → looked = received steps
  handed : handed steps = looked.map (·.2.message)
  records : p.tally.records = looked.length
  position : ∀ name, p.cursors.position? name = ((base.position? name).toList ++ timesOf name looked).max?
  quiet : ∀ before after, steps = before ++ after → looked.length < (received before).length →
    ∀ x ∈ after, x.isAsked = false

namespace Account
variable {limit : Nat} {base : Cursors} {steps asking rest : List Interaction} {p p' : Poll}
  {looked : List (String × Entry)} {name : String} {since start : Int} {i i' : Intake}

theorem fresh (s : Settings) (base : Cursors) : Account s.maxBytes base [] (.fresh s base) [] where
  isPrefix := List.prefix_rfl
  limited := rfl
  used := rfl
  fits := Nat.zero_le _
  longest _ h _ := h
  whole _ := rfl
  handed := rfl
  records := rfl
  position name := by cases h : base.position? name <;> simp [timesOf, Poll.fresh, h]
  quiet before after hsteps hlt := by
    obtain ⟨rfl, -⟩ := List.append_eq_nil_iff.mp hsteps.symm
    exact absurd hlt (Nat.lt_irrefl _)

/-- Steps that bring nothing leave the account as it is. -/
theorem vain (h : Account limit base steps p looked) (hunspent : p.budget.isSpent = false)
    (hasking : Asking name since asking []) : Account limit base (steps ++ asking) p looked := by
  have hreceived : received (steps ++ asking) = received steps := by
    rw [received_append, hasking.received, List.append_nil]
  have hwhole := h.whole hunspent
  refine ⟨hreceived ▸ h.isPrefix, h.limited, h.used, h.fits, hreceived ▸ h.longest, fun _ => hreceived ▸ hwhole,
    by rw [handed_append, hasking.handed, List.append_nil, h.handed], h.records, h.position,
    fun before after hsteps hlt => ?_⟩
  -- Everything that was received was looked at.
  rw [hwhole, ← hreceived, hsteps, received_append, List.length_append] at hlt
  omega

/-- A batch that was looked at as far as the budget allowed is entered. -/
theorem look (h : Account limit base steps p looked) (hunspent : p.budget.isSpent = false) {batch : List Entry}
    (hasking : Asking name since asking (batch.map fun e => (name, e))) (now : Clock) (i : Intake) :
    Account limit base (steps ++ (asking ++ [.handed now (p.allowed batch)]))
      (p.looked name batch (readMessages now i (p.allowed batch)).tally)
      (looked ++ (p.budget.take batch).1.map fun e => (name, e)) := by
  have hwhole := h.whole hunspent
  have hreceived : received (steps ++ (asking ++ [.handed now (p.allowed batch)])) =
      looked ++ batch.map fun e => (name, e) := by
    rw [received_append, received_append, hasking.received, received_of_handed, List.append_nil, hwhole]
  have hused := p.budget.take_used batch
  have hle : (p.budget.take batch).2.used ≤ p.budget.limit :=
    Budget.take_used_le (h.limited ▸ h.used ▸ h.fits)
  constructor
  · rw [hreceived]
    exact (List.prefix_append_right_inj _).mpr ((p.budget.take_prefix batch).map _)
  · exact (p.budget.take_limit batch).trans h.limited
  · rw [messageBytes_append, messageBytes_under, ← h.used]
    exact hused
  · rw [messageBytes_append, messageBytes_under, ← h.used, ← hused, ← h.limited]
    exact hle
  · intro longer hlonger hbytes
    rw [hreceived] at hlonger
    -- A prefix ends before the batch, or goes on in it as far as the budget does.
    rcases List.prefix_or_prefix_of_prefix hlonger (List.prefix_append looked _) with hbefore | ⟨more, rfl⟩
    · exact hbefore.trans (List.prefix_append _ _)
    · rw [List.prefix_append_right_inj] at hlonger ⊢
      rw [List.prefix_iff_eq_take, ← List.map_take] at hlonger
      rw [hlonger, messageBytes_append, messageBytes_under, ← h.used, ← h.limited] at hbytes
      rw [hlonger]
      exact (Budget.prefix_take (List.take_prefix _ _) hbytes).map _
  · intro hleft
    rw [hreceived, (Budget.take_of_unspent hleft).1]
  · rw [handed_append, handed_append, h.handed, hasking.handed, handed_of_handed]
    simp [Poll.allowed, Function.comp_def]
  · show p.tally.records + (readMessages now i (p.allowed batch)).tally.records = _
    rw [readMessages_records, h.records]
    simp [Poll.allowed]
  · intro name'
    rw [p.position?_looked, timesOf_append, timesOf_under]
    split
    · rename_i hname
      subst hname
      rw [h.position, ← List.append_assoc, max?_append, max?_append (_ ++ _)]
      cases ((base.position? name).toList ++ timesOf name looked).max? <;> simp
    · rw [List.append_nil, h.position]
  · -- After the batch was brought only its messages are handed over.
    intro before after hsteps hlt x hx
    rcases List.append_eq_append_iff.mp hsteps with ⟨more, rfl, hmore⟩ | ⟨more, hbefore, rfl⟩
    · have hsome : received more ≠ [] := by
        intro hnone
        rw [received_append, hnone, ← hwhole] at hlt
        simp only [List.append_nil, List.length_append] at hlt
        omega
      rcases List.append_eq_append_iff.mp hmore with ⟨between, rfl, hend⟩ | ⟨between, hcut, rfl⟩
      · obtain rfl := List.mem_singleton.mp (hend ▸ List.mem_append_right _ hx)
        rfl
      · obtain rfl := hasking.last _ _ hcut hsome
        obtain rfl := List.mem_singleton.mp hx
        rfl
    · rw [hwhole, hbefore, received_append] at hlt
      simp only [List.length_append] at hlt
      omega

end Account

theorem Reads.account {start : Int} {p p' : Poll} {i i' : Intake} {rest : List Interaction}
    (h : Reads start p i rest p' i') {limit : Nat} {base : Cursors} {steps : List Interaction}
    {looked : List (String × Entry)} (haccount : Account limit base steps p looked) :
    ∃ looked', Account limit base (steps ++ rest) p' looked' := by
  induction h generalizing steps looked with
  | done => exact ⟨looked, by rwa [List.append_nil]⟩
  | vain hunspent hasking _ ih =>
    rw [← List.append_assoc]
    exact ih (haccount.vain hunspent hasking)
  | @looked p _ i _ asking rest _ batch now hunspent hasking _ ih =>
    have hcut : steps ++ (asking ++ .handed now (p.allowed batch) :: rest) =
        steps ++ (asking ++ [.handed now (p.allowed batch)]) ++ rest := by simp
    rw [hcut]
    exact ih (haccount.look hunspent hasking now i)

/-- Whatever the service answers, refuses or cuts off: a poll looks at the longest prefix of all that it
receives whose messages fit into its budget, counts what it looks at as records and hands it over, and
asks for nothing more once it has received more than that. The cursor of each log then stands at the
newest of the entries that were looked at and where it stood in the window, whichever is later. -/
theorem looks_at_longest_prefix {s : Settings} {date : Instant} {cursors cursors' : Cursors} {i i' : Intake}
    {steps : List Interaction} {result : Except Failure Source.Tally}
    (h : (poll s date cursors).Course i steps (result, cursors') i') :
    ∃ looked : List (String × Entry),
      (looked <+: received steps ∧ messageBytes looked ≤ s.maxBytes ∧
        ∀ longer, longer <+: received steps → messageBytes longer ≤ s.maxBytes → longer <+: looked) ∧
      (handed steps = looked.map (·.2.message) ∧ countedRecords result = looked.length) ∧
      (∀ before after, steps = before ++ after → looked.length < (received before).length →
        ∀ x ∈ after, x.isAsked = false) ∧
      ∀ name, cursors'.position? name =
        (((cursors.prune (windowStart date)).position? name).toList ++ timesOf name looked).max? := by
  obtain ⟨p', hreads, hcounted, rfl⟩ := h.reads
  obtain ⟨looked, haccount⟩ := hreads.account (.fresh s _)
  exact ⟨looked, ⟨haccount.isPrefix, haccount.fits, haccount.longest⟩,
    ⟨haccount.handed, hcounted.trans haccount.records⟩, haccount.quiet, haccount.position⟩

/-- The second entry of the first log stream does not fit, so the second log stream is not read. -/
theorem looks_at_longest_prefix_cut_batch :
    let s : Settings := { group := "g", region := "r", maxMemory := 0 }
    let i : Intake := .create 1 .empty 0
    let streams : List Stream :=
      [{ name := "a", lastIngestion := some 900000 }, { name := "b", lastIngestion := some 900000 }]
    let batch : List Entry := [{ time := some 800000 }, { time := some 850000, message := "x" }]
    let steps : List Interaction :=
      [.asked (.streams "g" 50) (.ok streams), .asked (.entries "g" "a" 700000 100) (.ok batch),
        .handed ⟨⟨1000, 0⟩, 0⟩ [""]]
    ∃ tally i', (poll s ⟨1000, 0⟩ []).Course i steps (.ok tally, [("a", 800000)]) i' ∧
      ∃ looked, looked <+: received steps ∧ messageBytes looked ≤ s.maxBytes ∧
        [""] = looked.map (·.2.message) ∧
        some 800000 = (timesOf "a" looked).max? := by
  intro s i streams batch steps
  let pass := readMessages ⟨⟨1000, 0⟩, 0⟩ i [""]
  let p' : Poll := ⟨[("a", 800000)], { limit := 0, isSpent := true }, {} + pass.tally⟩
  have htake : (Poll.fresh s []).budget.take batch = ([{ time := some 800000 }], { limit := 0, isSpent := true }) := by
    decide +kernel
  have hread : ((Poll.fresh s []).readStream s 700000 { name := "a", lastIngestion := some 900000 }).Course i
      (steps.drop 1) p'
      pass.intake :=
    Poll.course_readStream_of_ok rfl rfl (course_look_of_take htake "a" ⟨⟨1000, 0⟩, 0⟩ i)
  have hreads : ((Poll.fresh s []).readStreams s 700000 streams).Course i (steps.drop 1) p' pass.intake :=
    hread.bind_nil (.done _ _)
  have hgroup : ((Poll.fresh s []).readAll s 700000).Course i steps (.ok p') pass.intake :=
    (course_retry_of_ok .streams (c := .streams "g" 50) streams i).bind (hreads.bind_nil (.done _ _))
  have hcourse : (poll s ⟨1000, 0⟩ []).Course i steps (.ok ({} + pass.tally), [("a", 800000)]) pass.intake :=
    course_poll_iff.mpr ⟨.ok p', rfl, hgroup⟩
  obtain ⟨looked, ⟨hhead, hfits, -⟩, ⟨hhanded, -⟩, -, hposition⟩ := looks_at_longest_prefix hcourse
  exact ⟨_, _, hcourse, looked, hhead, hfits, hhanded, hposition "a"⟩

end AdmissionWatch.LogGroup
