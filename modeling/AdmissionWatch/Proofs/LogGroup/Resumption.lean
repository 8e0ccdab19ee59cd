import AdmissionWatch.Proofs.LogGroup.LongestPrefix
import AdmissionWatch.Proofs.LogGroup.Pruning

/-!
# Where reads resume

Over a whole run of polls the cursor of a log says no more than the newest of the entries that were
looked at under its name: a read starts there, or with the window of its poll when that is later
(`reads_resume_at_newest`). The window bounds the start from below only. So a read starts at or before
the date of its poll exactly when no entry of the log that was looked at bears a later time, and one
entry that is dated ahead makes the reads of its log start in the future (`read_starts_ahead`).
-/

namespace AdmissionWatch.LogGroup

open Time Session

/-- The entries that were looked at: of those that were received as many as messages were handed over. -/
def inspected (steps : List Interaction) : List (String × Entry) := (received steps).take (handed steps).length

theorem asking_before {name : String} {since : Int} {before after : List Interaction} {x : Interaction}
    {found : List (String × Entry)} (h : Asking name since (before ++ x :: after) found) :
    Asking name since before [] := by
  have hreceived : received before = [] := by
    by_contra hsome
    cases h.last before (x :: after) rfl hsome
  have hhanded := h.handed
  rw [handed_append, List.append_eq_nil_iff] at hhanded
  refine ⟨hreceived, hhanded.1, fun r hr => h.reads r (reads_append before _ ▸ List.mem_append_left _ hr), ?_⟩
  rintro first rest rfl hfirst
  rw [received_append, List.append_eq_nil_iff] at hreceived
  exact absurd hreceived.1 hfirst

theorem looked_eq_inspected {limit : Nat} {base : Cursors} {steps : List Interaction} {p : Poll}
    {looked : List (String × Entry)} (h : Account limit base steps p looked) : looked = inspected steps := by
  have hlength : (handed steps).length = looked.length := by rw [h.handed, List.length_map]
  rw [inspected, hlength]
  exact List.prefix_iff_eq_take.mp h.isPrefix

/-! ### Starts as upper bounds -/

namespace Cursors
variable {cursors : Cursors} {start start' bound : Int} {name : String}

theorem startFor_le_iff :
    cursors.startFor name start ≤ bound ↔ start ≤ bound ∧
      ∀ last ∈ cursors.position? name, last ≤ bound := by
  unfold startFor
  cases cursors.position? name with
  | none => simp
  | some last =>
    simp only [Option.mem_def, Option.some.injEq, forall_eq', sup_le_iff]
    exact and_comm

theorem startFor_prune_later (hsorted : Dict.Sorted cursors) (hlater : start ≤ start') (name : String) :
    (cursors.prune start).startFor name start' = cursors.startFor name start' := by
  rw [startFor_later _ name hlater, startFor_prune hsorted, ← startFor_later _ name hlater]

/-- From a window on, every log is read from the newest of its entries in this history, or from the start
of the window. -/
def Resumes (start : Int) (cursors : Cursors) (history : List (String × Entry)) : Prop :=
  ∀ start' name bound, start ≤ start' →
    (cursors.startFor name start' ≤ bound ↔ start' ≤ bound ∧ ∀ t ∈ timesOf name history, t ≤ bound)

namespace Resumes
variable {history looked : List (String × Entry)}

theorem empty (start : Int) : Resumes start [] [] := by
  intro start' name bound _
  simp [startFor, position?, Dict.get?, timesOf]

theorem later (h : Resumes start cursors history) (hlater : start ≤ start') : Resumes start' cursors history :=
  fun start'' name bound hle => h start'' name bound (hlater.trans hle)

/-- What a poll has looked at is added to the history. -/
theorem extend (h : Resumes start cursors history) (hsorted : Dict.Sorted cursors) {limit : Nat}
    {steps : List Interaction} {p : Poll} (haccount : Account limit (cursors.prune start) steps p looked) :
    Resumes start p.cursors (history ++ looked) := by
  intro start' name bound hle
  have hbase := h start' name bound hle
  rw [← startFor_prune_later hsorted hle, startFor_le_iff] at hbase
  rw [startFor_le_iff, haccount.position name]
  have hmax : ∀ times : List Int, (∀ last ∈ times.max?, last ≤ bound) ↔ ∀ t ∈ times, t ≤ bound := by
    intro times
    cases hnewest : times.max? with
    | none => simp [List.max?_eq_none_iff.mp hnewest]
    | some last => simpa using List.max?_le_iff hnewest
  rw [hmax, timesOf_append]
  simp only [List.mem_append, Option.mem_toList, or_imp, forall_and, ← and_assoc, Option.mem_def] at hbase ⊢
  exact and_congr_left fun _ => hbase

/-- The read of a log starts at the greatest of these times. -/
theorem max?_eq (h : Resumes start cursors history) (name : String) :
    (start :: timesOf name history).max? = some (cursors.startFor name start) := by
  obtain ⟨newest, hnewest⟩ := Option.isSome_iff_exists.mp
    (List.isSome_max?_of_mem (List.mem_cons_self (a := start) (l := timesOf name history)))
  have hiff : ∀ bound, cursors.startFor name start ≤ bound ↔ newest ≤ bound := by
    intro bound
    rw [h start name bound (le_refl _), List.max?_le_iff hnewest, List.forall_mem_cons]
  rw [hnewest, le_antisymm ((hiff newest).mpr (le_refl _)) ((hiff _).mp (le_refl _))]

end Resumes

end Cursors

/-! ### Reads within a poll -/

section
variable {start : Int} {limit : Nat} {base : Cursors} {p p' : Poll} {i i' : Intake}
  {steps rest before after : List Interaction} {looked : List (String × Entry)} {c : Call} {reply : c.Reply}
  {name : String} {since : Int}

/-- Where a call is made several times, no attempt before the last has brought anything. -/
theorem exists_account_of_asking (haccount : Account limit base steps p looked) (hunspent : p.budget.isSpent = false)
    {read : String} {found : List (String × Entry)}
    (hasking : Asking read (p.cursors.startFor read start) (before ++ .asked c reply :: after) found)
    (hread : c.read? = some (name, since)) :
    ∃ q, Account limit base (steps ++ before) q (inspected (steps ++ before)) ∧
      since = q.cursors.startFor name start := by
  have hmem : (name, since) ∈ reads (before ++ .asked c reply :: after) :=
    List.mem_filterMap.mpr ⟨.asked c reply, by simp, hread⟩
  obtain ⟨rfl, rfl⟩ := Prod.mk.inj (hasking.reads _ hmem)
  have hbefore := haccount.vain hunspent (asking_before hasking)
  exact ⟨p, looked_eq_inspected hbefore ▸ hbefore, rfl⟩

/-- A read starts where the cursor stands after all that the poll has looked at before. -/
theorem Reads.exists_account (h : Reads start p i rest p' i') (haccount : Account limit base steps p looked)
    (hrest : rest = before ++ .asked c reply :: after) (hread : c.read? = some (name, since)) :
    ∃ q, Account limit base (steps ++ before) q (inspected (steps ++ before)) ∧
      since = q.cursors.startFor name start := by
  induction h generalizing steps looked before with
  | done => simp at hrest
  | vain hunspent hasking _ ih =>
    rcases List.append_eq_append_iff.mp hrest with ⟨more, rfl, hmore⟩ | ⟨more, rfl, hmore⟩
    · rw [← List.append_assoc]
      exact ih (haccount.vain hunspent hasking) hmore
    · cases more with
      | nil =>
        rw [List.append_nil] at hasking
        have hnext := @ih _ [] _ (haccount.vain hunspent hasking) hmore.symm
        rwa [List.append_nil] at hnext
      | cons x more =>
        obtain ⟨rfl, rfl⟩ := List.cons.inj hmore
        exact exists_account_of_asking haccount hunspent hasking hread
  | @looked p _ i _ asking rest _ batch now hunspent hasking _ ih =>
    rcases List.append_eq_append_iff.mp hrest with ⟨more, rfl, hmore⟩ | ⟨more, rfl, hmore⟩
    · rcases List.cons_eq_append_iff.mp hmore with ⟨-, hcons⟩ | ⟨more, rfl, -⟩
      · cases (List.cons.inj hcons).1
      · have hcut : steps ++ (asking ++ .handed now (p.allowed batch) :: more) =
            steps ++ (asking ++ [.handed now (p.allowed batch)]) ++ more := by simp
        rw [hcut]
        exact ih (haccount.look hunspent hasking now i) (List.cons.inj hmore).2
    · rcases List.cons_eq_append_iff.mp hmore with ⟨rfl, hcons⟩ | ⟨more, rfl, hmore⟩
      · cases (List.cons.inj hcons).1
      · exact exists_account_of_asking haccount hunspent hasking hread

end

/-! ### Reads over a run of polls -/

theorem Polls.resumes {polls : List (Settings × Instant)} {cursors : Cursors} {i i' : Intake}
    {outcomes : List (List Interaction × Except Failure Source.Tally)} (h : Polls poll cursors i polls outcomes i')
    (hsorted : Dict.Sorted cursors) (hclock : (polls.map fun p => windowStart p.2).Pairwise (· ≤ ·))
    {history : List (String × Entry)} (hresumes : ∀ p ∈ polls, Cursors.Resumes (windowStart p.2) cursors history) :
    ∀ k s date steps result, polls[k]? = some (s, date) → outcomes[k]? = some (steps, result) →
      ∀ before c reply after name since, steps = before ++ .asked c reply :: after →
        c.read? = some (name, since) →
        (windowStart date :: timesOf name
          (history ++ ((outcomes.take k).flatMap fun o => inspected o.1) ++ inspected before)).max? =
          some since := by
  induction h generalizing history with
  | nil => simp
  | @cons s date cursors cursors' i mid i' steps result polls outcomes h _ ih =>
    obtain ⟨hlater, hrest⟩ := List.pairwise_cons.mp hclock
    have hstart := hresumes _ List.mem_cons_self
    obtain ⟨p', hreads, -, hend⟩ := h.reads
    intro k
    cases k with
    | zero =>
      rintro _ _ _ _ ⟨⟩ ⟨⟩ before c reply after name since hsteps hread
      obtain ⟨q, haccount, rfl⟩ := hreads.exists_account (.fresh s _) hsteps hread
      rw [List.nil_append] at haccount
      simpa using (hstart.extend hsorted haccount).max?_eq name
    | succ k =>
      obtain ⟨looked, haccount⟩ := hreads.account (.fresh s _)
      rw [List.nil_append] at haccount
      have hextended := hend ▸ hstart.extend hsorted haccount
      rw [looked_eq_inspected haccount] at hextended
      have hnext := ih (h.sorted hsorted) hrest fun p hp =>
        hextended.later (hlater _ (List.mem_map_of_mem (f := fun p => windowStart p.2) hp))
      simpa [List.append_assoc] using hnext k

theorem windowStart_le_millis (date : Instant) : windowStart date ≤ date.millis := by
  have hwindow : 0 ≤ recentWindow.millis := by decide
  unfold windowStart
  omega

/-- Whatever the service answers, with entries of any times: in polls at dates that do not go back each
read of a log starts at the newest of its entries that were looked at in the run so far, or with the
window when that is later. So no read starts before its window, and one starts after the date of its
poll exactly when an entry of the log that is dated later was looked at. -/
theorem reads_resume_at_newest {polls : List (Settings × Instant)}
    (hclock : (polls.map fun p => p.2.millis).Pairwise (· ≤ ·)) {i i' : Intake}
    {outcomes : List (List Interaction × Except Failure Source.Tally)} (h : Polls poll [] i polls outcomes i')
    (k : Nat) {s : Settings} {date : Instant} {steps : List Interaction} {result : Except Failure Source.Tally}
    (hpoll : polls[k]? = some (s, date)) (houtcome : outcomes[k]? = some (steps, result))
    {before after : List Interaction} {c : Call} {reply : c.Reply} (hsteps : steps = before ++ .asked c reply :: after)
    {name : String} {since : Int} (hread : c.read? = some (name, since)) :
    let times := timesOf name (((outcomes.take k).flatMap fun o => inspected o.1) ++ inspected before)
    (windowStart date :: times).max? = some since ∧ windowStart date ≤ since ∧
      (since ≤ date.millis ↔ ∀ t ∈ times, t ≤ date.millis) := by
  intro times
  have hempty : ∀ p ∈ polls, Cursors.Resumes (windowStart p.2) [] [] := fun p _ => .empty _
  have hmax : (windowStart date :: times).max? = some since :=
    h.resumes List.Pairwise.nil
      (windows_pairwise hclock) hempty k s date steps result hpoll houtcome before c reply after name since
      hsteps hread
  have hbound := fun bound => List.max?_le_iff hmax (x := bound)
  refine ⟨hmax, (hbound since).mp (le_refl _) _ List.mem_cons_self, ?_⟩
  rw [hbound, List.forall_mem_cons]
  exact and_iff_right (windowStart_le_millis date)

/-! ### An entry that is dated ahead -/

namespace Ahead

/-- One log group, read stream by stream. -/
def settings : Settings := { group := "g", region := "r" }

/-- A stream that was written to shortly before the first poll. -/
def streams : List Stream := [{ name := "a", lastIngestion := some 1000000 }]

/-- An entry of an hour after the first poll. -/
def batch : List Entry := [{ time := some 4600000 }]

/-- Two polls, thirty seconds apart. -/
def polls : List (Settings × Instant) := [(settings, ⟨1000, 0⟩), (settings, ⟨1030, 0⟩)]

/-- The first poll hands the entry to the intake, -/
def first : List Interaction :=
  [.asked (.streams "g" 50) (.ok streams), .asked (.entries "g" "a" 700000 100) (.ok batch),
    .handed ⟨⟨1000, 0⟩, 0⟩ [""]]

/-- and the second reads from the time of the entry on. -/
def second : List Interaction :=
  [.asked (.streams "g" 50) (.ok streams), .asked (.entries "g" "a" 4600000 100) (.ok []),
    .handed ⟨⟨1030, 0⟩, 0⟩ []]

theorem exists_polls : ∃ tally tally' i', Polls poll [] (.create 1 .empty 0) polls
    [(first, .ok tally), (second, .ok tally')] i' := by
  let i : Intake := .create 1 .empty 0
  let pass := readMessages ⟨⟨1000, 0⟩, 0⟩ i [""]
  let cursors : Cursors := [("a", 4600000)]
  let p : Poll := ⟨cursors, { limit := settings.maxBytes }, {} + pass.tally⟩
  let q : Poll := ⟨cursors, { limit := settings.maxBytes }, {} + {}⟩
  have htake : (Poll.fresh settings []).budget.take batch = (batch, { limit := settings.maxBytes }) := by decide +kernel
  have hread : ((Poll.fresh settings []).readStreams settings 700000 streams).Course i (first.drop 1) p pass.intake :=
    (Poll.course_readStream_of_ok rfl rfl (course_look_of_take htake "a" ⟨⟨1000, 0⟩, 0⟩ i)).bind_nil (.done _ _)
  have hreread : ((Poll.fresh settings cursors).readStreams settings 730000 streams).Course pass.intake
      (second.drop 1) q
      pass.intake :=
    (Poll.course_readStream_of_ok rfl rfl (course_look_of_take rfl "a" ⟨⟨1030, 0⟩, 0⟩ pass.intake)).bind_nil
      (.done _ _)
  have hfirst : (poll settings ⟨1000, 0⟩ []).Course i first (.ok p.tally, cursors) pass.intake :=
    course_poll_iff.mpr ⟨.ok p, rfl, (course_retry_of_ok .streams (c := .streams "g" 50) streams i).bind
      (hread.bind_nil (.done _ _))⟩
  have hsecond : (poll settings ⟨1030, 0⟩ cursors).Course pass.intake second (.ok q.tally, cursors) pass.intake :=
    course_poll_iff.mpr ⟨.ok q, rfl, (course_retry_of_ok .streams (c := .streams "g" 50) streams _).bind
      (hreread.bind_nil (.done _ _))⟩
  exact ⟨_, _, _, .cons hfirst (.cons hsecond (.nil _ _))⟩

end Ahead

open Ahead in
/-- The second poll reads from the time of the entry that the first one looked at. -/
theorem reads_resume_at_newest_ahead :
    (polls.map fun p => p.2.millis).Pairwise (· ≤ ·) ∧
      ∃ tally tally' i', Polls poll [] (.create 1 .empty 0) polls [(first, .ok tally), (second, .ok tally')] i' ∧
        (Call.entries "g" "a" 4600000 100).read? = some ("a", 4600000) ∧ timesOf "a" (inspected first) = [4600000] ∧
        windowStart ⟨1030, 0⟩ ≤ 4600000 ∧
        ((4600000 : Int) ≤ Instant.millis ⟨1030, 0⟩ ↔
          ∀ t ∈ [(4600000 : Int)], t ≤ Instant.millis ⟨1030, 0⟩) := by
  have hclock : (polls.map fun p => p.2.millis).Pairwise (· ≤ ·) := by decide
  obtain ⟨tally, tally', i', hpolls⟩ := exists_polls
  have hsteps : second = [.asked (.streams "g" 50) (.ok streams)] ++
      .asked (.entries "g" "a" 4600000 100) (.ok []) :: [.handed ⟨⟨1030, 0⟩, 0⟩ []] := rfl
  have hread : (Call.entries "g" "a" 4600000 100).read? = some ("a", 4600000) := rfl
  obtain ⟨-, hstart, hiff⟩ := reads_resume_at_newest hclock hpolls 1 rfl rfl hsteps hread
  exact ⟨hclock, tally, tally', i', hpolls, hread, by decide, hstart, hiff⟩

open Ahead in
/-- The second poll reads from an hour after the first one, so it passes over what is dated now. -/
theorem read_starts_ahead :
    (polls.map fun p => p.2.millis).Pairwise (· ≤ ·) ∧
      ∃ tally tally' i', Polls poll [] (.create 1 .empty 0) polls [(first, .ok tally), (second, .ok tally')] i' ∧
        ("a", 4600000) ∈ reads second ∧ ¬(4600000 : Int) ≤ Instant.millis ⟨1030, 0⟩ := by
  obtain ⟨tally, tally', i', hpolls⟩ := exists_polls
  exact ⟨by decide, tally, tally', i', hpolls, by decide, by decide⟩

end AdmissionWatch.LogGroup
