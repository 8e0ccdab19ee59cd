import AdmissionWatch.Proofs.Basics
import AdmissionWatch.Proofs.LogGroup.Cursors
import AdmissionWatch.Proofs.LogGroup.Reads

/-!
# Dropping cursors

Before each poll the cursors are dropped that the window has left behind. Two sets of cursors agree at
the start of a window when every log would be read from the same time (`Cursors.Agree`), and that is
all a poll can see of them: it does the same with both and leaves them in agreement (`pollKeeping_matches`).
Dropping what is older than the window keeps the agreement, and so does a later window. So polls that
never drop a cursor do what polls do that drop them, step by step, and the times at which a log is read
from only grow (`pruning_never_shows`).
-/

namespace AdmissionWatch.LogGroup

open Time Session

/-! ### Sessions that do the same -/

/-- Two sessions do the same, whatever it brings, and come to results that are related. -/
inductive Session.Matches {α β : Type} (R : α → β → Prop) : Session α → Session β → Prop where
  | done {a : α} {b : β} (h : R a b) : Matches R (.done a) (.done b)
  | ask {c : Call} {resume : c.Reply → Session α} {resume' : c.Reply → Session β}
      (h : ∀ reply, Matches R (resume reply) (resume' reply)) : Matches R (.ask c resume) (.ask c resume')
  | pause {d : Span} {resume : Bool → Session α} {resume' : Bool → Session β}
      (h : ∀ isCut, Matches R (resume isCut) (resume' isCut)) : Matches R (.pause d resume) (.pause d resume')
  | hand {messages : List String} {resume : Source.Tally → Session α} {resume' : Source.Tally → Session β}
      (h : ∀ tally, Matches R (resume tally) (resume' tally)) :
      Matches R (.hand messages resume) (.hand messages resume')

namespace Session.Matches
variable {α β γ δ : Type} {R : α → β → Prop} {S : γ → δ → Prop}

theorem refl (x : Session α) : Matches Eq x x := by
  induction x with
  | done a => exact .done rfl
  | ask c resume ih => exact .ask ih
  | pause d resume ih => exact .pause ih
  | hand messages resume ih => exact .hand ih

theorem bind {x : Session α} {y : Session β} {f : α → Session γ} {g : β → Session δ} (h : Matches R x y)
    (hfg : ∀ a b, R a b → Matches S (f a) (g b)) : Matches S (x >>= f) (y >>= g) := by
  induction h with
  | done h => exact hfg _ _ h
  | ask _ ih => exact .ask ih
  | pause _ ih => exact .pause ih
  | hand _ ih => exact .hand ih

/-- After the same session two sessions do the same that do so for each of its results. -/
theorem bind_left (x : Session α) {f : α → Session γ} {g : α → Session δ} (h : ∀ a, Matches S (f a) (g a)) :
    Matches S (x >>= f) (x >>= g) :=
  (refl x).bind fun a _ heq => heq ▸ h a

theorem course {x : Session α} {y : Session β} (h : Matches R x y) {i i' : Intake} {steps : List Interaction} {a : α}
    (hx : x.Course i steps a i') : ∃ b, y.Course i steps b i' ∧ R a b := by
  induction h generalizing i steps with
  | done h =>
    obtain ⟨rfl, rfl, rfl⟩ := course_done_iff.mp hx
    exact ⟨_, .done _ _, h⟩
  | ask _ ih =>
    obtain ⟨reply, rest, rfl, hrest⟩ := course_ask_iff.mp hx
    obtain ⟨b, hy, hb⟩ := ih reply hrest
    exact ⟨b, .ask hy, hb⟩
  | pause _ ih =>
    obtain ⟨isCut, rest, rfl, hrest⟩ := course_pause_iff.mp hx
    obtain ⟨b, hy, hb⟩ := ih isCut hrest
    exact ⟨b, .pause hy, hb⟩
  | hand _ ih =>
    obtain ⟨now, rest, rfl, hrest⟩ := course_hand_iff.mp hx
    obtain ⟨b, hy, hb⟩ := ih _ hrest
    exact ⟨b, .hand hy, hb⟩

end Session.Matches

/-! ### Where reads start -/

namespace Cursors
variable {cursors c d : Cursors} {start start' : Int}

theorem startFor_later (cursors : Cursors) (name : String) (hlater : start ≤ start') :
    cursors.startFor name start' = max (cursors.startFor name start) start' := by
  unfold startFor
  split <;> omega

theorem startFor_advance (cursors : Cursors) (name : String) (time : Int) (name' : String) (start : Int) :
    (cursors.advance name time).startFor name' start =
      if name = name' then max (cursors.startFor name start) time else cursors.startFor name' start := by
  have hposition : (cursors.advance name time).position? name' =
      if name = name' then some (max ((cursors.position? name).getD time) time) else cursors.position? name' :=
    Dict.get?_insert cursors name name' _
  unfold startFor
  rw [hposition]
  by_cases hname : name = name'
  · subst hname
    cases cursors.position? name with
    | none => simp [max_comm]
    | some last => simp [max_right_comm]
  · simp [hname]

theorem startFor_prune (hsorted : Dict.Sorted cursors) (name : String) (start : Int) :
    (cursors.prune start).startFor name start = cursors.startFor name start := by
  have hposition : (cursors.prune start).position? name = (cursors.position? name).filter fun last => start ≤ last :=
    hsorted.get?_filter _ name
  unfold startFor
  rw [hposition]
  cases cursors.position? name with
  | none => rfl
  | some last =>
    rw [Option.filter_some]
    -- A cursor that is dropped stands before the window, where no read starts.
    by_cases hkeep : start ≤ last
    · simp [hkeep]
    · simp [hkeep, max_eq_right (le_of_not_ge hkeep)]

/-- Every log would be read from the same time. -/
def Agree (start : Int) (c d : Cursors) : Prop := ∀ name, c.startFor name start = d.startFor name start

namespace Agree

theorem symm (h : Agree start c d) : Agree start d c := fun name => (h name).symm

theorem later (h : Agree start c d) (hlater : start ≤ start') : Agree start' c d := by
  intro name
  rw [c.startFor_later name hlater, d.startFor_later name hlater, h name]

theorem advance (h : Agree start c d) (name : String) (time : Int) :
    Agree start (c.advance name time) (d.advance name time) := by
  intro name'
  rw [startFor_advance, startFor_advance, h name, h name']

theorem prune (h : Agree start c d) (hsorted : Dict.Sorted c) : Agree start (c.prune start) d := by
  intro name
  rw [startFor_prune hsorted, h name]

end Agree

end Cursors

/-! ### Polls that do the same -/

/-- Two polls have come equally far, with cursors that agree. -/
structure Poll.Alike (start : Int) (p q : Poll) : Prop where
  cursors : Cursors.Agree start p.cursors q.cursors
  budget : p.budget = q.budget
  tally : p.tally = q.tally

namespace Poll.Alike
variable {start : Int} {p q : Poll}

theorem look (h : Alike start p q) (name : String) (batch : List Entry) :
    Matches (Alike start) (p.look name batch) (q.look name batch) := by
  unfold Poll.look
  rw [h.budget]
  refine .hand fun tally => .done ⟨?_, rfl, congrArg (· + tally) h.tally⟩
  cases newest? (q.budget.take batch).1 with
  | none => exact h.cursors
  | some time => exact h.cursors.advance name time

theorem readStream (h : Alike start p q) (s : Settings) (stream : Stream) :
    Matches (Alike start) (p.readStream s start stream) (q.readStream s start stream) := by
  unfold Poll.readStream
  rw [h.budget, h.cursors stream.name]
  split
  · exact .done h
  · refine .bind_left _ fun reply => ?_
    cases reply with
    | ok batch => exact h.look stream.name batch
    | error e => exact .done h

theorem readStreams (h : Alike start p q) (s : Settings) (streams : List Stream) :
    Matches (Alike start) (p.readStreams s start streams) (q.readStreams s start streams) := by
  induction streams generalizing p q with
  | nil => exact .done h
  | cons stream streams ih => exact (h.readStream s stream).bind fun p' q' h' => ih h'

/-- Either both polls have failed alike or both have come equally far. -/
def Ends (start : Int) : Except Failure Poll → Except Failure Poll → Prop
  | .ok p, .ok q => Alike start p q
  | .error e, .error e' => e = e'
  | _, _ => False

theorem readAll (h : Alike start p q) (s : Settings) :
    Matches (Ends start) (p.readAll s start) (q.readAll s start) := by
  unfold Poll.readAll
  cases s.pattern.filter (· ≠ "") with
  | some pattern =>
    unfold Poll.readMatching
    dsimp only
    rw [h.cursors s.group]
    refine .bind_left _ fun reply => ?_
    cases reply with
    | ok batch => exact (h.look s.group batch).bind fun p' q' h' => .done h'
    | error e => exact .done rfl
  | none =>
    refine .bind_left _ fun reply => ?_
    cases reply with
    | ok streams => exact (h.readStreams s streams).bind fun p' q' h' => .done h'
    | error e => exact .done rfl

end Poll.Alike

/-- A poll that drops no cursor. -/
def pollKeeping (s : Settings) (date : Instant) (cursors : Cursors) : Session Polled := do
  let outcome ← (Poll.fresh s cursors).readAll s (windowStart date)
  return Poll.polled cursors outcome

theorem poll_eq_pollKeeping (s : Settings) (date : Instant) (cursors : Cursors) :
    poll s date cursors = pollKeeping s date (cursors.prune (windowStart date)) :=
  poll_eq s date cursors

/-- With cursors that agree a poll does the same and leaves cursors that agree. -/
theorem pollKeeping_matches (s : Settings) (date : Instant) {c d : Cursors} (h : Cursors.Agree (windowStart date) c d) :
    Matches (fun a b : Polled => a.1 = b.1 ∧ Cursors.Agree (windowStart date) a.2 b.2) (pollKeeping s date c)
      (pollKeeping s date d) := by
  have hfresh : Poll.Alike (windowStart date) (.fresh s c) (.fresh s d) := ⟨h, rfl, rfl⟩
  refine (hfresh.readAll s).bind fun outcome outcome' hends => ?_
  match outcome, outcome', hends with
  | .ok p, .ok q, hpq => exact .done ⟨congrArg Except.ok hpq.tally, hpq.cursors⟩
  | .error e, .error e', he => exact .done ⟨congrArg Except.error he, h⟩

/-! ### Polls one after the other -/

/-- Polls of this kind, one after the other, with what each of them did and came to. -/
inductive Polls (poll : Settings → Instant → Cursors → Session Polled) :
    Cursors → Intake → List (Settings × Instant) → List (List Interaction × Except Failure Source.Tally) →
      Intake → Prop where
  | nil (cursors : Cursors) (i : Intake) : Polls poll cursors i [] [] i
  | cons {s : Settings} {date : Instant} {cursors cursors' : Cursors} {i mid i' : Intake} {steps : List Interaction}
      {result : Except Failure Source.Tally} {polls : List (Settings × Instant)}
      {outcomes : List (List Interaction × Except Failure Source.Tally)}
      (h : (poll s date cursors).Course i steps (result, cursors') mid)
      (hrest : Polls poll cursors' mid polls outcomes i') :
      Polls poll cursors i ((s, date) :: polls) ((steps, result) :: outcomes) i'

/-- The times from which a log was read. -/
def startsOf (name : String) (steps : List Interaction) : List Int := ((reads steps).filter (·.1 = name)).map (·.2)

theorem mem_startsOf {name : String} {steps : List Interaction} {since : Int} :
    since ∈ startsOf name steps ↔ (name, since) ∈ reads steps := by
  simp [startsOf]

@[simp] theorem startsOf_append (name : String) (steps rest : List Interaction) :
    startsOf name (steps ++ rest) = startsOf name steps ++ startsOf name rest := by
  simp [startsOf]

namespace Reads
variable {start : Int} {p p' : Poll} {i i' : Intake} {steps : List Interaction}

theorem sorted (h : Reads start p i steps p' i') (hsorted : Dict.Sorted p.cursors) : Dict.Sorted p'.cursors := by
  induction h with
  | done => exact hsorted
  | vain _ _ _ ih => exact ih hsorted
  | @looked p _ _ _ _ _ name batch _ _ _ _ ih =>
    refine ih ?_
    unfold Poll.looked
    cases newest? (p.budget.take batch).1 with
    | none => exact hsorted
    | some time => exact hsorted.insert name _

theorem startFor_le_looked (p : Poll) (name : String) (batch : List Entry) (tally : Source.Tally) (name' : String)
    (start : Int) :
    p.cursors.startFor name' start ≤ (p.looked name batch tally).cursors.startFor name' start := by
  unfold Poll.looked
  cases newest? (p.budget.take batch).1 with
  | none => exact le_refl _
  | some time =>
    show _ ≤ (p.cursors.advance name time).startFor name' start
    rw [Cursors.startFor_advance]
    split
    · rename_i hname
      exact hname ▸ le_max_left _ _
    · exact le_refl _

/-- The times from which a log is read grow from where its cursor stood to where it comes to stand. -/
theorem climbs (h : Reads start p i steps p' i') (name : String) :
    (p.cursors.startFor name start :: (startsOf name steps ++ [p'.cursors.startFor name start])).Pairwise
      (· ≤ ·) := by
  -- While one read is tried again and again it starts from the same time.
  have hsame : ∀ {p : Poll} {asking : List Interaction} {read : String} {found : List (String × Entry)},
      Asking read (p.cursors.startFor read start) asking found →
        ∀ since ∈ startsOf name asking, since = p.cursors.startFor name start := by
    intro p asking read found hasking since hsince
    obtain ⟨rfl, rfl⟩ := Prod.mk.inj (hasking.reads _ (mem_startsOf.mp hsince))
    rfl
  induction h with
  | done => exact List.pairwise_pair.mpr (le_refl _)
  | vain _ hasking _ ih =>
    rw [startsOf_append, List.append_assoc]
    exact pairwise_le_of_same (hsame hasking) ih
  | @looked p _ i _ asking rest read batch now _ hasking _ ih =>
    have hcut : startsOf name (asking ++ .handed now (p.allowed batch) :: rest) =
        startsOf name asking ++ startsOf name rest := by
      rw [startsOf_append, startsOf, startsOf, startsOf, reads_handed]
    rw [hcut, List.append_assoc]
    refine pairwise_le_of_same (hsame hasking) ?_
    obtain ⟨hfirst, hrest⟩ := List.pairwise_cons.mp ih
    have hmoved := startFor_le_looked p read batch (readMessages now i (p.allowed batch)).tally name start
    exact List.pairwise_cons.mpr ⟨fun since hsince => hmoved.trans (hfirst since hsince), hrest⟩

end Reads

section Course
variable {s : Settings} {date : Instant} {cursors cursors' : Cursors} {i i' : Intake} {steps : List Interaction}
  {result : Except Failure Source.Tally}

theorem Session.Course.sorted (h : (poll s date cursors).Course i steps (result, cursors') i')
    (hsorted : Dict.Sorted cursors) : Dict.Sorted cursors' := by
  obtain ⟨p', hreads, -, rfl⟩ := h.reads
  exact hreads.sorted (List.Pairwise.filter _ hsorted)

/-- A poll reads a log from where its cursor stood, or from later on, up to where it comes to stand. -/
theorem Session.Course.climbs (h : (poll s date cursors).Course i steps (result, cursors') i')
    (hsorted : Dict.Sorted cursors) (name : String) : (cursors.startFor name (windowStart date) ::
      (startsOf name steps ++ [cursors'.startFor name (windowStart date)])).Pairwise (· ≤ ·) := by
  obtain ⟨p', hreads, -, rfl⟩ := h.reads
  have hclimbs := hreads.climbs name
  rwa [show (Poll.fresh s (cursors.prune (windowStart date))).cursors.startFor name (windowStart date) =
    cursors.startFor name (windowStart date) from Cursors.startFor_prune hsorted name _] at hclimbs

end Course

namespace Polls
variable {polls : List (Settings × Instant)} {c d : Cursors} {i i' : Intake}
  {outcomes : List (List Interaction × Except Failure Source.Tally)}

/-- What polls that drop cursors do is done without that as well. -/
theorem keeping (h : Polls poll c i polls outcomes i') (hsorted : Dict.Sorted c)
    (hclock : (polls.map fun p => windowStart p.2).Pairwise (· ≤ ·))
    (hagree : ∀ p ∈ polls, Cursors.Agree (windowStart p.2) c d) :
    Polls pollKeeping d i polls outcomes i' := by
  induction h generalizing d with
  | nil => exact .nil d _
  | @cons s date c c' i mid i' steps result polls outcomes h _ ih =>
    obtain ⟨hlater, hrest⟩ := List.pairwise_cons.mp hclock
    have hstart := (hagree _ List.mem_cons_self).prune hsorted
    have hkept := h.sorted hsorted
    rw [poll_eq_pollKeeping] at h
    obtain ⟨⟨result', d'⟩, hkeeping, rfl, hend⟩ := (pollKeeping_matches s date hstart).course h
    refine .cons hkeeping (ih hkept hrest fun p hp => hend.later ?_)
    exact hlater _ (List.mem_map_of_mem (f := fun p => windowStart p.2) hp)

theorem pruning (h : Polls pollKeeping d i polls outcomes i') (hsorted : Dict.Sorted c)
    (hclock : (polls.map fun p => windowStart p.2).Pairwise (· ≤ ·))
    (hagree : ∀ p ∈ polls, Cursors.Agree (windowStart p.2) c d) : Polls poll c i polls outcomes i' := by
  induction h generalizing c with
  | nil => exact .nil c _
  | @cons s date d d' i mid i' steps result polls outcomes h _ ih =>
    obtain ⟨hlater, hrest⟩ := List.pairwise_cons.mp hclock
    have hstart := (hagree _ List.mem_cons_self).prune hsorted
    obtain ⟨⟨result', c'⟩, hpruning, rfl, hend⟩ := (pollKeeping_matches s date hstart.symm).course h
    have hpoll : (poll s date c).Course i steps (result, c') mid := by rwa [poll_eq_pollKeeping]
    refine .cons hpoll (ih (hpoll.sorted hsorted) hrest fun p hp => hend.symm.later ?_)
    exact hlater _ (List.mem_map_of_mem (f := fun p => windowStart p.2) hp)

theorem in_window (h : Polls poll c i polls outcomes i') :
    List.Forall₂ (fun p o => ∀ r ∈ reads o.1, windowStart p.2 ≤ r.2) polls outcomes := by
  induction h with
  | nil => exact .nil
  | @cons s date c c' i mid i' steps result polls outcomes h _ ih =>
    refine .cons (fun r hr => ?_) ih
    obtain ⟨p', hreads, -, -⟩ := h.reads
    have hfirst := (List.pairwise_cons.mp (hreads.climbs r.1)).1 r.2 (List.mem_append_left _ (mem_startsOf.mpr hr))
    exact (Cursors.le_startFor _ _ _).trans hfirst

/-- From poll to poll the times from which a log is read grow, and none is before where the cursor stood. -/
theorem climbs (h : Polls poll c i polls outcomes i') (hsorted : Dict.Sorted c)
    (hclock : (polls.map fun p => windowStart p.2).Pairwise (· ≤ ·)) (name : String) :
    (startsOf name (outcomes.flatMap (·.1))).Pairwise (· ≤ ·) ∧
      ∀ bound, (∀ p ∈ polls, bound ≤ c.startFor name (windowStart p.2)) →
        ∀ since ∈ startsOf name (outcomes.flatMap (·.1)), bound ≤ since := by
  induction h with
  | nil => exact ⟨.nil, fun _ _ _ hsince => absurd hsince List.not_mem_nil⟩
  | @cons s date c c' i mid i' steps result polls outcomes h _ ih =>
    obtain ⟨hlater, hrest⟩ := List.pairwise_cons.mp hclock
    obtain ⟨hfirst, hsteps⟩ := List.pairwise_cons.mp (h.climbs hsorted name)
    obtain ⟨hstarts, -, hlast⟩ := List.pairwise_append.mp hsteps
    obtain ⟨hothers, hbounded⟩ := ih (h.sorted hsorted) hrest
    -- Later polls begin where this one has left the cursor, or with their windows.
    have hbegin : ∀ p ∈ polls, c'.startFor name (windowStart date) ≤ c'.startFor name (windowStart p.2) := by
      intro p hp
      rw [c'.startFor_later name (hlater _ (List.mem_map_of_mem (f := fun p => windowStart p.2) hp))]
      exact le_max_left _ _
    have hend := hfirst _ (List.mem_append_right _ (List.mem_singleton_self _))
    rw [List.flatMap_cons, startsOf_append]
    refine ⟨List.pairwise_append.mpr ⟨hstarts, hothers, fun a ha b hb => ?_⟩,
      fun bound hbound since hsince => ?_⟩
    · exact (hlast a ha _ (List.mem_singleton_self _)).trans (hbounded _ hbegin b hb)
    · have hstart := hbound _ List.mem_cons_self
      rcases List.mem_append.mp hsince with hsince | hsince
      · exact hstart.trans (hfirst since (List.mem_append_left _ hsince))
      · exact hstart.trans (hend.trans (hbounded _ hbegin since hsince))

end Polls

/-- Whatever the service answers, with entries of any times in any order: polls at dates that do not go
back do the same, step by step, whether they drop cursors or keep them all, so every log is read from
the same time; no read starts before the window of its poll, and for each log the starts never go back. -/
theorem pruning_never_shows {polls : List (Settings × Instant)}
    (hclock : (polls.map fun p => p.2.millis).Pairwise (· ≤ ·)) {cursors : Cursors} (hsorted : Dict.Sorted cursors)
    (i i' : Intake) (outcomes : List (List Interaction × Except Failure Source.Tally)) :
    (Polls poll cursors i polls outcomes i' ↔ Polls pollKeeping cursors i polls outcomes i') ∧
      (Polls poll cursors i polls outcomes i' →
        List.Forall₂ (fun p o => ∀ r ∈ reads o.1, windowStart p.2 ≤ r.2) polls outcomes ∧
          ∀ name, (startsOf name (outcomes.flatMap (·.1))).Pairwise (· ≤ ·)) := by
  have hwindows := windows_pairwise hclock
  have hagree : ∀ p ∈ polls, Cursors.Agree (windowStart p.2) cursors cursors := fun _ _ _ => rfl
  refine ⟨⟨fun h => h.keeping hsorted hwindows hagree, fun h => h.pruning hsorted hwindows hagree⟩, fun h => ?_⟩
  exact ⟨h.in_window, fun name => (h.climbs hsorted hwindows name).1⟩

/-- The first poll drops the cursor and moves the new one to an entry that is older than what it asked
for; the second asks from where it would have with the old one. -/
theorem pruning_never_shows_old_entry :
    let s : Settings := { group := "g", region := "r", pattern := some "p" }
    let i : Intake := .create 1 .empty 0
    let now : Clock := ⟨⟨1200, 0⟩, 0⟩
    let polls : List (Settings × Instant) := [(s, ⟨1200, 0⟩), (s, ⟨1250, 0⟩)]
    let cursors : Cursors := [("g", 800000)]
    let first : List Interaction :=
      [.asked (.matching "g" "p" 900000 100) (.ok [{ time := some 100000 }]), .handed now [""]]
    let second : List Interaction := [.asked (.matching "g" "p" 950000 100) (.ok []), .handed now []]
    (polls.map fun p => p.2.millis).Pairwise (· ≤ ·) ∧ Dict.Sorted cursors ∧
      ∃ tally tally' i', Polls poll cursors i polls [(first, .ok tally), (second, .ok tally')] i' ∧
        Polls pollKeeping cursors i polls [(first, .ok tally), (second, .ok tally')] i' ∧
        startsOf "g" (first ++ second) = [900000, 950000] ∧
        (startsOf "g" (first ++ second)).Pairwise (· ≤ ·) := by
  intro s i now polls cursors first second
  have hclock : (polls.map fun p => p.2.millis).Pairwise (· ≤ ·) := by decide
  have hsorted : Dict.Sorted cursors := by decide
  let pass := readMessages now i [""]
  let p : Poll := ⟨[("g", 100000)], { limit := s.maxBytes }, {} + pass.tally⟩
  let q : Poll := ⟨[], { limit := s.maxBytes }, {} + {}⟩
  have htake : (Poll.fresh s []).budget.take [{ time := some 100000 }] =
      ([{ time := some 100000 }], { limit := s.maxBytes }) := by
    decide +kernel
  have hlook : ((Poll.fresh s []).look "g" [{ time := some 100000 }]).Course i [.handed now [""]] p pass.intake :=
    course_look_of_take htake "g" now i
  have hnothing : ((Poll.fresh s []).look "g" []).Course pass.intake [.handed now []] q pass.intake :=
    course_look_of_take rfl "g" now pass.intake
  have hfirst : (poll s ⟨1200, 0⟩ cursors).Course i first (.ok p.tally, p.cursors) pass.intake :=
    course_poll_iff.mpr ⟨.ok p, rfl, (course_retry_of_ok .entries (c := .matching "g" "p" 900000 100) _ i).bind
      (hlook.bind_nil (.done _ _))⟩
  have hsecond : (poll s ⟨1250, 0⟩ p.cursors).Course pass.intake second (.ok q.tally, q.cursors) pass.intake :=
    course_poll_iff.mpr ⟨.ok q, rfl, (course_retry_of_ok .entries (c := .matching "g" "p" 950000 100) _ _).bind
      (hnothing.bind_nil (.done _ _))⟩
  have hpolls : Polls poll cursors i polls [(first, .ok p.tally), (second, .ok q.tally)] pass.intake :=
    .cons hfirst (.cons hsecond (.nil _ _))
  obtain ⟨hiff, hstarts⟩ := pruning_never_shows hclock hsorted i pass.intake
    [(first, .ok p.tally), (second, .ok q.tally)]
  exact ⟨hclock, hsorted, _, _, _, hpolls, hiff.mp hpolls, rfl, (hstarts hpolls).2 "g"⟩

end AdmissionWatch.LogGroup
