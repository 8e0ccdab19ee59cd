import AdmissionWatch.Proofs.LogGroup.Advance
import Mathlib.Algebra.GroupWithZero.Nat
import Mathlib.Data.List.Sort

/-!
# What a query of a group reaches

A query is answered with the entries of several log streams, and one cursor stands for all of them. A
query that is looked at as a whole reaches an entry of the window exactly when nothing newer was looked
at before (`query_reaches_iff`). So an entry that comes in late is passed over as soon as another log
stream has moved the cursor beyond it (`query_passes_over_late`), which cannot happen when each log
stream has a cursor of its own (`polls_lose_nothing`).
-/

namespace AdmissionWatch.LogGroup

open Time Session

/-! ### Groups of log streams -/

/-- The log streams of a group, and how a query is answered with their entries: with those that match
a pattern, in the order of their times. Entries of one time can come in any order. -/
structure Group where
  names : List String
  nodup : names.Nodup
  isMatch : String → Stored → Bool
  rank : List Located → List Located
  perm : ∀ found, (rank found).Perm found
  sorted : ∀ found, (rank found).Pairwise fun a b => a.1.time ≤ b.1.time

/-- The group of two log streams in which everything matches, and what has one time stays in place. -/
def Group.pair (name name' : String) (hne : name ≠ name') : Group where
  names := [name, name']
  nodup := List.nodup_cons.mpr ⟨fun h => hne (List.mem_singleton.mp h), List.nodup_singleton name'⟩
  isMatch _ _ := true
  rank := List.insertionSort fun a b => a.1.time ≤ b.1.time
  perm := List.perm_insertionSort _
  sorted :=
    have : Std.Total fun a b : Located => a.1.time ≤ b.1.time := ⟨fun a b => Int.le_total a.1.time b.1.time⟩
    have : IsTrans Located fun a b => a.1.time ≤ b.1.time := ⟨fun _ _ _ => Int.le_trans⟩
    List.pairwise_insertionSort _

namespace Service

/-- The entries of these log streams, each with its place. -/
def located (s : Service) (names : List String) : List Located :=
  names.flatMap fun name => (s.logs name).stored.zipIdx.map fun f => (f.1, (name, f.2))

/-- The entries of a group from a time on that match a pattern. -/
def matchingSince (s : Service) (r : Group) (pattern : String) (since : Int) : List Located :=
  (r.rank (s.located r.names)).filter fun f => r.isMatch pattern f.1 && decide (since ≤ f.1.time)

/-- Answers a query with the first entries that match, at most `limit`, unless it fails. -/
def answerQuery (s : Service) (r : Group) (pattern : String) (since : Int) (limit : Nat) :
    Option Failure → Except Failure (List Entry) × Service
  | some e => (.error e, s)
  | none =>
    (.ok (((s.matchingSince r pattern since).take limit).map fun f => f.1.entry f.2.1),
      { s with batch := ((s.matchingSince r pattern since).take limit).map (·.2) })

/-- Answers a call; a query is answered from the streams of the group. -/
def askGroup (s : Service) (r : Group) : (c : Call) → c.Reply × Service
  | .matching _ pattern since limit => s.proceed.answerQuery r pattern since limit (s.plan 0).failure?
  | .groups start limit => s.ask (.groups start limit)
  | .streams group limit => s.ask (.streams group limit)
  | .entries group name since limit => s.ask (.entries group name since limit)

/-- The surroundings in which queries of a group are answered. -/
def groupSurroundings (r : Group) : Session.Surroundings Service :=
  { surroundings with ask := fun c s => s.askGroup r c }

variable {s t : Service} {r : Group}

theorem mem_located {names : List String} {f : Located} : f ∈ s.located names ↔
    f.2.1 ∈ names ∧ s.stored? f.2 = some f.1 := by
  obtain ⟨e, name, i⟩ := f
  unfold located stored?
  rw [List.mem_flatMap]
  constructor
  · rintro ⟨name', hname, hf⟩
    obtain ⟨g, hg, heq⟩ := List.mem_map.mp hf
    obtain ⟨rfl, rfl, rfl⟩ := heq
    exact ⟨hname, List.mem_zipIdx_iff_getElem?.mp hg⟩
  · rintro ⟨hname, he⟩
    exact ⟨name, hname, List.mem_map.mpr ⟨(e, i), List.mem_zipIdx_iff_getElem?.mpr he, rfl⟩⟩

theorem mem_matchingSince {pattern : String} {since : Int} {f : Located} :
    f ∈ s.matchingSince r pattern since ↔
      f.2.1 ∈ r.names ∧ s.stored? f.2 = some f.1 ∧ r.isMatch pattern f.1 = true ∧ since ≤ f.1.time := by
  unfold matchingSince
  rw [List.mem_filter, (r.perm _).mem_iff, mem_located, Bool.and_eq_true, decide_eq_true_eq, and_assoc]

theorem askGroup_extends (s : Service) (r : Group) (c : Call) : Extends s (s.askGroup r c).2 := by
  cases c with
  | groups start limit => exact s.ask_extends _
  | streams group limit => exact s.ask_extends _
  | entries group name since limit => exact s.ask_extends _
  | matching group pattern since limit =>
    refine s.proceed_extends.trans ?_
    show Extends s.proceed (answerQuery _ r pattern since limit (s.plan 0).failure?).2
    cases (s.plan 0).failure? with
    | none => exact ⟨fun _ => List.prefix_rfl, rfl, List.prefix_rfl⟩
    | some e => exact ⟨fun _ => List.prefix_rfl, rfl, List.prefix_rfl⟩

theorem runGroup_extends {α : Type} (r : Group) (x : Session α) (s : Service) :
    Extends s (x.run (groupSurroundings r) s).2 :=
  Session.run_keeps Extends.refl Extends.trans (fun c s => s.askGroup_extends r c) (fun _ s => s.proceed_extends)
    (fun messages s => s.hand_extends messages) x s

/-- What a query is answered with, and the service after it. -/
structure Matched (r : Group) (pattern : String) (since : Int) (limit : Nat) (batch : List Entry)
    (t : Service) : Prop where
  entries : batch = ((t.matchingSince r pattern since).take limit).map fun f => f.1.entry f.2.1
  places : t.batch = ((t.matchingSince r pattern since).take limit).map (·.2)

/-- A query looks at nothing; when it is answered, then with the first entries that match. -/
theorem ensures_matching (r : Group) (rule : RetryRule) (group pattern : String) (since : Int) (limit : Nat)
    (s : Service) : Ensures (groupSurroundings r) (retry rule (.matching group pattern since limit)) s
      (Answered (fun batch t => t.processed = s.processed ∧ Matched r pattern since limit batch t)
        fun t => t.processed = s.processed) := by
  refine retry_ensures rule (fun t ht => ?_) (fun t ht => t.proceed_processed.trans ht) rfl
  show Answered (c := .matching group pattern since limit) _ _
    (answerQuery _ r pattern since limit (t.plan 0).failure?).1
      (answerQuery _ r pattern since limit (t.plan 0).failure?).2
  cases (t.plan 0).failure? with
  | none => exact ⟨t.proceed_processed.trans ht, rfl, rfl⟩
  | some e => exact t.proceed_processed.trans ht

namespace Matched
variable {pattern : String} {since : Int} {limit : Nat} {batch : List Entry}

theorem newest? (h : Matched r pattern since limit batch t) (n : Nat) :
    newest? (batch.take n) = ((((t.matchingSince r pattern since).take limit).take n).map (·.1.time)).max? := by
  rw [h.entries, ← List.map_take, newest?_located]

theorem hand (h : Matched r pattern since limit batch t) {n : Nat} (hn : n ≤ batch.length) :
    (t.hand ((batch.take n).map (·.message))).2.processed =
      t.processed ++ (((t.matchingSince r pattern since).take limit).take n).map (·.2) := by
  show t.processed ++ t.batch.take ((batch.take n).map (·.message)).length = _
  rw [h.places, List.length_map, List.length_take_of_le hn, List.map_take, List.map_take, List.map_take]

end Matched

end Service

/-- A batch whose messages fit together is looked at as a whole. -/
theorem Budget.take_of_fits {b : Budget} {batch : List Entry}
    (h : b.used + (batch.map (·.message.utf8ByteSize)).sum ≤ b.limit) : (b.take batch).1 = batch := by
  induction batch generalizing b with
  | nil => rfl
  | cons e rest ih =>
    rw [List.map_cons, List.sum_cons] at h
    unfold take
    rw [if_neg (by omega)]
    exact congrArg (e :: ·) (ih (by dsimp only; omega))

/-! ### Polls of a group -/

namespace Polling

/-- Where the query of a poll starts. -/
def querySince (g : Polling) (p : Settings × Instant) : Int :=
  (g.cursors.prune (windowStart p.2)).startFor p.1.group (windowStart p.2)

/-- What the query of a poll is answered with. -/
def query (g : Polling) (r : Group) (p : Settings × Instant) : Except Failure (List Entry) × Service :=
  (retry .entries (.matching p.1.group (p.1.pattern.getD "") (g.querySince p) p.1.batchSize)).run
    (Service.groupSurroundings r)
    (g.begin p.2)

/-- What a query finds, if it asks for enough. -/
def matching (g : Polling) (r : Group) (p : Settings × Instant) : List Located :=
  (g.query r p).2.matchingSince r (p.1.pattern.getD "") (g.querySince p)

/-- A poll of a group. It takes long to run, so only its lemmas open it. -/
@[irreducible]
def pollGroup (r : Group) (g : Polling) (p : Settings × Instant) : Polling :=
  let polled := (LogGroup.poll p.1 p.2 g.cursors).run (Service.groupSurroundings r) (g.begin p.2)
  { service := polled.2, cursors := polled.1.2, records := g.records + countedRecords polled.1.1 }

/-- Polls of the group in turn. -/
def runGroup (r : Group) (g : Polling) (polls : List (Settings × Instant)) : Polling := polls.foldl (pollGroup r) g

/-- A query is answered, and what it finds exceeds neither a batch nor the budget. -/
structure Querying (r : Group) (g : Polling) (p : Settings × Instant) : Prop where
  answered : ∃ batch, (g.query r p).1 = .ok batch
  fitsBatch : (g.matching r p).length ≤ p.1.batchSize
  fitsBudget : ((g.matching r p).map (·.1.message.utf8ByteSize)).sum ≤ p.1.maxBytes

variable {g : Polling} {r : Group}

theorem query_extends (g : Polling) (r : Group) (p : Settings × Instant) :
    Service.Extends (g.begin p.2) (g.query r p).2 :=
  Service.runGroup_extends r _ _

theorem query_answered (g : Polling) (r : Group) (p : Settings × Instant) :
    Answered (c := .matching p.1.group (p.1.pattern.getD "") (g.querySince p) p.1.batchSize)
      (fun batch t => t.processed = g.service.processed ∧
        Service.Matched r (p.1.pattern.getD "") (g.querySince p) p.1.batchSize batch t)
      (fun t => t.processed = g.service.processed) (g.query r p).1 (g.query r p).2 :=
  Service.ensures_matching r .entries p.1.group (p.1.pattern.getD "") (g.querySince p) p.1.batchSize (g.begin p.2)

theorem query_processed (g : Polling) (r : Group) (p : Settings × Instant) :
    (g.query r p).2.processed = g.service.processed :=
  ((g.query_answered r p).imp_left fun _ _ h => h.1).always

theorem query_matched {p : Settings × Instant} {batch : List Entry} (hbatch : (g.query r p).1 = .ok batch) :
    Service.Matched r (p.1.pattern.getD "") (g.querySince p) p.1.batchSize batch (g.query r p).2 := by
  have hanswer := g.query_answered r p
  rw [hbatch] at hanswer
  exact hanswer.2

/-- A poll with a pattern makes one query and looks at the answer. -/
theorem run_poll_matching (g : Polling) (r : Group) (p : Settings × Instant)
    (hmode : p.1.pattern.filter (· ≠ "") ≠ none) :
    (LogGroup.poll p.1 p.2 g.cursors).run (Service.groupSurroundings r) (g.begin p.2) =
      match (g.query r p).1 with
      | .ok batch =>
        let looked :=
          (Poll.look { cursors := g.cursors.prune (windowStart p.2), budget := { limit := p.1.maxBytes } }
            p.1.group batch).run (Service.groupSurroundings r) (g.query r p).2
        ((.ok looked.1.tally, looked.1.cursors), looked.2)
      | .error e => ((.error e, g.cursors.prune (windowStart p.2)), (g.query r p).2) := by
  obtain ⟨pattern, hpattern⟩ := Option.ne_none_iff_exists'.mp hmode
  have hquery : (retry .entries (.matching p.1.group pattern
      ((g.cursors.prune (windowStart p.2)).startFor p.1.group (windowStart p.2)) p.1.batchSize)).run
        (Service.groupSurroundings r) (g.begin p.2) = g.query r p := by
    unfold query querySince
    rw [(Option.filter_eq_some_iff.mp hpattern).1, Option.getD_some]
  unfold LogGroup.poll Poll.readMatching
  dsimp only
  rw [hpattern, run_bind, run_bind, hquery]
  cases (g.query r p).1 with
  | error e => rfl
  | ok batch =>
    dsimp only
    rw [run_bind]
    rfl

/-- A poll whose query fails looks at nothing. -/
theorem pollGroup_of_error {p : Settings × Instant} (hmode : p.1.pattern.filter (· ≠ "") ≠ none) {e : Failure}
    (herror : (g.query r p).1 = .error e) :
    (pollGroup r g p).service = (g.query r p).2 ∧ (pollGroup r g p).cursors = g.cursors.prune (windowStart p.2) := by
  unfold pollGroup
  rw [g.run_poll_matching r p hmode, herror]
  exact ⟨rfl, rfl⟩

/-- A poll whose query is answered looks at the head of what it finds, as far as the budget goes. -/
theorem pollGroup_of_ok {p : Settings × Instant} (hmode : p.1.pattern.filter (· ≠ "") ≠ none) {batch : List Entry}
    (hbatch : (g.query r p).1 = .ok batch) {n : Nat} (hn : n ≤ batch.length)
    (htaken : (Budget.take { limit := p.1.maxBytes } batch).1 = batch.take n) :
    Service.Extends (g.query r p).2 (pollGroup r g p).service ∧
      (pollGroup r g p).service.processed =
        g.service.processed ++ (((g.matching r p).take p.1.batchSize).take n).map (·.2) ∧
      (pollGroup r g p).cursors =
        (g.cursors.prune (windowStart p.2)).afterLook p.1.group (((g.matching r p).take p.1.batchSize).take n) := by
  have hmatched := query_matched hbatch
  unfold pollGroup
  rw [g.run_poll_matching r p hmode, hbatch]
  dsimp only
  rw [Poll.run_look]
  dsimp only
  rw [htaken, hmatched.newest? n]
  refine ⟨Service.hand_extends _ _, ?_, rfl⟩
  rw [← g.query_processed r p]
  exact hmatched.hand hn

/-- Every poll leaves the cursor of the group at the newest of what was looked at. -/
theorem pollGroup_keeps {p : Settings × Instant} (h : g.service.Newest (fun _ => p.1.group) g.cursors)
    (hmode : p.1.pattern.filter (· ≠ "") ≠ none) :
    (pollGroup r g p).service.Newest (fun _ => p.1.group) (pollGroup r g p).cursors := by
  have hasked := (h.begin (windowStart p.2)).later (g.query_extends r p) (g.query_processed r p)
  cases hreply : (g.query r p).1 with
  | error e =>
    obtain ⟨hservice, hcursors⟩ := pollGroup_of_error hmode hreply
    rw [hservice, hcursors]
    exact hasked
  | ok batch =>
    obtain ⟨n, hn, htaken⟩ := Budget.exists_take { limit := p.1.maxBytes } batch
    obtain ⟨hext, hprocessed, hcursors⟩ := pollGroup_of_ok hmode hreply hn htaken
    rw [hcursors]
    refine hasked.look hext (fun f hf => ?_) (fun _ _ => rfl) (g.query_processed r p ▸ hprocessed)
    exact (Service.mem_matchingSince.mp (List.mem_of_mem_take (List.mem_of_mem_take hf))).2.1

theorem pollGroup_starts (r : Group) (g : Polling) (p : Settings × Instant) :
    (pollGroup r g p).service.starts = windowStart p.2 :: g.service.starts := by
  unfold pollGroup
  exact (Service.runGroup_extends r _ (g.begin p.2)).starts

/-- All that a query finds is looked at. -/
theorem pollGroup_processed {p : Settings × Instant} (hmode : p.1.pattern.filter (· ≠ "") ≠ none)
    (hquery : Querying r g p) :
    (pollGroup r g p).service.processed = g.service.processed ++ (g.matching r p).map (·.2) := by
  obtain ⟨batch, hbatch⟩ := hquery.answered
  have hentries : batch = (g.matching r p).map fun f => f.1.entry f.2.1 :=
    (query_matched hbatch).entries.trans (congrArg _ (List.take_of_length_le hquery.fitsBatch))
  have hwhole : (Budget.take { limit := p.1.maxBytes } batch).1 = batch := by
    refine Budget.take_of_fits ?_
    rw [hentries, List.map_map, Nat.zero_add]
    exact hquery.fitsBudget
  have hlength : (g.matching r p).length ≤ batch.length := Nat.le_of_eq (by rw [hentries, List.length_map])
  rw [(pollGroup_of_ok hmode hbatch (Nat.le_refl _) (hwhole.trans (List.take_length).symm)).2.1,
    List.take_of_length_le hquery.fitsBatch, List.take_of_length_le hlength]

/-- A query that is looked at as a whole reaches an entry of the window that was not looked at before
exactly when nothing newer was. -/
theorem mem_pollGroup_iff {p : Settings × Instant} (h : g.service.Newest (fun _ => p.1.group) g.cursors)
    (hclock : ∀ start ∈ g.service.starts, start ≤ windowStart p.2)
    (hmode : p.1.pattern.filter (· ≠ "") ≠ none) (hquery : Querying r g p) {place : Place} {e : Stored}
    (hname : place.1 ∈ r.names) (he : (g.query r p).2.stored? place = some e)
    (hmatch : r.isMatch (p.1.pattern.getD "") e = true) (hwindow : windowStart p.2 ≤ e.time) :
    place ∈ (pollGroup r g p).service.processed ↔ place ∈ g.service.processed ∨
      ∀ q ∈ g.service.processed, ∀ a, (g.query r p).2.stored? q = some a → a.time ≤ e.time := by
  have hasked := (h.begin (windowStart p.2)).later (g.query_extends r p) (g.query_processed r p)
  have hlatest : ∀ a ∈ (g.query r p).2.starts, a ≤ windowStart p.2 := by
    rw [(g.query_extends r p).starts]
    exact List.forall_mem_cons.mpr ⟨Int.le_refl _, hclock⟩
  have hfound : place ∈ (g.matching r p).map (·.2) ↔ g.querySince p ≤ e.time := by
    constructor
    · intro hplace
      obtain ⟨f, hf, rfl⟩ := List.mem_map.mp hplace
      obtain ⟨-, hstored, -, hle⟩ := Service.mem_matchingSince.mp hf
      obtain rfl : f.1 = e := Option.some.inj (hstored.symm.trans he)
      exact hle
    · intro hle
      exact List.mem_map_of_mem (f := fun f : Located => f.2)
        (Service.mem_matchingSince (f := (e, place)).mpr ⟨hname, he, hmatch, hle⟩)
  rw [pollGroup_processed hmode hquery, List.mem_append, hfound]
  refine or_congr Iff.rfl ⟨fun hle q hq a ha => ?_, fun hall => ?_⟩
  · rw [← g.query_processed r p] at hq
    exact Int.le_trans (hasked.time_le_startFor hlatest hq ha) hle
  · -- The query starts with the window or at something that was looked at.
    unfold querySince
    rcases (g.cursors.prune (windowStart p.2)).startFor_cases p.1.group (windowStart p.2) with hcase | hcursor
    · rw [hcase]
      exact hwindow
    · obtain ⟨q, hq, a, ha, htime⟩ := hasked.attained _ (Dict.mem_of_get? hcursor)
      rw [g.query_processed r p] at hq
      exact Int.le_trans (Int.le_of_eq htime.symm) (hall q hq a ha)

end Polling

/-- Whatever polls of a group went before, at dates that do not go back, and whatever came in, in
whichever log stream: a poll whose query is answered, and finds no more than a batch and the budget
hold, has looked at an entry that matches and is in the window exactly when an earlier poll did, or
none looked at anything newer. -/
theorem query_reaches_iff (r : Group) (logs : String → Log) (plan : Nat → Happening) (intake : Intake)
    (polls : List (Settings × Instant)) (p : Settings × Instant) (hgroup : ∀ q ∈ polls, q.1.group = p.1.group)
    (hmode : ∀ q ∈ polls ++ [p], q.1.pattern.filter (· ≠ "") ≠ none)
    (hclock : ((polls ++ [p]).map fun q => q.2.millis).Pairwise (· ≤ ·)) :
    let g := Polling.runGroup r { service := { logs, plan, intake } } polls
    let asked := (g.query r p).2
    Polling.Querying r g p → ∀ place e, place.1 ∈ r.names → asked.stored? place = some e →
      r.isMatch (p.1.pattern.getD "") e = true → windowStart p.2 ≤ e.time →
      (place ∈ (Polling.pollGroup r g p).service.processed ↔ place ∈ g.service.processed ∨
        ∀ q ∈ g.service.processed, ∀ a, asked.stored? q = some a → a.time ≤ e.time) := by
  intro g asked hquery place e hname he hmatch hwindow
  have hkeep : ∀ (g : Polling), ∀ q ∈ polls, (∀ start ∈ g.service.starts, start ≤ windowStart q.2) →
      g.service.Newest (fun _ => p.1.group) g.cursors →
      (Polling.pollGroup r g q).service.Newest (fun _ => p.1.group) (Polling.pollGroup r g q).cursors := by
    intro g q hq _ hg
    rw [← hgroup q hq] at hg ⊢
    exact Polling.pollGroup_keeps hg (hmode q (List.mem_append_left _ hq))
  obtain ⟨hnewest, hlatest⟩ :=
    Polling.run_keeps_until (g := { service := { logs, plan, intake } }) (Polling.pollGroup_starts r)
    hkeep (Service.Newest.create _ logs plan intake) rfl hclock
  exact Polling.mem_pollGroup_iff hnewest hlatest
    (hmode p (List.mem_append_right _ List.mem_cons_self)) hquery hname he hmatch
    hwindow

/-- An entry comes into the second log stream after the first poll. It is newer than what that looked
at, so the second poll looks at it. -/
theorem query_reaches_iff_newer :
    let r : Group := .pair "a" "b" (by decide)
    let logs (name : String) : Log :=
      if name = "a" then ⟨[⟨850000, none, "x"⟩], by decide⟩ else ⟨[], by decide⟩
    let plan (n : Nat) : Happening :=
      { appended := if n = 1 then [("b", ⟨860000, none, "y"⟩)] else [], now := ⟨⟨1000, 0⟩, 0⟩ }
    let settings : Settings := { group := "g", region := "r", pattern := some "denied" }
    let g := Polling.runGroup r { service := { logs, plan, intake := .create 1 .empty 0 } } [(settings, ⟨1000, 0⟩)]
    let p : Settings × Instant := (settings, ⟨1030, 0⟩)
    g.service.processed = [("a", 0)] ∧ g.service.stored? ("b", 0) = some ⟨860000, none, "y"⟩ ∧
      Polling.Querying r g p ∧
      ("b", 0) ∈ (Polling.pollGroup r g p).service.processed := by
  intro r logs plan settings g p
  have hquery : Polling.Querying r g p :=
    ⟨⟨[⟨some 850000, none, some "a", "x"⟩, ⟨some 860000, none, some "b", "y"⟩],
      toOption_eq_some_iff.mp (by decide +kernel)⟩, by decide +kernel, by decide +kernel⟩
  have hbefore : g.service.processed = [("a", 0)] := by decide +kernel
  have holder : (g.query r p).2.stored? ("a", 0) = some ⟨850000, none, "x"⟩ := by decide +kernel
  refine ⟨hbefore, by decide +kernel, hquery, ?_⟩
  have hnewer : (g.query r p).2.stored? ("b", 0) = some ⟨860000, none, "y"⟩ := by decide +kernel
  have hiff := query_reaches_iff r logs plan (.create 1 .empty 0) [(settings, ⟨1000, 0⟩)] p (by decide)
    (by decide) (by decide)
    hquery ("b", 0) ⟨860000, none, "y"⟩ (by decide) hnewer rfl (by decide)
  refine hiff.mpr (.inr fun q hq a ha => ?_)
  obtain rfl : q = ("a", 0) := List.mem_singleton.mp (hbefore ▸ hq)
  obtain rfl : _ = a := Option.some.inj (holder.symm.trans ha)
  decide

/-- An entry comes into the second log stream after the first poll. It is in the window, but older than
what that looked at: the second poll is answered and finds little, but does not look at it. -/
theorem query_passes_over_late :
    let r : Group := .pair "a" "b" (by decide)
    let logs (name : String) : Log :=
      if name = "a" then ⟨[⟨850000, none, "x"⟩], by decide⟩ else ⟨[], by decide⟩
    let plan (n : Nat) : Happening :=
      { appended := if n = 1 then [("b", ⟨800000, none, "y"⟩)] else [], now := ⟨⟨1000, 0⟩, 0⟩ }
    let settings : Settings := { group := "g", region := "r", pattern := some "denied" }
    let created : Polling := { service := { logs, plan, intake := .create 1 .empty 0 } }
    let g := Polling.runGroup r created [(settings, ⟨1000, 0⟩)]
    let p : Settings × Instant := (settings, ⟨1030, 0⟩)
    Polling.Querying r created (settings, ⟨1000, 0⟩) ∧ created.service.stored? ("b", 0) = none ∧
      Polling.Querying r g p ∧ g.service.stored? ("b", 0) = some ⟨800000, none, "y"⟩ ∧
      windowStart p.2 ≤ 800000 ∧
      ("b", 0) ∉ (Polling.pollGroup r g p).service.processed := by
  intro r logs plan settings created g p
  have hfirst : Polling.Querying r created (settings, ⟨1000, 0⟩) :=
    ⟨⟨[⟨some 850000, none, some "a", "x"⟩], toOption_eq_some_iff.mp (by decide +kernel)⟩, by decide +kernel,
      by decide +kernel⟩
  have hsecond : Polling.Querying r g p :=
    ⟨⟨[⟨some 850000, none, some "a", "x"⟩], toOption_eq_some_iff.mp (by decide +kernel)⟩, by decide +kernel,
      by decide +kernel⟩
  exact ⟨hfirst, by decide +kernel, hsecond, by decide +kernel, by decide, by decide +kernel⟩

end AdmissionWatch.LogGroup
