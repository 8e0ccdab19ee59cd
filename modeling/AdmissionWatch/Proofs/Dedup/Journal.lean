import AdmissionWatch.Proofs.Dedup.Coherence

/-!
# A window is the end of a journal

The journal of a window holds every identifier that was taken in, the earliest first, and forgets
none. What lives of it at a moment is its longest suffix of which every entry is young enough and
which fits in the bytes; the newest entry alone always fits. As long as the clock does not go back,
a window answers every call as its journal does (`run_eq_journal`).

Each step keeps `Matches`: the order of the window is a suffix of the journal, and every suffix that
may live is a suffix of the order, so nothing was dropped too early.
-/

namespace AdmissionWatch.Dedup

open Time

/-! ### Age -/

theorem elapsed_lt_of_now_le {moment last now : Moment} {ttl : Span} (hle : last ≤ now)
    (h : moment.elapsed now < ttl) : moment.elapsed last < ttl :=
  Nat.lt_of_le_of_lt (Nat.sub_le_sub_right hle moment) h

theorem elapsed_lt_of_le {older newer now : Moment} {ttl : Span} (hle : older ≤ newer) (h : older.elapsed now < ttl) :
    newer.elapsed now < ttl :=
  Nat.lt_of_le_of_lt (Nat.sub_le_sub_left hle now) h

/-! ### Calls -/

/-- What a window can be called for. -/
inductive Call where
  | enter (key : String)
  | contains (key : String)
  | size
  deriving DecidableEq, Repr

/-- What a call is answered. -/
inductive Answer where
  | entered (isNew : Bool)
  | found (isThere : Bool)
  | counted (number : Nat)
  deriving DecidableEq, Repr

/-- What a window answers to a call, and the window afterwards. -/
def Window.answer (w : Window) (now : Moment) : Call → Answer × Window
  | .enter key => ((w.enter key now).map .entered id)
  | .contains key => (.found (w.contains key now), w)
  | .size => ((w.size now).map .counted id)

/-- What a window answers to calls in turn, and the window afterwards. -/
def Window.run (w : Window) : List (Moment × Call) → List Answer × Window
  | [] => ([], w)
  | (now, call) :: rest =>
    let first := w.answer now call
    let others := first.2.run rest
    (first.1 :: others.1, others.2)

/-- The entries of a window that live at a moment. -/
def Window.live (w : Window) (now : Moment) : List (String × Moment) :=
  w.order.filter fun e => w.isLive now e.2

/-! ### Journals -/

/-- Every identifier that was taken in, the earliest first, and what may live of them. -/
structure Journal where
  ttl : Span
  maxBytes : Nat
  taken : List (String × Moment) := []

namespace Journal

/-- Whether entries may live together at a moment: all are young enough, and they fit in the bytes
or there is one at most. -/
def allows (j : Journal) (now : Moment) (entries : List (String × Moment)) : Bool :=
  decide ((∀ e ∈ entries, e.2.elapsed now < j.ttl) ∧ (entries.length ≤ 1 ∨ totalCost entries ≤ j.maxBytes))

/-- The entries that live at a moment. -/
def live (j : Journal) (now : Moment) : List (String × Moment) :=
  longestSuffix (j.allows now) j.taken

/-- Whether an identifier lives. -/
def knows (j : Journal) (key : String) (now : Moment) : Bool :=
  (j.live now).any fun e => e.1 == key

/-- What a journal answers to a call: an identifier that lives is not taken in again. -/
def answer (j : Journal) (now : Moment) : Call → Answer × Journal
  | .enter key =>
    if j.knows key now then (.entered false, j) else (.entered true, { j with taken := j.taken ++ [(key, now)] })
  | .contains key => (.found (j.knows key now), j)
  | .size => (.counted (j.live now).length, j)

/-- What a journal answers to calls in turn, and the journal afterwards. -/
def run (j : Journal) : List (Moment × Call) → List Answer × Journal
  | [] => ([], j)
  | (now, call) :: rest =>
    let first := j.answer now call
    let others := first.2.run rest
    (first.1 :: others.1, others.2)

section
variable {j : Journal} {now last : Moment}

theorem allows_iff {s : List (String × Moment)} : j.allows now s = true ↔
    (∀ e ∈ s, e.2.elapsed now < j.ttl) ∧ (s.length ≤ 1 ∨ totalCost s ≤ j.maxBytes) :=
  decide_eq_true_iff

theorem allows_nil (j : Journal) (now : Moment) : j.allows now [] = true := by
  simp [allows]

theorem knows_iff {key : String} : j.knows key now = true ↔ key ∈ (j.live now).map Prod.fst := by
  simp [knows]

/-- What may live together later may do so earlier: at an earlier moment all are younger. -/
theorem allows_of_le (hle : last ≤ now) {s : List (String × Moment)} (h : j.allows now s = true) :
    j.allows last s = true := by
  rw [allows_iff] at h ⊢
  exact ⟨fun e he => elapsed_lt_of_now_le hle (h.1 e he), h.2⟩

end

/-! ### What every step keeps -/

/-- A window is the end of a journal at a moment. -/
structure Matches (j : Journal) (last : Moment) (w : Window) : Prop where
  coherent : w.Coherent
  ttl : w.ttl = j.ttl
  maxBytes : w.maxBytes = j.maxBytes
  sorted : w.order.Pairwise fun a b => a.2 ≤ b.2
  past : ∀ e ∈ w.order, e.2 ≤ last
  suffix : w.order <:+ j.taken
  /-- Nothing that may live was dropped. -/
  kept : ∀ s, s <:+ j.taken → j.allows last s = true → s <:+ w.order
  /-- There are no more entries than fit. -/
  fits : w.order.length ≤ 1 ∨ totalCost w.order ≤ j.maxBytes

namespace Matches
variable {j : Journal} {w : Window} {now last : Moment}

theorem empty (ttl : Span) (maxBytes : Nat) (last : Moment) :
    Matches { ttl, maxBytes } last (.empty ttl maxBytes) where
  coherent := .empty ttl maxBytes
  ttl := rfl
  maxBytes := rfl
  sorted := .nil
  past e he := by cases he
  suffix := List.suffix_rfl
  kept s hs _ := hs
  fits := .inl (Nat.zero_le 1)

/-- In an order by age no entry that lives stands before one that does not. -/
theorem order_expire (h : Matches j last w) (now : Moment) : (w.expire now).order = w.live now := by
  rw [Window.order_expire]
  refine dropWhile_not_eq_filter (h.sorted.imp fun {a b} hab hlive => ?_)
  exact decide_eq_true (elapsed_lt_of_le hab (of_decide_eq_true hlive))

/-- What lives of the window is what lives of the journal. -/
theorem live_eq (h : Matches j last w) (hle : last ≤ now) : w.live now = j.live now := by
  have hsub : w.live now <:+ w.order := by
    rw [← h.order_expire now, Window.order_expire]
    exact List.dropWhile_suffix _
  refine eq_longestSuffix (allows_nil j now) (hsub.trans h.suffix) (allows_iff.mpr ⟨fun e he => ?_, ?_⟩)
    fun s hs hallows => ?_
  · rw [← h.ttl]
    exact of_decide_eq_true (List.mem_filter.mp he).2
  · rcases h.fits with hlen | hcost
    · exact .inl (Nat.le_trans hsub.length_le hlen)
    · exact .inr (Nat.le_trans (totalCost_le_of_suffix hsub) hcost)
  · -- What may live now may have lived then as well, so it was not dropped.
    obtain ⟨before, hbefore⟩ := h.kept s hs (allows_of_le hle hallows)
    have hall : s.filter (fun e => w.isLive now e.2) = s := List.filter_eq_self.mpr fun e he =>
      decide_eq_true (h.ttl ▸ (allows_iff.mp hallows).1 e he)
    rw [Window.live, ← hbefore, List.filter_append, hall]
    exact List.suffix_append _ _

/-- Only what lives no longer is dropped by expiry. -/
theorem expire (h : Matches j last w) (hle : last ≤ now) : Matches j now (w.expire now) := by
  have horder : (w.expire now).order = j.live now := (h.order_expire now).trans (h.live_eq hle)
  have hlive : (w.expire now).order = w.live now := h.order_expire now
  refine ⟨h.coherent.expire now, by simp [h.ttl], by simp [h.maxBytes], ?_, fun e he => ?_, ?_,
    fun s hs hallows => ?_, ?_⟩
  · rw [hlive]
    exact h.sorted.filter _
  · rw [hlive] at he
    exact Nat.le_trans (h.past e (List.mem_filter.mp he).1) hle
  · rw [horder]
    exact longestSuffix_suffix _ _
  · rw [horder]
    exact suffix_longestSuffix hs hallows
  · rw [horder]
    exact (allows_iff.mp (longestSuffix_holds (allows_nil j now) j.taken)).2

/-- The newest entry comes in after others have made room for it: what may live beside it fits with
it, and nothing else is dropped. -/
theorem push (h : Matches j now w) {key : String} (hnew : key ∉ w.order.map Prod.fst) :
    Matches { j with taken := j.taken ++ [(key, now)] } now ((w.makeRoom (Window.cost key)).push key now) := by
  have hroom := Window.order_makeRoom h.coherent (Window.cost key)
  have hsub : (w.makeRoom (Window.cost key)).order <:+ w.order := hroom ▸ longestSuffix_suffix _ _
  have hpushed : ((w.makeRoom (Window.cost key)).push key now).order =
      (w.makeRoom (Window.cost key)).order ++ [(key, now)] := rfl
  refine ⟨(h.coherent.makeRoom _).push (fun hm => hnew ?_) now, by simp [Window.push, h.ttl],
    by simp [Window.push, h.maxBytes], ?_, fun e he => ?_, ?_, fun s hs hallows => ?_, ?_⟩
  · exact (hsub.map Prod.fst).subset hm
  · rw [hpushed, List.pairwise_append]
    refine ⟨h.sorted.sublist hsub.sublist, List.pairwise_singleton _ _, fun a ha b hb => ?_⟩
    rw [List.mem_singleton.mp hb]
    exact h.past a (hsub.subset ha)
  · rw [hpushed] at he
    rcases List.mem_append.mp he with he | he
    · exact h.past e (hsub.subset he)
    · obtain rfl := List.mem_singleton.mp he
      exact Nat.le_refl now
  · rw [hpushed]
    exact List.suffix_append_self_iff.mpr (hsub.trans h.suffix)
  · rcases List.suffix_concat_iff.mp hs with rfl | ⟨t, rfl, ht⟩
    · exact List.nil_suffix
    · rw [hpushed]
      refine List.suffix_append_self_iff.mpr ?_
      obtain ⟨hyoung, hfit⟩ := allows_iff.mp hallows
      by_cases hnil : t = []
      · rw [hnil]
        exact List.nil_suffix
      · -- Beside the newest entry there is another, so together they fit in the bytes.
        have hlen : 0 < t.length := List.length_pos_iff.mpr hnil
        have hcost : totalCost t + Window.cost key ≤ j.maxBytes := by
          simpa [Nat.not_le.mpr hlen, List.length_append] using hfit
        have hkept : t <:+ w.order := h.kept t ht (allows_iff.mpr
          ⟨fun e he => hyoung e (List.mem_append_left _ he), .inr (by omega)⟩)
        rw [hroom]
        exact suffix_longestSuffix hkept (decide_eq_true (.inr (h.maxBytes ▸ hcost)))
  · rw [hpushed, hroom]
    have hholds := of_decide_eq_true (longestSuffix_holds
      (p := fun s => decide (s = [] ∨ totalCost s + Window.cost key ≤ w.maxBytes)) (by simp) w.order)
    rcases hholds with hnil | hcost
    · rw [hnil]
      exact .inl (Nat.le_refl 1)
    · refine .inr ?_
      rw [totalCost_append, totalCost_cons, totalCost_nil, Nat.add_zero]
      exact h.maxBytes ▸ hcost

theorem later (h : Matches j last w) (hle : last ≤ now) : Matches j now w :=
  { h with
    past := fun e he => Nat.le_trans (h.past e he) hle
    kept := fun s hs hallows => h.kept s hs (allows_of_le hle hallows) }

theorem contains_iff (h : Matches j last w) (key : String) (now : Moment) :
    w.contains key now = true ↔ key ∈ (w.live now).map Prod.fst := by
  unfold Window.contains
  cases hget : w.entries[key]? with
  | none =>
    refine ⟨fun hf => absurd hf (by simp), fun hm => ?_⟩
    obtain ⟨⟨k, moment⟩, he, rfl⟩ := List.mem_map.mp hm
    have := (h.coherent.get k moment).mpr (List.mem_filter.mp he).1
    rw [hget] at this
    cases this
  | some moment =>
    have hmem := (h.coherent.get key moment).mp hget
    constructor
    · intro hlive
      exact List.mem_map.mpr ⟨(key, moment), List.mem_filter.mpr ⟨hmem, hlive⟩, rfl⟩
    · intro hm
      obtain ⟨⟨k, m⟩, he, rfl⟩ := List.mem_map.mp hm
      obtain ⟨he, hlive⟩ := List.mem_filter.mp he
      have := (h.coherent.get k m).mpr he
      rw [hget] at this
      cases this
      exact hlive

/-- The map of a window that has expired holds what lives of the journal. -/
theorem expire_contains (h : Matches j last w) (hle : last ≤ now) (key : String) :
    (w.expire now).entries.contains key = j.knows key now := by
  rw [Bool.eq_iff_iff, (h.coherent.expire now).contains, h.order_expire, h.live_eq hle, knows_iff]

theorem enter (h : Matches j last w) (hle : last ≤ now) (key : String) :
    (w.enter key now).1 = !j.knows key now ∧ Matches (j.answer now (.enter key)).2 now (w.enter key now).2 := by
  unfold Window.enter Journal.answer
  simp only [h.expire_contains hle key]
  by_cases hk : j.knows key now = true
  · simp only [hk, ↓reduceIte]
    exact ⟨rfl, h.expire hle⟩
  · have hnew : key ∉ (w.expire now).order.map Prod.fst := by
      rw [h.order_expire, h.live_eq hle, ← knows_iff]
      exact hk
    simp only [Bool.not_eq_true] at hk
    simp only [hk, Bool.false_eq_true, ↓reduceIte]
    exact ⟨rfl, (h.expire hle).push hnew⟩

/-- A window answers as its journal does, and stays the end of it. -/
theorem answer (h : Matches j last w) (hle : last ≤ now) (call : Call) :
    (w.answer now call).1 = (j.answer now call).1 ∧ Matches (j.answer now call).2 now (w.answer now call).2 := by
  cases call with
  | enter key =>
    obtain ⟨hnew, hnext⟩ := h.enter hle key
    refine ⟨?_, hnext⟩
    show Answer.entered (w.enter key now).1 = _
    rw [hnew]
    cases hk : j.knows key now <;> simp [Journal.answer, hk]
  | contains key =>
    refine ⟨?_, h.later hle⟩
    show Answer.found (w.contains key now) = Answer.found (j.knows key now)
    rw [Bool.eq_iff_iff.mpr ((h.contains_iff key now).trans ((h.live_eq hle) ▸ knows_iff.symm))]
  | size =>
    refine ⟨?_, h.expire hle⟩
    show Answer.counted (w.expire now).entries.size = Answer.counted (j.live now).length
    rw [(h.coherent.expire now).size, h.order_expire, h.live_eq hle]

/-- So it is for every run of calls at moments that do not go back. -/
theorem run (h : Matches j last w) {calls : List (Moment × Call)}
    (hclock : (last :: calls.map Prod.fst).Pairwise (· ≤ ·)) : (w.run calls).1 = (j.run calls).1 ∧
      ∀ now, last ≤ now → (∀ c ∈ calls, c.1 ≤ now) → Matches (j.run calls).2 now (w.run calls).2 := by
  induction calls generalizing last w j with
  | nil => exact ⟨rfl, fun now hnow _ => h.later hnow⟩
  | cons c rest ih =>
    obtain ⟨moment, call⟩ := c
    rw [List.map_cons, List.pairwise_cons] at hclock
    obtain ⟨hfirst, hrest⟩ := hclock
    obtain ⟨hanswer, hnext⟩ := h.answer (hfirst moment List.mem_cons_self) call
    obtain ⟨hanswers, hend⟩ := ih hnext hrest
    constructor
    · show (w.answer moment call).1 :: _ = (j.answer moment call).1 :: _
      rw [hanswer, hanswers]
    · intro now _ hpast
      exact hend now (hpast _ List.mem_cons_self) fun c hc => hpast c (List.mem_cons_of_mem _ hc)

end Matches

/-! ### The sliding window -/

/-- What the calls at a moment show of a window that is the end of a journal. -/
structure Shows (j : Journal) (now : Moment) (w : Window) : Prop where
  live : w.live now = j.live now
  /-- What lives is a suffix of what was taken in, and may live together. -/
  suffix : w.live now <:+ j.taken
  allowed : j.allows now (w.live now) = true
  /-- No longer suffix may live together. -/
  longest : ∀ s, s <:+ j.taken → j.allows now s = true → s.length ≤ (w.live now).length
  nodup : ((w.live now).map Prod.fst).Nodup
  refused : ∀ key, (w.enter key now).1 = false ↔ key ∈ (w.live now).map Prod.fst
  /-- An identifier that is refused changes nothing that lives, now or later. -/
  unchanged : ∀ key, (w.enter key now).1 = false → ∀ later, now ≤ later →
    (w.enter key now).2.live later = w.live later
  /-- An identifier that is not refused becomes the newest. -/
  newest : ∀ key, (w.enter key now).1 = true → (w.enter key now).2.order.getLast? = some (key, now)
  contains : ∀ key, w.contains key now = true ↔ key ∈ (w.live now).map Prod.fst
  size : (w.size now).1 = (w.live now).length

theorem Matches.shows {j : Journal} {w : Window} {now : Moment} (h : Matches j now w) : Shows j now w := by
  have hlive := h.live_eq (Nat.le_refl now)
  refine ⟨hlive, hlive ▸ longestSuffix_suffix _ _, hlive ▸ longestSuffix_holds (allows_nil j now) _,
    fun s hs hallows => hlive ▸ (suffix_longestSuffix hs hallows).length_le, ?_, fun key => ?_,
    fun key hold later hle => ?_, fun key hnew => ?_, fun key => h.contains_iff key now, ?_⟩
  · exact h.coherent.nodup.sublist (List.filter_sublist.map Prod.fst)
  · rw [(h.enter (Nat.le_refl now) key).1, hlive, ← knows_iff]
    cases j.knows key now <;> simp
  · obtain ⟨hanswer, hnext⟩ := h.enter (Nat.le_refl now) key
    rw [hold] at hanswer
    have hk : j.knows key now = true := by simpa using hanswer.symm
    have hsame : (j.answer now (.enter key)).2 = j := by simp [Journal.answer, hk]
    rw [hsame] at hnext
    rw [hnext.live_eq hle, h.live_eq hle]
  · unfold Window.enter at hnew ⊢
    simp only at hnew ⊢
    split
    · simp_all
    · exact List.getLast?_concat
  · show (w.expire now).entries.size = _
    rw [(h.coherent.expire now).size, h.order_expire]

end Journal

/-- A window that is called at moments that do not go back answers every call as its journal does,
and what lives of it at any moment from then on is the longest suffix of the journal that may live
together. -/
theorem run_eq_journal (ttl : Span) (maxBytes : Nat) (calls : List (Moment × Call))
    (hclock : (calls.map Prod.fst).Pairwise (· ≤ ·)) :
    ((Window.empty ttl maxBytes).run calls).1 = (({ ttl, maxBytes } : Journal).run calls).1 ∧
      ∀ now, (∀ c ∈ calls, c.1 ≤ now) →
        Journal.Shows (({ ttl, maxBytes } : Journal).run calls).2 now ((Window.empty ttl maxBytes).run calls).2 := by
  have hstart : ((0 : Moment) :: calls.map Prod.fst).Pairwise (· ≤ ·) :=
    List.pairwise_cons.mpr ⟨fun m _ => Nat.zero_le m, hclock⟩
  obtain ⟨hanswers, hend⟩ := (Journal.Matches.empty ttl maxBytes 0).run hstart
  exact ⟨hanswers, fun now hnow => (hend now (Nat.zero_le now) hnow).shows⟩

/-- Room for one entry and a half: the second entry drives the first out, which comes in again as new,
and one that costs more than there is room for stays alone. -/
theorem run_eq_journal_crowded :
    let calls : List (Moment × Call) :=
      [(0, .enter "a"), (1, .enter "a"), (2, .enter "b"), (3, .contains "a"), (4, .enter "a"), (8, .enter "a"),
        (9, .enter "a"), (10, .enter "abcdefghijklmnopqrstuvwxyzabcdefghijklmnopqrstuvwxyz"), (10, .size)]
    (calls.map Prod.fst).Pairwise (· ≤ ·) ∧
      ((Window.empty ⟨5⟩ 100).run calls).1 =
        [.entered true, .entered false, .entered true, .found false, .entered true, .entered false, .entered true,
          .entered true, .counted 1] :=
  ⟨by decide, (run_eq_journal ⟨5⟩ 100 _ (by decide)).1.trans (by decide +kernel)⟩

end AdmissionWatch.Dedup
